import CommandShell.Text.Basic

/-!
Paths as texts: components between slashes, joining, and the names of their ends.

A path is kept as it was written. `names` is how a walk reads it, `normalNames` how its spelling
alone is read when no directory is looked at: there an inner `.` counts for nothing.
-/
namespace CommandShell.Path

def here : Text := ['.']

/-- The component that leaves a directory for the one that holds it. -/
def above : Text := ['.', '.']

/-- Whether a path starts at the root. -/
def isAbsolute : Text → Bool
  | '/' :: _ => true
  | _ => false

def names (path : Text) : List Text := (Text.pieces ['/'] path).filter fun name => !name.isEmpty

/-- Whether a path ends with a slash and so can only name a directory. -/
def isClosed (path : Text) : Bool := path.getLast? == some '/'

/-- `path` seen from `base`: an absolute path stands for itself. -/
def join (base path : Text) : Text :=
  if isAbsolute path then path
  else if base.isEmpty || isClosed base then base ++ path
  else base ++ '/' :: path

/-- The components of an absolute path that its spelling does not make void. -/
def normalNames (path : Text) : List Text := (names path).filter (· != here)

/-- The name that a path ends in, if it ends in one. -/
def fileName? (path : Text) : Option Text :=
  match (normalNames path).getLast? with
  | some name => if name == above then none else some name
  | none => none

def ofNames : List Text → Text
  | [] => ['/']
  | names => names.flatMap fun name => '/' :: name

/-- The path without its last component, if it has one. -/
def parent? (path : Text) : Option Text :=
  match normalNames path with
  | [] => none
  | names => some (ofNames names.dropLast)

end CommandShell.Path
