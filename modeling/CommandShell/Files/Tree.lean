import CommandShell.Files.Write

/-!
Whole trees of files: laying one out, listing it, and stamping everything in it.
-/
namespace CommandShell.Files

/-- Makes a directory and those above it, and ignores what stands in the way. -/
def layDirectory (f : Files) (path : Text) : Files := (f.makeDirectories path).files

/-- The directories above a path, made where they are missing. -/
def layParents (f : Files) (path : Text) : Files :=
  match Path.parent? path with
  | some parent => f.layDirectory parent
  | none => f

/-- Adds or replaces a file, and makes the directories above it. -/
def layFile (f : Files) (path : Text) (bytes : Bytes) (mode : Nat) : Files :=
  let f := f.layParents path
  match f.write path false bytes with
  | .error stopped => stopped.files
  | .ok f =>
    match f.locate true path with
    | .ok place => f.setMode place.id mode
    | .error _ => f

/-- Adds a link, and makes the directories above it. -/
def layLink (f : Files) (path target : Text) : Files :=
  let f := f.layParents path
  match f.entryAt (fun _ => .taken) path with
  | .ok (directory, name, none) => f.create directory.id name (.link target) linkMode
  | _ => f

/-- The nodes under some entries with their paths, each path after `lead`, as deep as `depth`. -/
def under (f : Files) : (depth : Nat) → (lead : Text) → List (Text × FileId) →
    List (Text × FileId)
  | 0, _, _ => []
  | depth + 1, lead, entries =>
    entries.flatMap fun (name, id) =>
      (lead ++ name, id) ::
        match f.entries? id with
        | some inner => f.under depth (lead ++ name ++ ['/']) inner
        | none => []

/-- Everything under a directory with its path from there, sorted by path. No path goes through
more nodes than there are. -/
def tree (f : Files) (path : Text) : List (Text × FileId) :=
  match f.contentAt path with
  | .ok (.directory entries) =>
    (f.under f.nodes.length [] entries).mergeSort fun a b => Text.precedes a.1 b.1
  | _ => []

def stampNode (f : Files) (id : FileId) (time : Int) : Files :=
  { f with nodes := f.nodes.modify id fun n => { n with modified := time } }

def stampTree (f : Files) (path : Text) (time : Int) : Files :=
  (f.tree path).foldl (fun f entry => f.stampNode entry.2 time) f

def stamp (f : Files) (path : Text) (time : Int) : Files :=
  match f.locate false path with
  | .ok place => f.stampNode place.id time
  | .error _ => f

end CommandShell.Files
