import CommandShell.Files.Basic
import CommandShell.Files.Path

/-!
Walking a path from the root to the node it names.

A walk goes component by component. A link on the way is replaced by its target, at most
`maxLinks` times in one walk; at the end of the path that is up to the caller, unless a slash
follows. `walkNames` is the part between two links and recurses on the components, `walkLinks`
recurses on the number of links left.
-/
namespace CommandShell

/-- The directories and the node that a walk has passed, innermost first. The root is not
listed. -/
abbrev Place := List (Text × FileId)

namespace Place

def id : Place → FileId
  | [] => Files.rootId
  | (_, id) :: _ => id

/-- The path of a place without links, `.` or `..`. -/
def path (place : Place) : Text := Path.ofNames (place.reverse.map Prod.fst)

end Place

/-- Where a walk ended. -/
inductive Spot
  /-- At a node. -/
  | found (place : Place)
  /-- In a directory that does not have the last name of the path. `closed` says that a slash
  follows the name. -/
  | free (directory : Place) (name : Text) (closed : Bool)
deriving DecidableEq, Repr

namespace Files

def maxName : Nat := 255

def maxPath : Nat := 4096

def maxLinks : Nat := 40

/-- Whether a name is too long for any directory. -/
def isTooLong (name : Text) : Bool := maxName < (Text.encode name).length

/-- Walks some components from a place. `closed` says that a slash follows the last one, `follow`
that a link at the end counts as its target. A link is handed to `next` with the place where its
target starts and the components still to come. -/
def walkNames (f : Files) (follow closed : Bool)
    (next : (closed : Bool) → Place → List Text → Except IoError Spot) :
    Place → List Text → Except IoError Spot
  | place, [] =>
    if closed && !f.isDirectoryId place.id then .error .notDirectory else .ok (.found place)
  | place, name :: rest =>
    match f.entries? place.id with
    | none => .error .notDirectory
    | some entries =>
      if name == Path.here then walkNames f follow closed next place rest
      else if name == Path.above then walkNames f follow closed next place.tail rest
      else if isTooLong name then .error .nameTooLong
      else
        match entries.lookup name with
        | none => if rest.isEmpty then .ok (.free place name closed) else .error .notFound
        | some id =>
          match f.linkTarget? id with
          | none => walkNames f follow closed next ((name, id) :: place) rest
          | some target =>
            if rest.isEmpty && !follow && !closed then .ok (.found ((name, id) :: place))
            else
              next (closed || (rest.isEmpty && Path.isClosed target))
                (if Path.isAbsolute target then [] else place) (Path.names target ++ rest)

/-- Walks some components from a place, following at most the given number of links. -/
def walkLinks (f : Files) (follow : Bool) :
    Nat → (closed : Bool) → Place → List Text → Except IoError Spot
  | 0, closed => walkNames f follow closed fun _ _ _ => .error .linkLoop
  | links + 1, closed => walkNames f follow closed (walkLinks f follow links)

/-- The failure of a path that no walk begins with. -/
def pathError? (path : Text) : Option IoError :=
  if path.any (· == '\x00') then some .nulInPath
  else if path.isEmpty then some .notFound
  else if maxPath ≤ (Text.encode path).length then some .nameTooLong
  else none

def walk (f : Files) (follow : Bool) (path : Text) : Except IoError Spot :=
  match pathError? path with
  | some error => .error error
  | none => walkLinks f follow maxLinks (Path.isClosed path) [] (Path.names path)

def locate (f : Files) (follow : Bool) (path : Text) : Except IoError Place :=
  match f.walk follow path with
  | .ok (.found place) => .ok place
  | .ok (.free _ _ _) => .error .notFound
  | .error error => .error error

/-- What a path names, links followed. -/
def contentAt (f : Files) (path : Text) : Except IoError Content :=
  match f.locate true path with
  | .error error => .error error
  | .ok place => (f.content? place.id).elim (.error .notFound) .ok

/-- The path of a node without links, `.` or `..`. -/
def canonical (f : Files) (path : Text) : Except IoError Text :=
  (f.locate true path).map Place.path

/-- Whether a path leads to a regular file. -/
def isFile (f : Files) (path : Text) : Bool :=
  match f.contentAt path with
  | .ok (.file _) => true
  | _ => false

/-- Whether a path leads to a directory. -/
def isDirectory (f : Files) (path : Text) : Bool :=
  match f.contentAt path with
  | .ok (.directory _) => true
  | _ => false

/-- What the last component of a path asks for. -/
inductive LastName
  | root
  | here
  | above
  | name (name : Text)
deriving DecidableEq, Repr

/-- The last component of a path. -/
def lastName (path : Text) : LastName :=
  match (Path.names path).getLast? with
  | none => .root
  | some name =>
    if name == Path.here then .here else if name == Path.above then .above else .name name

/-- The directory in which the last component of a path is looked up. -/
def holder (f : Files) (path : Text) : Except IoError Place :=
  match pathError? path with
  | some error => .error error
  | none =>
    match walkLinks f true maxLinks true [] (Path.names path).dropLast with
    | .ok (.found place) => .ok place
    | .ok (.free _ _ _) => .error .notFound
    | .error error => .error error

end Files

end CommandShell
