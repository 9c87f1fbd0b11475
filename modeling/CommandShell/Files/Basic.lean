import CommandShell.Files.Error
import CommandShell.Text.Utf8

/-!
The files of a machine: a list of nodes, each of which is a regular file, a directory, a symbolic
link, or the device that keeps nothing.

A node's id is its position, and directories map names to ids, so one file can have several names.
Nodes are only ever added or changed in place; one that has lost its last name stays where it is
and can no longer be reached. The root directory is node 0.
-/
namespace CommandShell

abbrev FileId := Nat

/-- What a node holds. -/
inductive Content
  | file (bytes : Bytes)
  /-- The names in a directory, each with the node it stands for. -/
  | directory (entries : List (Text × FileId))
  | link (target : Text)
  /-- A device that reads as empty and drops what is written to it. -/
  | void
deriving DecidableEq, Repr

/-- A file, directory or link, with its permission bits and the second it was last changed in. -/
structure Node where
  content : Content
  mode : Nat
  modified : Int
deriving DecidableEq, Repr

/-- How a write breaks off: when so many bytes have been taken, and for which reason. -/
structure Fault where
  taken : Nat
  cause : IoError
deriving DecidableEq, Repr

/-- The nodes of a machine, and the second that changes are stamped with. -/
structure Files where
  nodes : List Node
  now : Int
  /-- Which of the writes to come break off, one by one. Those beyond the list do not. -/
  faults : List (Option Fault) := []
deriving DecidableEq, Repr

/-- Whether any of the three execution bits is set. -/
def Node.isExecutable (n : Node) : Bool := n.mode &&& 0o111 != 0

namespace Files

def rootId : FileId := 0

def directoryMode : Nat := 0o755

def fileMode : Nat := 0o644

/-- The permission bits of links, which nothing checks. -/
def linkMode : Nat := 0o777

def empty (now : Int) : Files where
  nodes := [⟨.directory [], directoryMode, now⟩]
  now

def content? (f : Files) (id : FileId) : Option Content := f.nodes[id]?.map Node.content

/-- The entries of `id`, if it is a directory. -/
def entries? (f : Files) (id : FileId) : Option (List (Text × FileId)) :=
  match f.content? id with
  | some (.directory entries) => some entries
  | _ => none

/-- The target of `id`, if it is a link. -/
def linkTarget? (f : Files) (id : FileId) : Option Text :=
  match f.content? id with
  | some (.link target) => some target
  | _ => none

/-- The bytes of `id`, if it is a regular file. -/
def bytes? (f : Files) (id : FileId) : Option Bytes :=
  match f.content? id with
  | some (.file bytes) => some bytes
  | _ => none

/-- Whether `id` is a directory. -/
def isDirectoryId (f : Files) (id : FileId) : Bool := (f.entries? id).isSome

def child? (f : Files) (directory : FileId) (name : Text) : Option FileId :=
  (f.entries? directory).bind fun entries => entries.lookup name

def setContent (f : Files) (id : FileId) (content : Content) : Files :=
  { f with nodes := f.nodes.modify id fun n => { n with content, modified := f.now } }

/-- Replaces the bytes of `id`, if it is a regular file. -/
def setBytes (f : Files) (id : FileId) (bytes : Bytes) : Files :=
  if (f.bytes? id).isSome then f.setContent id (.file bytes) else f

def setMode (f : Files) (id : FileId) (mode : Nat) : Files :=
  { f with nodes := f.nodes.modify id fun n => { n with mode } }

def setEntries (f : Files) (directory : FileId) (entries : List (Text × FileId)) : Files :=
  f.setContent directory (.directory entries)

/-- Adds a name to a directory, last. -/
def bind (f : Files) (directory : FileId) (name : Text) (id : FileId) : Files :=
  match f.entries? directory with
  | some entries => f.setEntries directory (entries ++ [(name, id)])
  | none => f

def unbind (f : Files) (directory : FileId) (name : Text) : Files :=
  match f.entries? directory with
  | some entries => f.setEntries directory (entries.filter fun entry => entry.1 != name)
  | none => f

/-- Adds a node under a name that its directory does not have yet. -/
def create (f : Files) (directory : FileId) (name : Text) (content : Content) (mode : Nat) :
    Files :=
  let id := f.nodes.length
  Files.bind { f with nodes := f.nodes ++ [⟨content, mode, f.now⟩] } directory name id

end Files

end CommandShell
