import CommandShell.Builtin.Basic

/-!
Built-in commands on directories: moving between them, listing, making and removing them.

An operand of several words is one path with blanks in it.
-/
namespace CommandShell.Builtin

/-- Changes the current directory, or shows it. -/
def cd (name : Text) : Builtin :=
  ofSignature name "Change directory"
    "change the current directory, or print it when no path is given."
    (Signature.many "path") fun words s =>
      if words.isEmpty then say s (Text.line s.environment.directory)
      else
        let path := Text.unwords words
        match s.environment.changeDirectory? s.files path with
        | some environment =>
          say (s.withEnvironment environment)
            (Text.line ("Changed directory to: ".toList ++ environment.directory))
        | none => refuse s ("Cannot find path: ".toList ++ path)

/-- A row of a listing: mode, time, length and name. -/
def listingRow (mode time length name : Text) : Text :=
  Text.line (Text.unwords
    [Text.padRight 7 mode, Text.padRight 20 time, Text.padLeft 10 length, name])

/-- The time a node was changed, as listings show it. -/
def listedTime (n : Node) : Text := (Moment.ofSeconds n.modified).stamp

/-- The length that a listing shows for a node that is no directory. -/
def listedLength (n : Node) : Nat :=
  match n.content with
  | .file bytes => bytes.length
  | .link target => (Text.encode target).length
  | .directory _ | .void => 0

/-- Whether a node is a directory. -/
def isDirectoryNode (n : Node) : Bool :=
  match n.content with
  | .directory _ => true
  | _ => false

/-- What a listing shows of an entry: its name, the time it was changed, and its length unless it is
a directory. -/
structure Row where
  name : Text
  time : Text
  length : Option Nat
deriving DecidableEq, Repr

namespace Row

/-- The row of a node. A link counts as no directory. -/
def ofNode (name : Text) (n : Node) : Row where
  name
  time := listedTime n
  length := if isDirectoryNode n then none else some (listedLength n)

def isDirectory (r : Row) : Bool := r.length.isNone

/-- The order of rows: by name, then by time, then by length. -/
def precedes (a b : Row) : Bool :=
  if a.name ≠ b.name then Text.precedes a.name b.name
  else if a.time ≠ b.time then Text.precedes a.time b.time
  else a.length.getD 0 ≤ b.length.getD 0

def sorted (rows : List Row) : List Row := rows.mergeSort precedes

def text (r : Row) : Text :=
  match r.length with
  | none => listingRow "d-----".toList r.time "<DIR>".toList r.name
  | some length => listingRow "-a----".toList r.time (Text.ofNat length) r.name

end Row

/-- The rows of a listing: directories first, each group in order. -/
def listingRows (entries : List (Text × Node)) : Text :=
  let rows := entries.map fun (name, n) => Row.ofNode name n
  let (directories, others) := rows.partition Row.isDirectory
  (Row.sorted directories ++ Row.sorted others).flatMap Row.text

def listing (directory : Text) (entries : List (Text × Node)) : Text :=
  "\n Directory of ".toList ++ directory ++ "\n\n".toList ++
    listingRow "Mode".toList "LastWriteTime".toList "Length".toList "Name".toList ++
    Text.line (List.replicate 70 '-') ++ listingRows entries

def dir (name : Text) : Builtin :=
  ofSignature name "List directory contents" "list directory contents."
    (Signature.many "path") fun words s =>
      let path :=
        if words.isEmpty then s.environment.directory
        else s.environment.resolve (Text.unwords words)
      match s.files.canonical path with
      | .error cause => refuse s (because ("Cannot find path: ".toList ++ path) cause)
      | .ok directory =>
        match s.files.list directory with
        | .error cause => refuse s (because ("dir: ".toList ++ directory) cause)
        | .ok entries => say s (listing directory entries)

def pwd (name : Text) : Builtin :=
  ofSignature name "Print working directory"
    "print the current working directory to standard output."
    Signature.none fun _ s => say s (Text.line s.environment.directory)

/-- Changes the current directory, and remembers it; without an operand, to the home directory. -/
def pushd (name : Text) : Builtin :=
  ofSignature name "Push directory to stack"
    "remember the current directory and change to another one."
    (Signature.many "path") fun words s =>
      let path := if words.isEmpty then s.environment.home else Text.unwords words
      match s.environment.pushDirectory? s.files path with
      | some environment =>
        say (s.withEnvironment environment) (Text.line environment.directory)
      | none => refuse s ("Cannot find path: ".toList ++ path)

/-- Returns to the directory that was left last. -/
def popd (name : Text) : Builtin :=
  ofSignature name "Pop directory from stack" "return to the most recently pushed directory."
    Signature.none fun _ s =>
      let (environment, answer) := s.environment.popDirectory s.files
      let s := s.withEnvironment environment
      match answer with
      | .ok directory => say s (Text.line directory)
      | .error error => refuse s error.message

def changed (s : State) (command done path : Text) (change : Change) : State × Answer :=
  let s := s.withFiles change.files
  match change.error with
  | none => say s (Text.line (done ++ ": ".toList ++ path))
  | some cause => refuse s (because (command ++ ": ".toList ++ path) cause)

def mkdir (name : Text) : Builtin :=
  ofSignature name "Create directory" "create a directory and any missing parents."
    (Signature.many "path") fun words s =>
      if words.isEmpty then refuse s "Missing directory name".toList
      else
        let path := Text.unwords words
        changed s "mkdir".toList "Directory created".toList path
          (s.files.makeDirectories (s.environment.resolve path))

def rmdir (name : Text) : Builtin :=
  ofSignature name "Remove directory" "remove a directory and everything in it."
    (Signature.many "path") fun words s =>
      if words.isEmpty then refuse s "Missing directory name".toList
      else
        let path := Text.unwords words
        changed s "rmdir".toList "Directory removed".toList path
          (s.files.removeTree (s.environment.resolve path))

end CommandShell.Builtin
