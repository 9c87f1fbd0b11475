import CommandShell.Files.Walk

/-!
Reading and changing files, as a machine's system calls do.

Each operation looks at its operands in a fixed order and reports the first thing that is wrong. An
operation of one step leaves the files alone when it fails. What the earlier steps of any other one
did stays done: a file is opened before it is written to, and emptied or created by that, and then
the disk may take only some of the bytes.
-/
namespace CommandShell

/-- The files after an operation of several steps, and what stopped it, if anything did. -/
structure Change where
  files : Files
  error : Option IoError
deriving DecidableEq, Repr

/-- What is left by a write that was stopped, and what stopped it. -/
structure Stopped where
  files : Files
  cause : IoError
deriving DecidableEq, Repr

namespace Files

def read (f : Files) (path : Text) : Except IoError Bytes :=
  match f.contentAt path with
  | .ok (.file bytes) => .ok bytes
  | .ok .void => .ok []
  | .ok _ => .error .isDirectory
  | .error error => .error error

/-- The file that a path leads to, created with permission bits `mode` if its directory does not
have it, and emptied unless it is to keep what it has. -/
def openForWriting (f : Files) (path : Text) (keep : Bool) (mode : Nat) :
    Except IoError (Files × FileId) :=
  if Path.isClosed path then
    match f.holder path with
    | .ok _ => .error .isDirectory
    | .error error => .error error
  else
    match f.walk true path with
    | .ok (.found place) =>
      match f.content? place.id with
      | some (.file _) | some .void =>
        .ok (if keep then f else f.setBytes place.id [], place.id)
      | some (.directory _) => .error .isDirectory
      | some (.link _) | none => .error .notFound
    | .ok (.free directory name closed) =>
      if closed then .error .isDirectory
      else .ok (f.create directory.id name (.file []) mode, f.nodes.length)
    | .error error => .error error

/-- The fault that stops the next write, if it is one of so many bytes. -/
def fault? (f : Files) (bytes : Bytes) : Option Fault :=
  f.faults.head?.join.filter fun fault => fault.taken < bytes.length

/-- Writes bytes behind those of an open file. Where there are none nothing is written, and what is
written to a node that is no regular file is dropped. -/
def append (f : Files) (id : FileId) (bytes : Bytes) : Except Stopped Files :=
  match bytes, f.bytes? id with
  | [], _ | _, none => .ok f
  | bytes, some old =>
    let rest := { f with faults := f.faults.tail }
    match f.fault? bytes with
    | none => .ok (rest.setBytes id (old ++ bytes))
    | some fault =>
      .error ⟨rest.setBytes id (old ++ bytes.take fault.taken), fault.cause⟩

/-- Writes bytes to the file that a path leads to: after the ones it has, or instead of them. -/
def write (f : Files) (path : Text) (append : Bool) (bytes : Bytes) : Except Stopped Files :=
  match f.openForWriting path append fileMode with
  | .error cause => .error ⟨f, cause⟩
  | .ok (f, id) => f.append id bytes

/-- Copies permission bits and bytes. The target is emptied before the source is read, so a file
copied onto itself ends up empty. -/
def copy (f : Files) (source target : Text) : Except Stopped Files :=
  match f.locate true source with
  | .error cause => .error ⟨f, cause⟩
  | .ok place =>
    match f.nodes[place.id]? with
    | some ⟨.file _, mode, _⟩ =>
      match f.openForWriting target false mode with
      | .error cause => .error ⟨f, cause⟩
      | .ok (f, id) =>
        let f := if (f.bytes? id).isSome then f.setMode id mode else f
        f.append id ((f.bytes? place.id).getD [])
    | _ => .error ⟨f, .notRegular⟩

/-- The directory and the name that a path names, with the node under that name. `odd` is the
failure of a path that ends in no name. -/
def entryAt (f : Files) (odd : LastName → IoError) (path : Text) :
    Except IoError (Place × Text × Option FileId) :=
  match f.holder path with
  | .error error => .error error
  | .ok directory =>
    match lastName path with
    | .name name =>
      if isTooLong name then .error .nameTooLong
      else .ok (directory, name, f.child? directory.id name)
    | last => .error (odd last)

def makeDirectory (f : Files) (path : Text) : Except IoError Files :=
  match f.entryAt (fun _ => .taken) path with
  | .error error => .error error
  | .ok (_, _, some _) => .error .taken
  | .ok (directory, name, none) =>
    .ok (f.create directory.id name (.directory []) directoryMode)

/-- Makes a directory unless the path already leads to one; `parents` makes the directories that
are missing above it. -/
def ensureDirectory (f : Files) (path : Text) (parents : Files → Change) : Change :=
  let finish (f : Files) : Change :=
    match f.makeDirectory path with
    | .ok f => ⟨f, none⟩
    | .error error => if f.isDirectory path then ⟨f, none⟩ else ⟨f, some error⟩
  match f.makeDirectory path with
  | .ok f => ⟨f, none⟩
  | .error .notFound =>
    match parents f with
    | ⟨f, none⟩ => finish f
    | stopped => stopped
  | .error error => if f.isDirectory path then ⟨f, none⟩ else ⟨f, some error⟩

/-- Makes the directory with some components, given innermost first, and those above it. -/
def ensureDirectories : List Text → Files → Change
  | [], f => ⟨f, none⟩
  | name :: outer, f =>
    f.ensureDirectory (Path.ofNames (name :: outer).reverse) (ensureDirectories outer)

def makeDirectories (f : Files) (path : Text) : Change :=
  f.ensureDirectory path (ensureDirectories (Path.normalNames path).reverse.tail)

/-- Takes away a name that stands for no directory. -/
def removeFile (f : Files) (path : Text) : Except IoError Files :=
  match f.entryAt (fun _ => .isDirectory) path with
  | .error error => .error error
  | .ok (_, _, none) => .error .notFound
  | .ok (directory, name, some id) =>
    if f.isDirectoryId id then .error .isDirectory
    else if Path.isClosed path then .error .notDirectory
    else .ok (f.unbind directory.id name)

/-- The failure of removing a directory by a path that ends in no name. -/
def removalError : LastName → IoError
  | .root => .busy
  | .here => .invalid
  | _ => .notEmpty

def removeDirectory (f : Files) (path : Text) : Except IoError Files :=
  match f.entryAt removalError path with
  | .error error => .error error
  | .ok (_, _, none) => .error .notFound
  | .ok (directory, name, some id) =>
    match f.entries? id with
    | none => .error .notDirectory
    | some [] => .ok (f.unbind directory.id name)
    | some (_ :: _) => .error .notEmpty

/-- Takes away a directory with everything in it, or a link. What a directory holds goes first, so
it is gone even where the directory itself has to stay. -/
def removeTree (f : Files) (path : Text) : Change :=
  match f.locate false path with
  | .error error => ⟨f, some error⟩
  | .ok place =>
    if (f.linkTarget? place.id).isSome then
      match f.removeFile path with
      | .ok f => ⟨f, none⟩
      | .error error => ⟨f, some error⟩
    else if f.isDirectoryId place.id then
      let f := f.setEntries place.id []
      match f.removeDirectory path with
      | .ok f => ⟨f, none⟩
      | .error error => ⟨f, some error⟩
    else ⟨f, some .notDirectory⟩

/-- What keeps the node `old` from taking the name of the node `new?`. -/
def renameError? (f : Files) (old : FileId) (new? : Option FileId) : Option IoError :=
  match new? with
  | none => none
  | some new =>
    if new = old then none
    else if f.isDirectoryId old then
      match f.entries? new with
      | none => some .notDirectory
      | some [] => none
      | some (_ :: _) => some .notEmpty
    else if f.isDirectoryId new then some .isDirectory
    else none

/-- Gives the node that one path names the name of another, which it replaces. -/
def rename (f : Files) (source target : Text) : Except IoError Files :=
  match f.holder source, f.holder target with
  | .error error, _ => .error error
  | _, .error error => .error error
  | .ok oldHolder, .ok newHolder =>
    match lastName source, lastName target with
    | .name oldName, .name newName =>
      if isTooLong oldName || isTooLong newName then .error .nameTooLong
      else
        match f.child? oldHolder.id oldName with
        | none => .error .notFound
        | some old =>
          let new? := f.child? newHolder.id newName
          if !f.isDirectoryId old && (Path.isClosed source || Path.isClosed target) then
            .error .notDirectory
          else if newHolder.any (·.2 == old) then .error .invalid
          else if oldHolder.any (some ·.2 == new?) then .error .notEmpty
          else if new? = some old then .ok f
          else
            match f.renameError? old new? with
            | some error => .error error
            | none =>
              .ok (((f.unbind newHolder.id newName).unbind oldHolder.id oldName).bind
                newHolder.id newName old)
    | _, _ => .error .busy

/-- The entries of the directory that a path leads to, each with its node. -/
def list (f : Files) (path : Text) : Except IoError (List (Text × Node)) :=
  match f.contentAt path with
  | .ok (.directory entries) =>
    .ok (entries.filterMap fun (name, id) => f.nodes[id]?.map (name, ·))
  | .ok _ => .error .notDirectory
  | .error error => .error error

end Files

end CommandShell
