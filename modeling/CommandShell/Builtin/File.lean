import CommandShell.Builtin.Basic

/-!
Built-in commands on files: deleting, copying, moving and showing them.
-/
namespace CommandShell.Builtin

/-- Removes files in order, up to the first that cannot be removed. -/
def removeFiles (resolve : Text → Text) (f : Files) :
    List Text → Files × Option (Text × IoError)
  | [] => (f, none)
  | file :: rest =>
    match f.removeFile (resolve file) with
    | .ok f => removeFiles resolve f rest
    | .error cause => (f, some (file, cause))

def del (name : Text) : Builtin :=
  ofSignature name "Delete files" "delete files." (Signature.many "files") fun words s =>
    if words.isEmpty then refuse s "Missing file name".toList
    else
      let (files, stopped) := removeFiles s.environment.resolve s.files words
      let s := s.withFiles files
      match stopped with
      | none => say s ("Deleted ".toList ++ Text.ofNat words.length ++ " file(s)\n".toList)
      | some (file, cause) => refuse s (because ("del: ".toList ++ file) cause)

def transferred (s : State) (command done source target : Text) :
    Except Stopped Files → State × Answer
  | .ok files =>
    say (s.withFiles files)
      (Text.line (done ++ ' ' :: source ++ " to ".toList ++ target))
  | .error ⟨files, cause⟩ =>
    refuse (s.withFiles files)
      (because (command ++ ": ".toList ++ source ++ " -> ".toList ++ target) cause)

/-- The file that a copy goes to: in a directory, the one with the name of the source. -/
def copyTarget (f : Files) (source target : Text) : Text :=
  if f.isDirectory target then
    match Path.fileName? source with
    | some name => Path.join target name
    | none => target
  else target

def copy (name : Text) : Builtin :=
  ofSignature name "Copy file" "copy a file, overwriting the destination."
    (Signature.two (.word "source" "file to copy.")
      (.word "destination" "target file or directory.")) fun (source, destination) s =>
      let origin := s.environment.resolve source
      let target := copyTarget s.files origin (s.environment.resolve destination)
      transferred s "copy".toList "Copied".toList source destination (s.files.copy origin target)

def move (name : Text) : Builtin :=
  ofSignature name "Move file" "move or rename a file."
    (Signature.two (.word "source" "file to move.") (.word "destination" "new path."))
    fun (source, destination) s =>
      transferred s "move".toList "Moved".toList source destination
        ((s.files.rename (s.environment.resolve source)
          (s.environment.resolve destination)).mapError (⟨s.files, ·⟩))

def type (name : Text) : Builtin :=
  ofSignature name "Display file contents" "print a file to standard output."
    (Signature.many "file") fun words s =>
      if words.isEmpty then refuse s "Missing file name".toList
      else
        let file := Text.unwords words
        match s.files.read (s.environment.resolve file) with
        | .ok bytes => say s (Text.decode bytes)
        | .error cause => refuse s (because ("type: ".toList ++ file) cause)

end CommandShell.Builtin
