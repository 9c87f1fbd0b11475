import CommandShell.Text.Number

/-!
Failures of the file system and of starting a program.

The failures that the operating system itself reports carry its number, which their wording ends
with.
-/
namespace CommandShell

/-- Why an operation on files or the start of a program failed. -/
inductive IoError
  | notFound
  | notRunnable
  | denied
  | busy
  | taken
  | notDirectory
  | isDirectory
  | invalid
  | noSpace
  | nameTooLong
  | notEmpty
  | linkLoop
  /-- A path holds the character NUL. -/
  | nulInPath
  /-- An argument or a variable handed to a program holds the character NUL. -/
  | nulInData
  /-- What is to be copied is not a regular file. -/
  | notRegular
  /-- What is to be read as text is not UTF-8. -/
  | notText
  | other (message : Text)
deriving DecidableEq, Repr

namespace IoError

/-- What went wrong, in words. -/
def reason : IoError → Text
  | notFound => "No such file or directory".toList
  | notRunnable => "Exec format error".toList
  | denied => "Permission denied".toList
  | busy => "Device or resource busy".toList
  | taken => "File exists".toList
  | notDirectory => "Not a directory".toList
  | isDirectory => "Is a directory".toList
  | invalid => "Invalid argument".toList
  | noSpace => "No space left on device".toList
  | nameTooLong => "File name too long".toList
  | notEmpty => "Directory not empty".toList
  | linkLoop => "Too many levels of symbolic links".toList
  | nulInPath => "file name contained an unexpected NUL byte".toList
  | nulInData => "nul byte found in provided data".toList
  | notRegular =>
    "the source path is neither a regular file nor a symlink to a regular file".toList
  | notText => "stream did not contain valid UTF-8".toList
  | other message => message

/-- The operating system's number for a failure that it reports itself. -/
def number? : IoError → Option Nat
  | notFound => some 2
  | notRunnable => some 8
  | denied => some 13
  | busy => some 16
  | taken => some 17
  | notDirectory => some 20
  | isDirectory => some 21
  | invalid => some 22
  | noSpace => some 28
  | nameTooLong => some 36
  | notEmpty => some 39
  | linkLoop => some 40
  | nulInPath | nulInData | notRegular | notText | other _ => none

def message (e : IoError) : Text :=
  match e.number? with
  | some number => e.reason ++ " (os error ".toList ++ Text.ofNat number ++ [')']
  | none => e.reason

end IoError

end CommandShell
