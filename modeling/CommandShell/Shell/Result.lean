import CommandShell.Files.Error
import CommandShell.Line.Kind

/-!
What a command answers, and the errors that keep one from being run.

A result is a success exactly if its code is zero, except where a command outside this library says
otherwise. Every error has one wording and one code, so the result of a failed command follows from
its cause.
-/
namespace CommandShell

/-- The answer of a command. `elapsed` is the time it took, in milliseconds. -/
structure Result where
  success : Bool := true
  output : Text := []
  error : Text := []
  code : Int := 0
  elapsed : Nat := 0
deriving DecidableEq, Repr

namespace Result

def ok (output : Text) : Result := { output }

def failure (error : Text) (code : Int) : Result := { success := false, error, code }

def ofExit (code : Int) (output error : Text) : Result :=
  { success := code == 0, output, error, code }

def withElapsed (r : Result) (elapsed : Nat) : Result := { r with elapsed }

end Result

/-- Why a line cannot be run as it is written. -/
inductive SyntaxError
  | tooFewStages
  | backgroundCombined
  | badRedirection (cause : Line.RedirectionError)
  | noCommand
  | other (message : Text)
deriving DecidableEq, Repr

def SyntaxError.message : SyntaxError → Text
  | .tooFewStages => "Invalid pipeline - at least two commands required".toList
  | .backgroundCombined =>
    "Background execution cannot be combined with pipes or redirection".toList
  | .badRedirection (.malformed .input) => "Invalid input redirection syntax".toList
  | .badRedirection (.malformed _) => "Invalid output redirection syntax".toList
  | .badRedirection .noOperator => "No redirection operator found".toList
  | .noCommand => "Failed to parse command".toList
  | .other message => message

/-- Why a command has not been run, or its output not been delivered. -/
inductive ShellError
  | badSyntax (cause : SyntaxError)
  | notRecognized (command : Text)
  | notStarted (cause : IoError)
  | redirectionFailed (cause : IoError)
  | cancelled
deriving DecidableEq, Repr

namespace ShellError

def message : ShellError → Text
  | badSyntax cause => cause.message
  | notRecognized command =>
    '\'' :: command ++ "' is not recognized as an internal or external command.".toList
  | notStarted cause => cause.message
  | redirectionFailed cause => "Redirection failed: ".toList ++ cause.message
  | cancelled => "Command cancelled".toList

def code : ShellError → Int
  | badSyntax _ | notRecognized _ | redirectionFailed _ => 1
  | notStarted _ => -1
  | cancelled => 130

def result (e : ShellError) : Result := Result.failure e.message e.code

end ShellError

end CommandShell
