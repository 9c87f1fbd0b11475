import CommandShell.Text.Blank

/-!
Kinds of lines: how a line is going to be run, decided on its raw text.

An operator counts here if it stands between spaces, whether or not it is quoted. A pipe wins over
a background mark, which wins over a redirection.
-/
namespace CommandShell.Line

/-- How a line is run. -/
inductive Kind
  /-- It contains a spaced pipe. -/
  | pipeline
  /-- It ends with a spaced ampersand; `command` is the line without it. -/
  | background (command : Text)
  /-- It contains a spaced redirection operator. -/
  | redirection
  | simple
deriving DecidableEq, Repr

def spacedPipe : Text := [' ', '|', ' ']

/-- The way a redirection moves text. -/
inductive Direction
  | input
  | append
  | output
deriving DecidableEq, Repr

namespace Direction

def mark : Direction → Text
  | input => [' ', '<', ' ']
  | append => [' ', '>', '>', ' ']
  | output => [' ', '>', ' ']

end Direction

/-- Whether a line, its end trimmed, closes with a spaced ampersand. -/
def hasBackgroundMark (line : Text) : Bool := Text.endsWith [' ', '&'] (Text.trimEnd line)

def kind (line : Text) : Kind :=
  if Text.has spacedPipe line then .pipeline
  else if hasBackgroundMark line then
    .background (Text.trim (Text.dropEndWhile (· == '&') (Text.trimEnd line)))
  else if Text.has Direction.output.mark line || Text.has Direction.append.mark line ||
      Text.has Direction.input.mark line then .redirection
  else .simple

/-- A redirection line cut at its operator. -/
structure Redirection where
  command : Text
  target : Text
  direction : Direction
deriving DecidableEq, Repr

/-- Why a redirection line cannot be cut. -/
inductive RedirectionError
  /-- There is not exactly one operator of the direction between two operands. -/
  | malformed (direction : Direction)
  | noOperator
deriving DecidableEq, Repr

/-- Cuts a line at the operator of one direction, both operands trimmed and neither empty. -/
def cutRedirection (direction : Direction) (line : Text) : Except RedirectionError Redirection :=
  match (Text.pieces direction.mark line).map Text.trim with
  | [command, target] =>
    if command.isEmpty || target.isEmpty then .error (.malformed direction)
    else .ok ⟨command, target, direction⟩
  | _ => .error (.malformed direction)

/-- Cuts a redirection line: at an input operator if it has one, else at an appending one, else at
a plain output operator. -/
def redirection (line : Text) : Except RedirectionError Redirection :=
  if Text.has Direction.input.mark line then cutRedirection .input line
  else if Text.has Direction.append.mark line then cutRedirection .append line
  else if Text.has Direction.output.mark line then cutRedirection .output line
  else .error .noOperator

end CommandShell.Line
