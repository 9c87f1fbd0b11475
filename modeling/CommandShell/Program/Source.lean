import CommandShell.Process.Drain
import CommandShell.Program.Option
import CommandShell.Program.Quoting

/-!
What the operands of a filter stand for: files, or its input where there are none or a dash.
-/
namespace CommandShell.Program

/-- An operand with the bytes that it leads to, or with what is wrong with it. A directory can be
opened but not read. -/
inductive Source
  | readable (name : Text) (bytes : Bytes)
  | unreadable (name : Text) (error : IoError)
deriving DecidableEq, Repr

namespace Source

def name : Source → Text
  | readable name _ | unreadable name _ => name

/-- The bytes of a source; one that cannot be read has none. -/
def bytes : Source → Bytes
  | readable _ bytes => bytes
  | unreadable _ _ => []

/-- Whether a source can be opened. -/
def isOpen : Source → Bool
  | readable _ _ | unreadable _ .isDirectory => true
  | unreadable _ _ => false

def error? : Source → Option IoError
  | readable _ _ => none
  | unreadable _ error => some error

end Source

def inputOperand : Text := ['-']

/-- Whether a filter with these operands reads its input. -/
def readsInput (operands : List Text) : Bool := operands.isEmpty || operands.contains inputOperand

def source (c : Call) (operand : Text) : Source :=
  if operand == inputOperand then .readable operand c.input.bytes
  else if operand.isEmpty then .unreadable operand .notFound
  else
    match c.files.read (Path.join c.directory operand) with
    | .ok bytes => .readable operand bytes
    | .error error => .unreadable operand error

/-- What the operands of a filter stand for; without any it reads its input, which has no name. -/
def sources (c : Call) (operands : List Text) : List Source :=
  if operands.isEmpty then [.readable [] c.input.bytes] else operands.map (source c)

def overSources (operands : List Text) (reply : Call → List Source → Reply) : Program :=
  let run (c : Call) : Reply := reply c (sources c operands)
  if readsInput operands then Program.draining run else Program.immediate run

/-- A reply with a message for each source that something is wrong with. -/
def replyTo (wording : Text → IoError → Text) (output : List Source → Bytes) (c : Call)
    (sources : List Source) : Reply :=
  let errors := sources.flatMap fun source =>
    match source.error? with
    | none => []
    | some error => Text.line (c.name ++ ": ".toList ++ wording source.name error)
  { output := output sources
    error := Text.encode errors
    code := if errors.isEmpty then 0 else 1 }

def nameAndReason (name : Text) (error : IoError) : Text :=
  quoteIfNeeded name ++ ": ".toList ++ error.reason

def openOrRead (name : Text) (error : IoError) : Text :=
  if error = .isDirectory then
    "error reading ".toList ++ quoteAlways name ++ ": ".toList ++ error.reason
  else
    "cannot open ".toList ++ quoteAlways name ++ " for reading: ".toList ++ error.reason

/-- The lines of some bytes, without their newlines. -/
def byteLines (bytes : Bytes) : List Bytes :=
  (Drain.pieces bytes).map fun piece => piece.filter (· != Drain.newline)

def unlines (lines : List Bytes) : Bytes := lines.flatMap fun line => line ++ [Drain.newline]

end CommandShell.Program
