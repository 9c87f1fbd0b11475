import CommandShell.Program.Run

/-!
Options of utilities: single letters after a dash, alone or run together, some with a value.

Options may stand anywhere before `--`; every other argument is an operand. A lone dash is an
operand.
-/
namespace CommandShell.Program

/-- What the arguments of a utility say. -/
structure Options where
  letters : List (Char × Text) := []
  operands : List Text := []
deriving DecidableEq, Repr

namespace Options

/-- Whether a letter was given. -/
def has (o : Options) (letter : Char) : Bool := o.letters.any (·.1 == letter)

/-- The value of a letter that was given last. -/
def value? (o : Options) (letter : Char) : Option Text :=
  (o.letters.filter (·.1 == letter)).getLast?.map Prod.snd

def withLetter (o : Options) (letter : Char) (value : Text) : Options :=
  { o with letters := (letter, value) :: o.letters }

end Options

/-- Why arguments cannot be read. -/
inductive OptionError
  | unknown (letter : Char)
  | unknownWord (argument : Text)
  | noValue (letter : Char)
deriving DecidableEq, Repr

/-- What a run of letters says: the options in it, and the one that still needs a value. -/
def readLetters (flags valued : List Char) :
    Text → Except OptionError (List (Char × Text) × Option Char)
  | [] => .ok ([], none)
  | c :: rest =>
    if valued.contains c then
      if rest.isEmpty then .ok ([], some c) else .ok ([(c, rest)], none)
    else if flags.contains c then
      (readLetters flags valued rest).map fun (letters, open?) => ((c, []) :: letters, open?)
    else .error (.unknown c)

/-- Reads arguments; `open?` is a letter that the next argument is the value of. -/
def readOptions (flags valued : List Char) (open? : Option Char) :
    List Text → Except OptionError Options
  | [] =>
    match open? with
    | some letter => .error (.noValue letter)
    | none => .ok {}
  | argument :: rest =>
    match open?, argument with
    | some letter, value =>
      (readOptions flags valued none rest).map fun o => o.withLetter letter value
    | none, ['-', '-'] => .ok { operands := rest }
    | none, '-' :: '-' :: _ => .error (.unknownWord argument)
    | none, '-' :: c :: letters =>
      match readLetters flags valued (c :: letters) with
      | .error error => .error error
      | .ok (read, open?) =>
        (readOptions flags valued open? rest).map fun o => { o with letters := read ++ o.letters }
    | none, operand =>
      (readOptions flags valued none rest).map fun o => { o with operands := operand :: o.operands }

def OptionError.message : OptionError → Text
  | .unknown letter => "invalid option -- '".toList ++ letter :: ['\'']
  | .unknownWord argument => "unrecognized option '".toList ++ argument ++ ['\'']
  | .noValue letter => "option requires an argument -- '".toList ++ letter :: ['\'']

def complaint (c : Call) (message : Text) (code : Nat) : Reply :=
  { error := Text.encode (Text.line (c.name ++ ": ".toList ++ message)), code }

def usageComplaint (c : Call) (message : Text) (code : Nat) : Reply :=
  complaint c (Text.line message ++ "Try '".toList ++ c.name ++
    " --help' for more information.".toList) code

def withOptions (flags valued : List Char) (code : Nat) (body : Options → Program) : Program :=
  fun c =>
    match readOptions flags valued none c.arguments with
    | .ok options => body options c
    | .error error => ⟨(usageComplaint c error.message code).at 0, c.files, false⟩

end CommandShell.Program
