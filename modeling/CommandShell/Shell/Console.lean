import CommandShell.Shell.Session

/-!
The console: the arguments of the program, what it shows for a result, and reading lines.
-/
namespace CommandShell

/-- What is shown on the two output streams. -/
structure Screen where
  output : Text := []
  error : Text := []
deriving DecidableEq, Repr

def Screen.append (a b : Screen) : Screen := ⟨a.output ++ b.output, a.error ++ b.error⟩

instance : Append Screen := ⟨Screen.append⟩

namespace Console

def programName : Text := "nativesh".toList

/-- An option of the program. -/
inductive Setting
  | command
  | assets
  | prompt
deriving DecidableEq, Repr

def setting? (word : Text) : Option Setting :=
  if word == "-c".toList || word == "--command".toList then some .command
  else if word == "--assets".toList then some .assets
  else if word == "--prompt".toList then some .prompt
  else none

/-- The arguments of the program. -/
structure Arguments where
  command : Option Text := none
  assets : Option Text := none
  prompt : Option Text := none
deriving DecidableEq, Repr

/-- Why arguments are refused. -/
inductive ArgumentError
  | unrecognized (word : Text)
  | noValue (option : Text)
  | repeated (option value : Text)
  | afterHelp
deriving DecidableEq, Repr

def ArgumentError.message : ArgumentError → Text
  | .unrecognized word => Text.line ("Unrecognized argument: ".toList ++ word)
  | .noValue option =>
    Text.line ("No value provided for option '".toList ++ option ++ "'.".toList)
  | .repeated option value =>
    Text.line ("Error parsing option '".toList ++ option ++ "' with value '".toList ++ value ++
      "': duplicate values provided".toList)
  | .afterHelp => "Trailing arguments are not allowed after \x60help\x60.".toList

/-- Gives an option its value, unless it has one. -/
def Arguments.give (a : Arguments) (setting : Setting) (option value : Text) :
    Except ArgumentError Arguments :=
  match setting with
  | .command =>
    if a.command.isSome then .error (.repeated option value)
    else .ok { a with command := some value }
  | .assets =>
    if a.assets.isSome then .error (.repeated option value)
    else .ok { a with assets := some value }
  | .prompt =>
    if a.prompt.isSome then .error (.repeated option value)
    else .ok { a with prompt := some value }

/-- Whether a word asks for help. -/
def isHelp (word : Text) : Bool := word == "--help".toList || word == "help".toList

/-- Whether a word is written as an option. -/
def looksLikeOption : Text → Bool
  | '-' :: _ => true
  | _ => false

/-- What reading arguments comes to: the arguments, or `none` where help is asked for. -/
abbrev Reading := Except ArgumentError (Option Arguments)

/-- Reads arguments; `open?` is an option that the next word is the value of. After `--` no word is
an option. -/
def readArguments (a : Arguments) (help ended : Bool) (open? : Option (Setting × Text)) :
    List Text → Reading
  | [] =>
    match open? with
    | some (_, option) => .error (.noValue option)
    | none => .ok (if help then none else some a)
  | word :: rest =>
    match open? with
    | some (setting, option) =>
      match a.give setting option word with
      | .ok a => readArguments a help ended none rest
      | .error error => .error error
    | none =>
      if isHelp word && !ended then readArguments a true ended none rest
      else if looksLikeOption word && !ended then
        if word == ['-', '-'] then readArguments a help true none rest
        else if help then .error .afterHelp
        else
          match setting? word with
          | some setting => readArguments a help ended (some (setting, word)) rest
          | none => .error (.unrecognized word)
      else .error (.unrecognized word)

def usage : Text :=
  "Usage: ".toList ++ programName ++
    " [-c <command>] [--assets <assets>] [--prompt <prompt>]\n\n".toList ++
    "a native command shell.\n\n".toList ++
    Signature.table "Options:"
      [("-c, --command".toList, "run one command line and exit with its exit code.".toList),
       ("--assets".toList, "directory holding the ascii/ art assets.".toList),
       ("--prompt".toList, "initial prompt template, e.g. $P$G.".toList),
       ("--help, help".toList, "display usage information".toList)]

def refusal (error : ArgumentError) : Screen where
  error := error.message ++ "\nRun ".toList ++ programName ++
    " --help for more information.\n".toList

def banner : Text :=
  Text.line (programName ++ ' ' :: Builtin.version ++
    " - type 'help' for a list of commands".toList)

/-- Closes a text that is not empty with a newline, if it has none at its end. -/
def closed (text : Text) : Text :=
  if text.isEmpty || Text.endsWith ['\n'] text then text else Text.line text

def clearScreen : Text := "\x1b[2J\x1b[1;1H".toList

def render (r : Result) : Screen where
  output := match Display.ofOutput r.output with
    | .clearScreen => clearScreen ++ banner
    | .art _ text => closed text
    | .text text => closed text
  error := closed r.error ++
    if r.success then []
    else Text.line ("Command exited with code: ".toList ++ Text.ofInt r.code)

/-- What is shown for the jobs that have completed since some events. -/
def notices (before : Nat) (events : List Event) : Screen where
  output := (events.drop before).flatMap fun event =>
    match event with
    | .jobCompleted .. => '\n' :: Text.line event.text
    | _ => []

/-- A line as it was typed, where a backspace takes back the character before it. -/
def typed (line : Text) : Text :=
  (line.foldl (fun kept c => if c == '\x08' then kept.tail else c :: kept) []).reverse

/-- The lines of an input. A carriage return before a newline belongs to the line end. -/
def inputLines (input : Text) : List Text :=
  let parts := Text.pieces ['\n'] input
  let ended := parts.dropLast.map fun part =>
    typed (if Text.endsWith ['\r'] part then part.dropLast else part)
  match parts.getLast? with
  | some [] | none => ended
  | some rest => ended ++ [typed rest]

/-- The code of a line that ends the session at the console itself. -/
def exitRequest? (line : Text) : Option Int :=
  match Text.blankSplit line with
  | [] => none
  | first :: rest =>
    let folded := Text.asciiLower first
    if folded == "quit".toList then some 0
    else if folded == "exit".toList then
      match rest with
      | [] => some 0
      | [code] => (Text.readInt 2147483647 code).toOption
      | _ => none
    else none

/-- A console after a line: the session, what has been shown, and the code it has ended with, if it
has. -/
structure Turn where
  session : Session
  screen : Screen := {}
  code : Option Int := none
  /-- Whether the process has ended at once, its jobs left alone. -/
  abrupt : Bool := false

def runLine (s : Session) (line : Text) : Turn :=
  let before := s.state.supervision.events.length
  let (s, answer) := s.execute line false
  let after := notices before s.state.supervision.events
  match answer with
  | .result result => { session := s, screen := render result ++ after }
  | .quits code => { session := s, code := some code, abrupt := true }
  | .broke _ => { session := s, screen := after }

/-- Reads a line: a blank one is passed over, and a request to leave ends the console. -/
def readLine (s : Session) (line : Text) : Turn :=
  if Text.allBlank line then { session := s }
  else
    match exitRequest? line with
    | some code => { session := s, code := some code }
    | none => runLine s line

/-- Reads lines until one ends the console; the end of the input is no failure. -/
def readLines (s : Session) : List Text → Turn
  | [] => { session := s, code := some 0 }
  | line :: rest =>
    let turn := readLine s line
    match turn.code with
    | some _ => turn
    | none =>
      let later := readLines turn.session rest
      { later with screen := turn.screen ++ later.screen }

def close (turn : Turn) : Turn :=
  if turn.abrupt then turn
  else
    let before := turn.session.state.supervision.events.length
    let state := turn.session.state.shutdown
    { turn with
      session := turn.session.withState state
      screen := turn.screen ++ notices before state.supervision.events }

def runCommand (s : Session) (line : Text) : Turn :=
  let (after, answer) := s.execute line false
  match answer with
  | .result result => close { session := after, screen := render result, code := some result.code }
  | .quits code => { session := after, code := some code, abrupt := true }
  | .broke _ => close { session := after, code := some 1 }

/-- The session of a console, from the variables and the arguments of its process. -/
def start (exeDirectory : Text) (inherited : List (Text × Text)) (machine : Machine)
    (a : Arguments) : Session :=
  let config := Config.ofVariables exeDirectory inherited
  let config := { config with
    assets := a.assets.getD config.assets
    prompt := a.prompt.getD config.prompt }
  Session.start config inherited machine

/-- Runs a session on a whole input, or on the command that the arguments give. -/
def run (s : Session) (a : Arguments) (input : Text) : Turn :=
  match a.command with
  | some line => runCommand s line
  | none =>
    let turn := close (readLines s (inputLines input))
    { turn with screen := { output := banner } ++ turn.screen }

def exitByte (code : Int) : Nat := (code % 256).toNat

end Console

end CommandShell
