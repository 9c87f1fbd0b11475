import CommandShell.Program.Condition
import CommandShell.Program.Option
import CommandShell.Program.Printf
import CommandShell.Program.Quoting

/-!
Utilities that write without reading: `echo`, `printf`, `printenv`, `sleep`, `yes`, `test`
and those that only have an exit code.
-/
namespace CommandShell.Program

/-- Does nothing, and exits with a code. -/
def exiting (code : Nat) : Program := immediate fun _ => { code }

/-- The switches at the start of the arguments of `echo`, and its words. -/
def echoSwitches : List Text → Text × List Text
  | ('-' :: c :: letters) :: rest =>
    if (c :: letters).all fun l => l == 'n' || l == 'e' || l == 'E' then
      let (more, words) := echoSwitches rest
      (c :: letters ++ more, words)
    else ([], ('-' :: c :: letters) :: rest)
  | words => ([], words)

def echoEscapes : EscapeStyle where
  leadingZero := true
  hexadecimal := true
  stops := true

/-- Writes its arguments; escapes count only after `-e`. -/
def echo : Program := immediate fun c =>
  let (switches, words) := echoSwitches c.arguments
  let text := Text.unwords words
  let escapes := (switches.filter (· != 'n')).getLast? == some 'e'
  let (bytes, ended) := if escapes then unescape echoEscapes text else (Text.encode text, false)
  { output := if ended || switches.contains 'n' then bytes else bytes ++ [10] }

def numberComplaint : Printf.Complaint → Text
  | .notNumeric argument => quoteEscaped argument ++ ": expected a numeric value".toList
  | .trailing argument => quoteEscaped argument ++ ": value not completely converted".toList
  | .unknown directive => directive ++ ": invalid conversion specification".toList

def printfDialect : Printf.Dialect where
  format := { hexadecimal := true, stops := true, quotes := true }
  argument := { leadingZero := true, hexadecimal := true, stops := true, quotes := true }

def printf : Program := immediate fun c =>
  let arguments := match c.arguments with
    | ['-', '-'] :: rest => rest
    | arguments => arguments
  match arguments with
  | [] => usageComplaint c "missing operand".toList 1
  | format :: rest =>
    let result := Printf.format printfDialect format rest
    let line (message : Text) : Text := Text.line (c.name ++ ": ".toList ++ message)
    let excess := match result.left with
      | word :: _ =>
        if result.stopped then []
        else line ("warning: ignoring excess arguments, starting with ".toList ++
          quoteEscaped word)
      | [] => []
    { output := result.output
      error := Text.encode
        (result.complaints.flatMap (fun complaint => line (numberComplaint complaint)) ++ excess)
      code := if result.complaints.isEmpty then 0 else 1 }

/-- Variables as assignments, one a line. -/
def assignments (vars : List (Text × Text)) : Text :=
  vars.flatMap fun (name, value) => Text.line (name ++ '=' :: value)

/-- Writes the values of variables, or all variables. -/
def printenv : Program := immediate fun c =>
  if c.arguments.isEmpty then { output := Text.encode (assignments c.vars) }
  else
    let values := c.arguments.map c.valueOf?
    { output := Text.encode ((values.filterMap id).flatMap Text.line)
      code := if values.all Option.isSome then 0 else 1 }

def interval? (s : Text) : Option Nat :=
  let (number, unit) : Text × Nat := match s.getLast? with
    | some 's' => (s.dropLast, 1000)
    | some 'm' => (s.dropLast, 60000)
    | some 'h' => (s.dropLast, 3600000)
    | some 'd' => (s.dropLast, 86400000)
    | _ => (s, 1000)
  let whole := number.takeWhile (· != '.')
  let decimals := (number.dropWhile (· != '.')).drop 1
  if (whole ++ decimals).isEmpty || !(whole ++ decimals).all Char.isDigit then none
  else
    let value := (whole ++ decimals).foldl (fun n c => n * 10 + Text.digitValue c) 0
    some (value * unit / Nat.pow 10 decimals.length)

def sleep : Program := fun c =>
  let fail (message : Text) : Outcome := ⟨(usageComplaint c message 1).at 0, c.files, false⟩
  match c.arguments.find? fun argument => (interval? argument).isNone with
  | some argument => fail ("invalid time interval ".toList ++ quoteEscaped argument)
  | none =>
    if c.arguments.isEmpty then fail "missing operand".toList
    else ⟨Reply.at {} ((c.arguments.filterMap interval?).foldl (· + ·) 0), c.files, false⟩

def yes : Program := fun c =>
  let line := if c.arguments.isEmpty then ['y'] else Text.unwords c.arguments
  ⟨{ chunk := Text.encode (Text.line line) }, c.files, false⟩

def conditionReply (c : Call) (words : List Text) : Reply :=
  match Condition.holds c words with
  | .ok answer => { code := if answer then 0 else 1 }
  | .error fault => complaint c (fault.message words.length) 2

def test : Program := immediate fun c => conditionReply c c.arguments

def bracket : Program := immediate fun c =>
  if c.arguments.getLast? == some [']'] then conditionReply c c.arguments.dropLast
  else complaint c "missing ']'".toList 2

end CommandShell.Program
