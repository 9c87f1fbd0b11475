import CommandShell.Process.Drain
import CommandShell.Program.Script.Expand
import CommandShell.Program.Simple

/-!
Running a script.

A script has a state: its variables, where its streams go, what it has written and how much time
has passed. Commands that are not built in are started through a `Launcher`. A pipe hands all that
one stage writes to the next one.
-/
namespace CommandShell.Program.Script

/-- Starts the program at a path, which is seen from the directory of the call, or tells why that
fails. -/
abbrev Launcher := (path : Text) → Call → Except IoError Outcome

/-- Where a stream goes. -/
inductive Sink
  | channel (channel : Channel)
  | file (path : Text)
deriving DecidableEq, Repr

/-- The streams of a command. -/
structure Streams where
  output : Sink := .channel .output
  error : Sink := .channel .error
deriving DecidableEq, Repr

/-- The state of a script. -/
structure State where
  vars : List (Text × Text)
  exported : List Text
  name : Text
  parameters : List Text
  directory : Text
  pid : Pid
  files : Files
  input : Supply
  status : Nat := 0
  time : Nat := 0
  written : List Written := []
  chunk : Bytes := []
  /-- How the script has ended, if it has; the inner `none` says that it never will. -/
  ended : Option (Option Status) := none
deriving DecidableEq, Repr

namespace State

def values (s : State) : Values := ⟨s.vars, s.name, s.parameters, s.status, s.pid⟩

def resolve (s : State) (path : Text) : Text := Path.join s.directory path

/-- Sets a variable. One that is new comes last. -/
def setVariable (s : State) (name value : Text) : State :=
  { s with
    vars :=
      if s.vars.any (·.1 == name) then
        s.vars.map fun item => if item.1 == name then (name, value) else item
      else s.vars ++ [(name, value)] }

def exportVariable (s : State) (name : Text) : State :=
  { s with exported := if s.exported.contains name then s.exported else s.exported ++ [name] }

def bucket (name : Text) : Nat :=
  let sum (bytes : Bytes) : Nat := (bytes.map UInt8.toNat).foldl (· + ·) 0
  let bytes := Text.encode name
  (16 * sum (bytes.take 1) + sum bytes) % 39

/-- The variables that programs see, bucket by bucket. -/
def visible (s : State) : List (Text × Text) :=
  (s.vars.filter fun item => s.exported.contains item.1).mergeSort fun a b =>
    bucket a.1 ≤ bucket b.1

def withStatus (s : State) (status : Nat) : State := { s with status }

def put (s : State) (sink : Sink) (time : Nat) (bytes : Bytes) : State :=
  if bytes.isEmpty then s
  else
    match sink with
    | .channel channel => { s with written := s.written ++ [⟨time, channel, bytes⟩] }
    | .file path =>
      match s.files.write path true bytes with
      | .ok files | .error ⟨files, _⟩ => { s with files }

/-- Writes a message with the name of the script and a line before it, and sets the status. -/
def complain (s : State) (streams : Streams) (line : Nat) (message : Text) (status : Nat) : State :=
  (s.put streams.error s.time (Text.encode (Text.line
    (s.name ++ ": ".toList ++ Text.ofNat line ++ ": ".toList ++ message)))).withStatus status

def reply (s : State) (streams : Streams) (r : Reply) : State :=
  ((s.put streams.output s.time r.output).put streams.error s.time r.error).withStatus r.code

def absorb (s : State) (streams : Streams) (o : Outcome) : State :=
  let s := { s with files := o.files, input := if o.drains then {} else s.input }
  let s := o.run.written.foldl (fun s w =>
    s.put (if w.channel = .output then streams.output else streams.error) (s.time + w.time)
      w.bytes) s
  match o.run.ending with
  | none => { s with ended := some none, chunk := o.run.chunk }
  | some (time, status) =>
    { s with time := s.time + time, status := status.code.toNat }

def call (s : State) (name : Text) (arguments : List Text) : Call where
  name
  arguments
  vars := s.visible
  directory := s.directory
  input := { s.input with closed := s.input.closed - s.time }
  pid := s.pid + 1
  files := s.files

/-- What is wrong with a path; one that is not there has a wording of its own. -/
def reason (missing : String) (error : IoError) : Text :=
  if error = .notFound || error = .notDirectory then missing.toList else error.reason

def redirect (s : State) (streams : Streams) (line : Nat) (item : Nat × Arrow × Word) :
    Except State (State × Streams) :=
  let (stream, arrow, word) := item
  let target := expandWhole s.values word
  let path := s.resolve target
  let set (sink : Sink) : Streams :=
    if stream = 2 then { streams with error := sink } else { streams with output := sink }
  match arrow with
  | .share =>
    if target == ['1'] then .ok (s, set streams.output)
    else if target == ['2'] then .ok (s, set streams.error)
    else .error (s.complain streams line ("Syntax error: Bad fd number".toList) 2)
  | .read =>
    match s.files.read path with
    | .ok bytes => .ok ({ s with input := { bytes } }, streams)
    | .error error =>
      .error (s.complain streams line
        ("cannot open ".toList ++ target ++ ": ".toList ++ reason "No such file" error) 2)
  | .write append =>
    match s.files.write path append [] with
    | .ok files => .ok ({ s with files }, set (.file path))
    | .error ⟨_, error⟩ =>
      .error (s.complain streams line
        ("cannot create ".toList ++ target ++ ": ".toList ++
          reason "Directory nonexistent" error) 2)

def redirectAll (s : State) (streams : Streams) (line : Nat) :
    List (Nat × Arrow × Word) → Except State (State × Streams)
  | [] => .ok (s, streams)
  | item :: rest =>
    match s.redirect streams line item with
    | .ok (s, streams) => s.redirectAll streams line rest
    | .error s => .error s

def signal? (word : Text) : Option Nat :=
  match Text.readNat 64 word with
  | .ok n => some n
  | .error _ =>
    if word == "KILL".toList then some 9
    else if word == "TERM".toList then some 15
    else if word == "INT".toList then some 2
    else if word == "HUP".toList then some 1
    else if word == "ABRT".toList then some 6
    else if word == "SEGV".toList then some 11
    else none

/-- Sends a signal. A script can only reach itself. -/
def signal (s : State) (streams : Streams) (line : Nat) (number : Nat) (target : Text) : State :=
  if target == Text.ofNat s.pid then
    if number = 0 then s.withStatus 0 else { s with ended := some (some (.signaled number)) }
  else s.complain streams line "kill: No such process".toList 1

/-- Reads a line of the input into variables; the last one takes the rest of it. -/
def readLine (s : State) (names : List Text) : State :=
  let line := s.input.bytes.takeWhile (· != Drain.newline)
  let rest := s.input.bytes.drop line.length
  let s := { s with input := { s.input with bytes := rest.drop 1 } }
  let text := Text.dropEndWhile Fields.isSplit ((Text.decode line).dropWhile Fields.isSplit)
  let rec assign (s : State) (text : Text) : List Text → State
    | [] => s
    | [name] => s.setVariable name text
    | name :: names =>
      let field := text.takeWhile fun c => !Fields.isSplit c
      let after := (text.drop field.length).dropWhile Fields.isSplit
      assign (s.setVariable name field) after names
  (assign s text names).withStatus (if rest.isEmpty then 1 else 0)

def finish (s : State) (status : Nat) : State :=
  { s with ended := some (some (.exited (status % 256))) }

def dialect : Printf.Dialect where
  argument := { leadingZero := true, stops := true }

/-- Writes the arguments of the built-in `echo`, in which escapes always count. -/
def echoReply (arguments : List Text) : Reply :=
  let (bare, words) : Bool × List Text := match arguments with
    | ['-', 'n'] :: rest => (true, rest)
    | words => (false, words)
  let (bytes, ended) := unescape dialect.argument (Text.unwords words)
  { output := if bare || ended then bytes else bytes ++ [Drain.newline] }

def condition (s : State) (streams : Streams) (line : Nat) (c : Call) (words : List Text) : State :=
  match Condition.holds c words with
  | .ok answer => s.withStatus (if answer then 0 else 1)
  | .error fault =>
    let wording := match fault with
      | .missing _ => "argument expected".toList
      | .unexpected last _ => last ++ ": unexpected operator".toList
      | .notInteger word => "Illegal number: ".toList ++ word
    s.complain streams line (c.name ++ ": ".toList ++ wording) 2

/-- Runs a command that is built in; `none` if there is none of that name. -/
def builtin? (s : State) (streams : Streams) (line : Nat) (name : Text) (arguments : List Text) :
    Option State :=
  let c := s.call name arguments
  if [":".toList, "true".toList, "wait".toList].contains name then some (s.withStatus 0)
  else if name == "false".toList then some (s.withStatus 1)
  else if name == "echo".toList then some (s.reply streams (echoReply arguments))
  else if name == "printf".toList then
    match arguments with
    | [] => some (s.complain streams line "printf: usage: printf format [arg ...]".toList 2)
    | format :: rest =>
      let result := Printf.format dialect format rest
      let s := s.put streams.output s.time result.output
      some (result.complaints.foldl (fun s complaint =>
        let (wording, status) : Text × Nat := match complaint with
          | .notNumeric argument => (argument ++ ": expected numeric value".toList, 1)
          | .trailing argument => (argument ++ ": not completely converted".toList, 1)
          | .unknown directive => (directive ++ ": invalid directive".toList, 2)
        s.complain streams line ("printf: ".toList ++ wording) status) (s.withStatus 0))
  else if name == "pwd".toList then
    some (s.reply streams { output := Text.encode (Text.line s.directory) })
  else if name == "cd".toList then
    let target := arguments.headD ((s.vars.lookup "HOME".toList).getD [])
    match s.files.canonical (s.resolve target) with
    | .ok directory =>
      if s.files.isDirectory directory then
        let s := (s.setVariable "OLDPWD".toList s.directory).exportVariable "OLDPWD".toList
        some (({ s with directory }.setVariable "PWD".toList directory).withStatus 0)
      else some (s.complain streams line ("cd: can't cd to ".toList ++ target) 2)
    | .error _ => some (s.complain streams line ("cd: can't cd to ".toList ++ target) 2)
  else if name == "exit".toList then
    match arguments with
    | [] => some (s.finish s.status)
    | code :: _ =>
      match Text.readNat 2147483647 code with
      | .ok code => some (s.finish code)
      | .error _ =>
        some ((s.complain streams line ("exit: Illegal number: ".toList ++ code) 2).finish 2)
  else if name == "kill".toList then
    match arguments with
    | [target] => some (s.signal streams line 15 target)
    | ['-', 's'] :: word :: [target] | ('-' :: word) :: [target] =>
      match signal? word with
      | some number => some (s.signal streams line number target)
      | none => some (s.complain streams line ("kill: Illegal option -".toList ++ word) 2)
    | _ => some (s.complain streams line "kill: usage: kill [-s sigspec] pid".toList 2)
  else if name == "read".toList then
    some (s.readLine (arguments.filter fun word => word != ['-', 'r']))
  else if name == "shift".toList then
    some { s with parameters := s.parameters.drop 1, status := 0 }
  else if name == "unset".toList then
    let kept := s.vars.filter fun item => !arguments.contains item.1
    some { s with vars := kept, status := 0 }
  else if name == "export".toList then
    some ((arguments.foldl (fun s word =>
      match Text.cutAt? ['='] word with
      | some (name, value) => (s.setVariable name value).exportVariable name
      | none => s.exportVariable word) s).withStatus 0)
  else if name == "test".toList then some (s.condition streams line c arguments)
  else if name == ['['] then
    if arguments.getLast? == some [']'] then
      some (s.condition streams line c arguments.dropLast)
    else some (s.complain streams line "[: missing ]".toList 2)
  else none

def candidates (s : State) (name : Text) : List Text :=
  if name.contains '/' then [name]
  else
    match s.vars.lookup "PATH".toList with
    | some path => (Text.pieces [':'] path).map fun directory =>
        if directory.isEmpty then name else Path.join directory name
    | none => ["/usr/local/bin", "/usr/bin", "/bin"].map fun directory =>
        Path.join directory.toList name

/-- Starts a program that is not built in. -/
def external (launch : Launcher) (s : State) (streams : Streams) (line : Nat) (name : Text)
    (arguments : List Text) : State :=
  match (s.candidates name).find? fun path => s.files.isFile (s.resolve path) with
  | none => s.complain streams line (name ++ ": not found".toList) 127
  | some path =>
    match launch path (s.call name arguments) with
    | .ok outcome => s.absorb streams outcome
    | .error .denied => s.complain streams line (name ++ ": Permission denied".toList) 126
    | .error _ => s.complain streams line (name ++ ": not found".toList) 127

def simple (launch : Launcher) (s : State) (command : Simple) : State :=
  let (assigned, words) := splitAssignments command.words
  let fields := expandWords s.values words
  match s.redirectAll {} command.line command.arrows with
  | .error s => s
  | .ok (opened, streams) =>
    let values := assigned.map fun (name, word) => (name, expandWhole s.values word)
    let assignAll (s : State) : State := values.foldl (fun s item => s.setVariable item.1 item.2) s
    let restore (after : State) : State :=
      if command.arrows.any fun item => item.2.1 == .read then { after with input := s.input }
      else after
    match fields with
    | [] => restore ((assignAll opened).withStatus 0)
    | name :: arguments =>
      if name == "exec".toList then
        match arguments with
        | [] => opened.withStatus 0
        | program :: arguments =>
          let after := external launch opened streams command.line program arguments
          match after.ended with
          | some _ => after
          | none => after.finish after.status
      else
        match opened.builtin? streams command.line name arguments with
        | some after => restore after
        | none =>
          let seen := values.foldl (fun s item =>
            (s.setVariable item.1 item.2).exportVariable item.1) opened
          let after := external launch seen streams command.line name arguments
          restore { after with vars := opened.vars, exported := opened.exported }

/-- The state in which the stages of a pipe are run, each in a copy of its own. -/
def stages (launch : Launcher) (s : State) : (input : Supply) → List Simple → State
  | _, [] => s
  | input, [last] =>
    let after := simple launch { s with input, written := [] } last
    { s with
      files := after.files
      written := s.written ++ after.written
      chunk := after.chunk
      time := after.time
      status := match after.ended with
        | some (some status) => status.code.toNat
        | _ => after.status
      ended := match after.ended with
        | some none => some none
        | _ => none }
  | input, stage :: next :: rest =>
    let after := simple launch { s with input, written := [] } stage
    let out := (after.written.filter (·.channel == .output)).flatMap Written.bytes
    let errors := after.written.filter (·.channel == .error)
    stages launch { s with files := after.files, written := s.written ++ errors }
      { bytes := out, chunk := after.chunk, closed := after.time } (next :: rest)

/-- Runs a pipeline if its condition holds. -/
def pipeline (launch : Launcher) (s : State) (p : Pipeline) : State :=
  let due := s.ended.isNone && match p.condition with
    | .always => true
    | .afterSuccess => s.status == 0
    | .afterFailure => s.status != 0
  if due then
    let after := match p.stages with
      | [command] => simple launch s command
      | several => stages launch s s.input several
    if p.negated then after.withStatus (if after.status = 0 then 1 else 0) else after
  else s

/-- The outcome of a state in which nothing is left to run. -/
def outcome (s : State) : Outcome where
  run :=
    { written := s.written
      chunk := s.chunk
      ending := match s.ended with
        | none => some (s.time + 1, .exited (s.status % 256))
        | some none => none
        | some (some status) => some (s.time + 1, status) }
  files := s.files
  drains := s.input.bytes.isEmpty

end State

def run (launch : Launcher) (s : State) (script : Text) : Outcome :=
  match parse script with
  | .ok pipelines => (pipelines.foldl (State.pipeline launch) s).outcome
  | .error fault => ((s.complain {} 1 fault.message 2).finish 2).outcome

/-- The state that a script starts in; it knows its directory by a variable. -/
def start (c : Call) (name : Text) (parameters : List Text) (input : Supply) : State :=
  let s : State :=
    { vars := c.vars
      exported := c.vars.map Prod.fst
      name
      parameters
      directory := c.directory
      pid := c.pid
      files := c.files
      input }
  (s.setVariable "PWD".toList c.directory).exportVariable "PWD".toList

/-- The program that runs scripts: after `-c` the first operand, else the file that it names, else
its input. -/
def program (launch : Launcher) : Program := fun c =>
  match c.arguments with
  | ['-', 'c'] :: script :: rest =>
    run launch (start c (rest.headD c.name) rest.tail c.input) script
  | ['-', 'c'] :: [] =>
    ((start c c.name [] c.input).complain {} 0 "-c requires an argument".toList 2).outcome
  | [] => run launch (start c c.name [] {}) (Text.decode c.input.bytes)
  | path :: parameters =>
    match c.files.read (Path.join c.directory path) with
    | .ok bytes => run launch (start c path parameters c.input) (Text.decode bytes)
    | .error error =>
      ((start c c.name [] c.input).complain {} 0
        ("cannot open ".toList ++ path ++ ": ".toList ++ State.reason "No such file" error)
        2).outcome

end CommandShell.Program.Script
