import CommandShell.Builtin.Table
import CommandShell.Line.Command
import CommandShell.Shell.Execution

/-!
Running lines: one line in, one answer out.

The raw text of a line decides how it is run. The first command of a pipeline may be built in, and
then its output feeds the other ones, which are external. Output is redirected only when the command
has succeeded, and an input redirection is read but not carried out. Every error becomes a failed
result.
-/
namespace CommandShell

/-- A shell with its built-in commands. -/
structure Session where
  state : State
  builtins : BuiltinTable := .standard

namespace State

def parse (s : State) (line : Text) : List Line.Command := Line.parse s.value? line

def fail (s : State) (error : ShellError) : State × Answer := (s, .result error.result)

def failSyntax (s : State) (cause : SyntaxError) : State × Answer := s.fail (.badSyntax cause)

/-- Runs a command: a built-in one, or else an external one. -/
def dispatch (t : BuiltinTable) (s : State) (command : Text) (arguments : List Text)
    (cancelled : Bool) : State × Answer :=
  match t.lookup command with
  | some builtin => builtin.invoke arguments s
  | none =>
    let (s, result) := s.execute command arguments cancelled
    (s, .result result)

def targetPath (s : State) (target : Text) : Text :=
  s.environment.resolve (Line.unquote (Line.expand s.value? target))

def deliver (s : State) (target : Text) (append : Bool) (result : Result) : State × Answer :=
  match s.files.write (s.targetPath target) append (Text.encode result.output) with
  | .ok files => (s.withFiles files, .result { result with output := [] })
  | .error ⟨files, cause⟩ => (s.withFiles files).fail (.redirectionFailed cause)

/-- Redirects the output of an answer, if there is a target and the answer is a success. -/
def redirect (target? : Option (Text × Bool)) : State × Answer → State × Answer
  | (s, .result result) =>
    match target? with
    | some (target, append) =>
      if result.success then s.deliver target append result else (s, .result result)
    | none => (s, .result result)
  | other => other

def runSimple (t : BuiltinTable) (s : State) (line : Text) (cancelled : Bool) : State × Answer :=
  match s.parse line with
  | [] => s.failSyntax .noCommand
  | command :: _ => dispatch t s command.name command.arguments cancelled

/-- The first commands of the parts of a line between its spaced pipes; blank parts have none. -/
def pipedCommands (s : State) (line : Text) : List Line.Command :=
  (Text.pieces Line.spacedPipe line).filterMap fun part => (s.parse (Text.trim part)).head?

def stageOf (t : BuiltinTable) (command : Line.Command) : Stage :=
  ⟨command.name, command.arguments, t.contains command.name⟩

/-- Runs the stages of a pipeline. If the first one is built in and fails, nothing else starts. -/
def runStagesWith (t : BuiltinTable) (s : State) (pipeline : Pipeline) (cancelled : Bool) :
    State × Answer × Bool :=
  match pipeline.stages with
  | first :: rest =>
    if first.builtin then
      match dispatch t s first.command first.arguments cancelled with
      | (s, .result head) =>
        if head.success then
          let (s, result) := s.runStages rest head.output cancelled
          (s, .result result, true)
        else (s, .result head, false)
      | (s, answer) => (s, answer, false)
    else
      let (s, result) := s.runPipeline pipeline cancelled
      (s, .result result, true)
  | [] => (s, .result {}, false)

/-- Runs a line with spaced pipes. Its output goes to the target of the last command. -/
def runPiped (t : BuiltinTable) (s : State) (line : Text) (cancelled : Bool) : State × Answer :=
  if Line.hasBackgroundMark line then s.failSyntax .backgroundCombined
  else
    let commands := s.pipedCommands line
    match Pipeline.ofStages (commands.map (stageOf t)) with
    | .error cause => s.failSyntax cause
    | .ok pipeline =>
      let target? := commands.getLast?.bind fun last =>
        last.redirects.output.map fun target => (target, last.redirects.append)
      match runStagesWith t s pipeline cancelled with
      | (s, answer, true) => redirect target? (s, answer)
      | (s, answer, false) => (s, answer)

/-- Runs a line in the background. It must be one external command without redirection. -/
def runBackground (s : State) (line : Text) : State × Answer :=
  match s.parse line with
  | [] => s.failSyntax .noCommand
  | [command] =>
    if command.redirects.output.isSome || command.redirects.input.isSome then
      s.failSyntax .backgroundCombined
    else
      let (s, result) := s.executeBackground command.name command.arguments
      (s, .result result)
  | _ => s.failSyntax .backgroundCombined

def runRedirected (t : BuiltinTable) (s : State) (line : Text) (cancelled : Bool) :
    State × Answer :=
  match Line.redirection line with
  | .error cause => s.failSyntax (.badRedirection cause)
  | .ok redirection =>
    match s.parse redirection.command with
    | [] => s.failSyntax .noCommand
    | command :: _ =>
      let target? := match redirection.direction with
        | .input => none
        | .append => some (redirection.target, true)
        | .output => some (redirection.target, false)
      redirect target? (dispatch t s command.name command.arguments cancelled)

def runKind (t : BuiltinTable) (s : State) (line : Text) (cancelled : Bool) : State × Answer :=
  match Line.kind line with
  | .pipeline => runPiped t s line cancelled
  | .background command => s.runBackground command
  | .redirection => runRedirected t s line cancelled
  | .simple => runSimple t s line cancelled

def timed (start : Nat) : State × Answer → State × Answer
  | (s, .result result) => (s, .result (result.withElapsed (s.machine.clock - start)))
  | other => other

/-- Runs a line. A blank line does nothing at all; any other one enters the history first. -/
def runLine (t : BuiltinTable) (s : State) (line : Text) (cancelled : Bool) : State × Answer :=
  if Text.allBlank line then (s, .result {})
  else
    let recorded := s.withEnvironment (s.environment.addHistory line)
    timed s.machine.clock (runKind t recorded line cancelled)

end State

namespace Session

/-- A session at its start, with the built-in commands of every shell. -/
def start (config : Config) (inherited : List (Text × Text)) (machine : Machine) : Session :=
  { state := State.start config inherited machine }

def withState (s : Session) (state : State) : Session := { s with state }

/-- Runs a line, and then lets the supervisors see what has ended. -/
def execute (s : Session) (line : Text) (cancelled : Bool) : Session × Answer :=
  let (state, answer) := State.runLine s.builtins s.state line cancelled
  (s.withState state.settle, answer)

def register (s : Session) (builtin : Builtin) : Session :=
  { s with builtins := s.builtins.register builtin }

/-- Whether a name is that of a built-in command. -/
def isBuiltin (s : Session) (name : Text) : Bool := s.builtins.contains name

end Session

end CommandShell
