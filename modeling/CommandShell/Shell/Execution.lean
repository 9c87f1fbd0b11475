import CommandShell.Line.Quote
import CommandShell.Program.Search
import CommandShell.Shell.Pipeline
import CommandShell.Shell.State

/-!
Running external commands: alone, in the background, or as the stages of a pipeline.

A command name is resolved to a file, whose program is started with all variables in the current
directory. Every stage of a pipeline is started before any of them is fed, and if one cannot be
started none of them runs.
-/
namespace CommandShell

namespace State

def resolveCommand (s : State) (command : Text) : Option Text :=
  Program.resolve s.machine.isFile command s.environment.directory (s.value? "PATH".toList)

/-- Starts the program of a command on unquoted arguments, with all variables and in the current
directory. -/
def begin (s : State) (command : Text) (arguments : List Text) :
    Except ShellError (State × Pid) :=
  match s.resolveCommand command with
  | none => .error (.notRecognized command)
  | some path =>
    match s.machine.spawn
        { path
          arguments := arguments.map Line.unquote
          vars := s.environment.vars.sorted
          directory := s.environment.directory } with
    | .error cause => .error (.notStarted cause)
    | .ok (machine, pid) => .ok ({ s with machine }, pid)

def resultOf (s : State) (pid : Pid) : Result :=
  match s.machine.child? pid with
  | none => Result.ofExit (-1) [] []
  | some c =>
    let code := c.ending?.elim (-1) fun ending => ending.2.code
    Result.ofExit code (Drain.captured (c.stream .output)) (Drain.captured (c.stream .error))

/-- Waits for some processes and answers for the last one. A wait that is cancelled, or would never
end, leaves the processes running. -/
def await (s : State) (pids : List Pid) (last : Pid) (cancelled : Bool) : State × Result :=
  match cancelled, s.machine.lastEnding? pids with
  | false, some time =>
    let s := s.advance time
    (s.settle, s.resultOf last)
  | _, _ => (s, ShellError.cancelled.result)

def execute (s : State) (command : Text) (arguments : List Text) (cancelled : Bool) :
    State × Result :=
  match s.begin command arguments with
  | .error error => (s, error.result)
  | .ok (s, pid) =>
    let s := { s with machine := s.machine.feed pid {} }.supervise pid command .running
    s.await [pid] pid cancelled

def executeBackground (s : State) (command : Text) (arguments : List Text) : State × Result :=
  match s.begin command arguments with
  | .error error => (s, error.result)
  | .ok (s, pid) =>
    let s := { s with machine := s.machine.feed pid {} }.supervise pid command .background
    (s, Result.ok ("[Background job started with PID: ".toList ++ Text.ofNat pid ++ "]\n".toList))

/-- Starts the programs of some stages in order. If one cannot be started, those before it are
killed and waited for, the later ones are not started, and only the machine has changed. -/
def beginAll (s : State) : (started : List Pid) → List Stage →
    Except (State × ShellError) (State × List Pid)
  | started, [] => .ok (s, started)
  | started, stage :: rest =>
    match s.begin stage.command stage.arguments with
    | .ok (s, pid) => s.beginAll (started ++ [pid]) rest
    | .error error =>
      .error ({ s with machine := started.foldl Machine.destroy s.machine }, error)

def superviseAll (s : State) (pids : List Pid) (stages : List Stage) : State :=
  (pids.zip stages).foldl (fun s item => s.supervise item.1 item.2.command .running) s

/-- Runs some stages, each fed with the output of the one before, and waits for all of them. The
first one is fed with `input`. Where the wait is cancelled the pipes are cut at once. -/
def runStages (s : State) (stages : List Stage) (input : Text) (cancelled : Bool) :
    State × Result :=
  if stages.isEmpty then (s, (ShellError.badSyntax .tooFewStages).result)
  else
    match s.beginAll [] stages with
    | .error (s, error) => (s, error.result)
    | .ok (s, pids) =>
      let supply : Supply := if cancelled then {} else { bytes := Text.encode input }
      let machine := (s.machine.feedChain cancelled supply pids).breakPipes pids
      let s := { s with machine }.superviseAll pids stages
      s.await pids (pids.getLastD 0) cancelled

/-- Runs a pipeline, the first stage without input. -/
def runPipeline (s : State) (pipeline : Pipeline) (cancelled : Bool) : State × Result :=
  s.runStages pipeline.stages [] cancelled

end State

end CommandShell
