import CommandShell.Machine.Basic
import CommandShell.Process.Supervision
import CommandShell.Shell.Prompt

/-!
The state of a running shell: its environment, the machine it runs on, and the supervision of the
processes it has started.

`settle` lets every supervisor whose process has ended, or whose end has been requested, take all
its steps. It runs between commands; while a command runs, its requests are only noted.
-/
namespace CommandShell

/-- The state of a running shell. -/
structure State where
  config : Config
  environment : Environment
  machine : Machine
  supervision : Supervision := {}
deriving DecidableEq, Repr

namespace State

def start (config : Config) (inherited : List (Text × Text)) (machine : Machine) : State where
  config
  environment :=
    Environment.start config inherited
      (match machine.files.canonical machine.directory with
        | .ok directory => directory
        | .error _ => machine.directory)
      machine.host
  machine

def value? (s : State) (name : Text) : Option Text := s.environment.get? name

def files (s : State) : Files := s.machine.files

/-- The state with other files. -/
def withFiles (s : State) (files : Files) : State := { s with machine := { s.machine with files } }

def withEnvironment (s : State) (environment : Environment) : State := { s with environment }

def now (s : State) : Moment := Moment.ofSeconds (s.files.now + s.machine.clock / 1000)

def prompt (s : State) : Text := s.environment.prompt s.now

/-- The events of the lines that a process has written. What goes to another process causes none. -/
def lineEvents (c : Child) : List Event :=
  let output := if c.piped then [] else Drain.lines (c.stream .output)
  output.map (Event.outputLine c.pid) ++
    (Drain.lines (c.stream .error)).map (Event.errorLine c.pid)

/-- The supervisor of an ended process takes all its steps, and the process leaves the table. -/
def conclude (s : State) (serial : Serial) (c : Child) (seen : Supervision) : State :=
  { s with
    machine := s.machine.reap c.pid
    supervision := (seen.emitAll (lineEvents c)).conclude serial }

def settleOne (s : State) (supervisor : Supervisor) : State :=
  if supervisor.phase != .waiting then s
  else if s.supervision.registry.isCancelled supervisor.token then
    let s := { s with machine := (s.machine.kill supervisor.pid).1 }
    match s.machine.child? supervisor.pid, s.machine.status? supervisor.pid with
    | some c, some status =>
      s.conclude supervisor.serial c
        ((s.supervision.heed supervisor.serial).seeEnd supervisor.serial status.code)
    | _, _ => s
  else
    match s.machine.child? supervisor.pid, s.machine.status? supervisor.pid with
    | some c, some status =>
      s.conclude supervisor.serial c (s.supervision.seeEnd supervisor.serial status.code)
    | _, _ => s

def settle (s : State) : State := s.supervision.supervisors.foldl settleOne s

/-- Lets time pass until `time`. -/
def advance (s : State) (time : Nat) : State := { s with machine := s.machine.advance time }

def supervise (s : State) (pid : Pid) (name : Text) (placement : Placement) : State :=
  { s with supervision := s.supervision.start pid name placement }

end State

end CommandShell
