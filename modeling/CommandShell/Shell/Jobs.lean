import CommandShell.Shell.Result
import CommandShell.Shell.State

/-!
Jobs: ending tracked processes, moving them to the foreground, and waiting for them.
-/
namespace CommandShell.State

/-- Requests the end of a process: a tracked one, or else any process of the machine. -/
def kill (s : State) (pid : Pid) : State × Bool :=
  match s.supervision.kill pid with
  | (supervision, true) => ({ s with supervision }, true)
  | (_, false) =>
    let (machine, hit) := s.machine.killAny pid
    ({ s with machine }, hit)

def killRunning (s : State) : State × Nat :=
  let (supervision, count) := s.supervision.killRunning
  ({ s with supervision }, count)

/-- The answer for a pid that is no background job. -/
def noJob (pid : Pid) : Text := "No background job found with PID: ".toList ++ Text.ofNat pid

def toForeground (s : State) (pid : Pid) : State × Result :=
  let (supervision, answer) := s.supervision.toForeground pid
  let result := match answer with
    | .moved name =>
      Result.ok ('[' :: Text.ofNat pid ++ "] ".toList ++ name ++ " moved to foreground\n".toList)
    | .alreadyExited code =>
      Result.ok ("Job ".toList ++ Text.ofNat pid ++
        " has already completed with exit code: ".toList ++ Text.ofInt code ++ ['\n'])
    | .notFound => Result.failure (noJob pid) 1
  ({ s with supervision }, result)

def jobs (s : State) : List Job := s.supervision.registry.jobs

def runningPids (s : State) : List Pid := s.supervision.registry.runningPids

/-- Whether a pid is that of a background job. -/
def isBackground (s : State) (pid : Pid) : Bool := s.supervision.registry.contains pid .background

/-- Ends a shell: the end of every tracked process is requested and seen. -/
def shutdown (s : State) : State :=
  let (supervision, _) := s.supervision.drain
  settle { s with supervision }

/-- The code that a job completed with, if it has. -/
def completion? (s : State) (pid : Pid) : Option Int :=
  s.supervision.events.findSome? fun
    | .jobCompleted p code => if p = pid then some code else none
    | _ => none

/-- Waits at most `patience` milliseconds for a job to complete. -/
def awaitCompletion (s : State) (pid : Pid) (patience : Nat) : State × Option Int :=
  let s := s.settle
  match s.completion? pid with
  | some code => (s, some code)
  | none =>
    let limit := s.machine.clock + patience
    let time := match (s.machine.child? pid).bind Child.ending? with
      | some (time, _) => min time limit
      | none => limit
    let s := (s.advance time).settle
    (s, s.completion? pid)

end CommandShell.State
