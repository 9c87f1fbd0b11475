import CommandShell.Builtin.Basic
import CommandShell.Shell.Jobs

/-!
Built-in commands on processes: listing jobs, moving them, and ending processes.
-/
namespace CommandShell.Builtin

/-- What the list of jobs says of a state. Jobs that were killed are no longer listed. -/
def stateLabel : ProcessState → Text
  | .running => "Running".toList
  | .exited _ | .killed => "Completed".toList

def jobRow (pid name state : Text) : Text :=
  Text.line (Text.unwords [Text.padRight 10 pid, Text.padRight 30 name, state])

def jobTable (jobs : List Job) : Text :=
  "\n=== Background Jobs ===\n\n".toList ++
    jobRow "PID".toList "Process Name".toList "Status".toList ++
    Text.line (List.replicate 60 '-') ++
    jobs.flatMap fun job => jobRow (Text.ofNat job.pid) job.name (stateLabel job.state)

def jobs (name : Text) : Builtin :=
  ofSignature name "List background jobs" "list background jobs." Signature.none fun _ s =>
    say s (if s.jobs.isEmpty then "No background jobs running.\n".toList else jobTable s.jobs)

def fg (name : Text) : Builtin :=
  ofSignature name "Bring background job to foreground"
    "bring a background job to the foreground."
    (Signature.one (.pid "process id of the job.")) fun pid s =>
      let (s, result) := s.toForeground pid
      reply s (Result.ofExit result.code result.output result.error)

def bg (name : Text) : Builtin :=
  ofSignature name "Report a background job"
    "report on a background job; jobs cannot be stopped, so there is nothing to resume."
    (Signature.one (.pid "process id of the job.")) fun pid s =>
      if s.isBackground pid then
        say s ("Job ".toList ++ Text.ofNat pid ++ " is already running in background.\n".toList)
      else refuse s (State.noJob pid)

/-- What became of a word that should name a process to end. -/
inductive KillOutcome
  | killed (pid : Pid)
  | noProcess (pid : Pid)
  | notPid (word : Text)
deriving DecidableEq, Repr

namespace KillOutcome

def killed? : KillOutcome → Option Pid
  | killed pid => some pid
  | noProcess _ | notPid _ => none

/-- Why a word led to no kill. -/
def reason? : KillOutcome → Option Text
  | killed _ => none
  | noProcess pid => some ("PID ".toList ++ Text.ofNat pid ++ ": no such process".toList)
  | notPid word => some ("Invalid PID: ".toList ++ word)

end KillOutcome

/-- Ends the processes that some words name, one after the other. -/
def killEach (s : State) : List Text → State × List KillOutcome
  | [] => (s, [])
  | word :: rest =>
    match Text.readNat 4294967295 word with
    | .error _ =>
      let (s, outcomes) := killEach s rest
      (s, .notPid word :: outcomes)
    | .ok pid =>
      let (s, hit) := s.kill pid
      let (s, outcomes) := killEach s rest
      (s, (if hit then .killed pid else .noProcess pid) :: outcomes)

def killReport (outcomes : List KillOutcome) : Result :=
  let killed := outcomes.filterMap KillOutcome.killed?
  let reasons := outcomes.filterMap KillOutcome.reason?
  let output :=
    if killed.isEmpty then []
    else
      Text.line ("Successfully killed ".toList ++ Text.ofNat killed.length ++
        " process(es): ".toList ++ List.intercalate ", ".toList (killed.map Text.ofNat))
  if reasons.isEmpty then Result.ok output
  else
    Result.ofExit 1 output
      (Text.line ("Failed to kill ".toList ++ Text.ofNat reasons.length ++
        " process(es):".toList) ++
        reasons.flatMap fun reason => Text.line ("  - ".toList ++ reason))

/-- The answer to a kill without operands. -/
def killUsage : Text :=
  "Usage: kill <PID> [PID2] [PID3] ...\nTerminate one or more processes.".toList

def kill (name : Text) : Builtin :=
  ofSignature name "Terminate processes by PID" "terminate one or more processes."
    (Signature.many "pids") fun words s =>
      if words.isEmpty then refuse s killUsage
      else
        let (s, outcomes) := killEach s words
        reply s (killReport outcomes)

end CommandShell.Builtin
