import CommandShell.Process.Drain
import CommandShell.Process.Registry

/-!
Supervision: one supervisor for each process, from its start until its end has been announced.

A supervisor waits until its process ends by itself or is asked to. In the second case it kills the
process and waits for the end of it. It then records the end in the registry, releases the entry,
and announces the completion if the process was started in the background. These are separate
steps, and other supervisors and requests may come between any two of them. Requests act on the
registry alone; a supervisor learns of one through its token.
-/
namespace CommandShell

/-- How a supervised process ended. -/
structure Exit where
  state : ProcessState
  code : Int
deriving DecidableEq, Repr

/-- How far a supervisor has come. -/
inductive Phase
  | waiting
  /-- It has killed its process on request. -/
  | ending
  | seen (exit : Exit)
  | recorded (exit : Exit)
  | released (exit : Exit)
  | done (exit : Exit)
  /-- It has been broken off, and does nothing any more. -/
  | aborted
deriving DecidableEq, Repr

namespace Phase

/-- How the end of a process with a code counts for a supervisor that still waits for it. -/
def exit? (code : Int) : Phase → Option Exit
  | waiting => some ⟨.exited code, code⟩
  | ending => some ⟨.killed, code⟩
  | _ => none

end Phase

/-- The supervisor of one process. -/
structure Supervisor where
  pid : Pid
  serial : Serial
  token : Token
  placement : Placement
  phase : Phase
deriving DecidableEq, Repr

/-- The registry, the supervisors in the order of their serials, and the events so far. -/
structure Supervision where
  registry : Registry := {}
  nextToken : Token := 0
  supervisors : List Supervisor := []
  events : List Event := []
deriving DecidableEq, Repr

namespace Supervision

def supervisor? (s : Supervision) (serial : Serial) : Option Supervisor :=
  s.supervisors.find? fun t => t.serial == serial

def setPhase (s : Supervision) (serial : Serial) (phase : Phase) : Supervision :=
  { s with
    supervisors := s.supervisors.map fun t => if t.serial = serial then { t with phase } else t }

def start (s : Supervision) (pid : Pid) (name : Text) (placement : Placement) : Supervision :=
  { s with
    registry := s.registry.insert pid name placement s.nextToken
    nextToken := s.nextToken + 1
    supervisors :=
      s.supervisors ++ [⟨pid, s.registry.nextSerial, s.nextToken, placement, .waiting⟩] }

def emitAll (s : Supervision) (events : List Event) : Supervision :=
  { s with events := s.events ++ events }

/-- A supervisor learns of the request to end its process, and kills it. -/
def heed (s : Supervision) (serial : Serial) : Supervision :=
  match s.supervisor? serial with
  | some ⟨_, _, token, _, .waiting⟩ =>
    if s.registry.isCancelled token then s.setPhase serial .ending else s
  | _ => s

/-- A supervisor sees its process end with a code. A wait that fails counts as the code -1. -/
def seeEnd (s : Supervision) (serial : Serial) (code : Int) : Supervision :=
  match (s.supervisor? serial).bind fun t => t.phase.exit? code with
  | some exit => s.setPhase serial (.seen exit)
  | none => s

def record (s : Supervision) (serial : Serial) : Supervision :=
  match s.supervisor? serial with
  | some ⟨pid, _, _, _, .seen exit⟩ =>
    { s with registry := s.registry.finish pid serial exit.state }.setPhase serial (.recorded exit)
  | _ => s

def release (s : Supervision) (serial : Serial) : Supervision :=
  match s.supervisor? serial with
  | some ⟨pid, _, _, _, .recorded exit⟩ =>
    { s with registry := s.registry.remove pid serial }.setPhase serial (.released exit)
  | _ => s

/-- A supervisor announces the completion of a background job, and is done. -/
def announce (s : Supervision) (serial : Serial) : Supervision :=
  match s.supervisor? serial with
  | some ⟨pid, _, _, placement, .released exit⟩ =>
    let s := match placement with
      | .background => s.emitAll [.jobCompleted pid exit.code]
      | .running => s
    s.setPhase serial (.done exit)
  | _ => s

/-- A supervisor that is not done is broken off. -/
def abort (s : Supervision) (serial : Serial) : Supervision :=
  match s.supervisor? serial with
  | none | some ⟨_, _, _, _, .done _⟩ => s
  | some _ => s.setPhase serial .aborted

/-- A supervisor takes all steps after it has seen its process end. -/
def conclude (s : Supervision) (serial : Serial) : Supervision :=
  ((s.record serial).release serial).announce serial

def kill (s : Supervision) (pid : Pid) : Supervision × Bool :=
  let (registry, hit) := s.registry.kill pid
  ({ s with registry }, hit)

def killRunning (s : Supervision) : Supervision × Nat :=
  let (registry, count) := s.registry.killRunning
  ({ s with registry }, count)

def toForeground (s : Supervision) (pid : Pid) : Supervision × Foreground :=
  let (registry, answer) := s.registry.toForeground pid
  ({ s with registry }, answer)

def drain (s : Supervision) : Supervision × Nat :=
  let (registry, count) := s.registry.drain
  ({ s with registry }, count)

end Supervision

end CommandShell
