import CommandShell.Proofs.Process.Supervisors

/-!
Supervision among everything that may happen at the same time.

A step is taken by the operating system, by one supervisor, or by one caller, and any of them may
come next. A pid is given to a new process only when nobody has to be waited for under it any more.
A call that kills the foreground reads the pids first and then kills them one by one; a call that
waits may be abandoned, which changes nothing else.
-/
namespace CommandShell

/-- What the operating system holds under a pid. -/
inductive Slot
  | free
  | alive
  /-- It has ended, and nobody has waited for it yet. -/
  | ended (code : Int)
deriving DecidableEq, Repr

/-- A call that kills the foreground: the pids it still has to kill of those it has read, and how
many it has found tracked. -/
structure Sweep where
  left : List Pid
  count : Nat := 0
deriving DecidableEq, Repr

/-- The supervision of some processes with all that goes on around it. -/
structure World where
  supervision : Supervision := {}
  slots : Pid → Slot := fun _ => .free
  sweeps : List Sweep := []
  /-- The calls that wait, each with the serials of the processes it waits for. -/
  waits : List (List Serial) := []

/-- One step of someone. -/
inductive Action
  | spawn (pid : Pid) (name : Text) (placement : Placement)
  | exit (pid : Pid) (code : Int)
  /-- A process that no supervisor waits for is waited for after all. -/
  | collect (pid : Pid)
  | see (serial : Serial)
  | fail (serial : Serial)
  | heed (serial : Serial)
  | record (serial : Serial)
  | release (serial : Serial)
  | announce (serial : Serial)
  | abort (serial : Serial)
  | kill (pid : Pid)
  | toForeground (pid : Pid)
  | drain
  | beginSweep
  | sweep (index : Nat)
  | await (serials : List Serial)
  | answer (index : Nat)
  | abandon (index : Nat)
deriving DecidableEq, Repr

/-- The supervisor that takes an action. -/
def Action.actor? : Action → Option Serial
  | see n | fail n | heed n | record n | release n | announce n | abort n => some n
  | _ => none

namespace World

/-- The registry of a world. -/
abbrev registry (w : World) : Registry := w.supervision.registry

/-- All supervisors that have been started. -/
abbrev supervisors (w : World) : List Supervisor := w.supervision.supervisors

/-- The world with something else under a pid. -/
def withSlot (w : World) (pid : Pid) (slot : Slot) : World :=
  { w with slots := fun p => if p = pid then slot else w.slots p }

/-- The world with another supervision. -/
def withSupervision (w : World) (supervision : Supervision) : World := { w with supervision }

/-- What may happen in a world, and what it leads to. -/
inductive Step : World → Action → World → Prop
  | spawn {w} (pid name placement) : w.slots pid = .free →
      Step w (.spawn pid name placement)
        ((w.withSlot pid .alive).withSupervision (w.supervision.start pid name placement))
  | exit {w} (pid code) : w.slots pid = .alive →
      Step w (.exit pid code) (w.withSlot pid (.ended code))
  | collect {w pid code} : w.slots pid = .ended code →
      (∀ t ∈ w.supervisors, t.pid = pid → t.phase.waits = false) →
      Step w (.collect pid) (w.withSlot pid .free)
  | see {w n t code} : w.supervision.supervisor? n = some t → t.phase.waits = true →
      w.slots t.pid = .ended code →
      Step w (.see n) ((w.withSlot t.pid .free).withSupervision (w.supervision.seeEnd n code))
  | fail (w n) : Step w (.fail n) (w.withSupervision (w.supervision.seeEnd n (-1)))
  | heed (w n) : Step w (.heed n) (w.withSupervision (w.supervision.heed n))
  | record (w n) : Step w (.record n) (w.withSupervision (w.supervision.record n))
  | release (w n) : Step w (.release n) (w.withSupervision (w.supervision.release n))
  | announce (w n) : Step w (.announce n) (w.withSupervision (w.supervision.announce n))
  | abort (w n) : Step w (.abort n) (w.withSupervision (w.supervision.abort n))
  | kill (w pid) : Step w (.kill pid) (w.withSupervision (w.supervision.kill pid).1)
  | toForeground (w pid) :
      Step w (.toForeground pid) (w.withSupervision (w.supervision.toForeground pid).1)
  | drain (w) : Step w .drain (w.withSupervision w.supervision.drain.1)
  | beginSweep (w) :
      Step w .beginSweep { w with sweeps := w.sweeps ++ [{ left := w.registry.runningPids }] }
  | sweep {w i pid left count} : w.sweeps[i]? = some ⟨pid :: left, count⟩ →
      Step w (.sweep i)
        { w.withSupervision (w.supervision.kill pid).1 with
          sweeps := w.sweeps.set i
            ⟨left, if (w.supervision.kill pid).2 then count + 1 else count⟩ }
  | await (w serials) : Step w (.await serials) { w with waits := w.waits ++ [serials] }
  | answer {w i serials} : w.waits[i]? = some serials →
      (∀ t ∈ w.supervisors, t.serial ∈ serials → t.phase.isOver = true) →
      Step w (.answer i) { w with waits := w.waits.eraseIdx i }
  | abandon (w i) : Step w (.abandon i) { w with waits := w.waits.eraseIdx i }

end World

/-- A step that has been taken. -/
structure Transition where
  before : World
  action : Action
  after : World

/-- The steps from a world in which nothing has been started, in order, and where they lead. -/
inductive History : List Transition → World → Prop
  | start : History [] {}
  | step {past w action w'} : History past w → w.Step action w' →
      History (past ++ [⟨w, action, w'⟩]) w'

end CommandShell
