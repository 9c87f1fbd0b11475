import CommandShell.Proofs.Process.Supervisors
import CommandShell.Shell.Execution

/-!
How many supervisors there are. Only starting a process adds one and nothing takes one away, so a
command that leaves their number as it was has started nothing.
-/
namespace CommandShell

theorem Supervision.length_advance {s s' : Supervision} {n : Serial} (step : s.Advance n s') :
    s'.supervisors.length = s.supervisors.length := by
  cases step with
  | stay => rfl
  | enter found next => exact List.length_map _

namespace State

/-- The number of processes that have been started. -/
def startedCount (s : State) : Nat := s.supervision.supervisors.length

theorem startedCount_conclude (s : State) (serial : Serial) (c : Child) (seen : Supervision) :
    (s.conclude serial c seen).startedCount = seen.supervisors.length := by
  rw [startedCount, conclude, Supervision.conclude,
    Supervision.length_advance (Supervision.advance_announce _ serial),
    Supervision.length_advance (Supervision.advance_release _ serial),
    Supervision.length_advance (Supervision.advance_record _ serial)]
  rfl

theorem startedCount_settleOne (s : State) (t : Supervisor) :
    (s.settleOne t).startedCount = s.startedCount := by
  have sees (s : Supervision) (n : Serial) (code : Int) :=
    Supervision.length_advance (Supervision.advance_seeEnd s n code)
  have heeds (s : Supervision) (n : Serial) :=
    Supervision.length_advance (Supervision.advance_heed s n)
  unfold settleOne
  split
  · rfl
  · split
    · dsimp only
      split
      · rw [startedCount_conclude, sees, heeds]
        rfl
      · rfl
    · split
      · rw [startedCount_conclude, sees]
        rfl
      · rfl

theorem startedCount_settle (s : State) : s.settle.startedCount = s.startedCount := by
  have all (supervisors : List Supervisor) (s : State) :
      (supervisors.foldl settleOne s).startedCount = s.startedCount := by
    induction supervisors generalizing s with
    | nil => rfl
    | cons t rest ih => exact (ih _).trans (startedCount_settleOne s t)
  exact all _ s

theorem supervision_begin {s s' : State} {command : Text} {arguments : List Text} {pid : Pid}
    (h : s.begin command arguments = .ok (s', pid)) : s'.supervision = s.supervision := by
  unfold begin at h
  split at h
  · cases h
  · split at h <;> cases h
    rfl

theorem beginAll_ok {s s' : State} {started pids : List Pid} {stages : List Stage}
    (h : s.beginAll started stages = .ok (s', pids)) :
    s'.supervision = s.supervision ∧ pids.length = started.length + stages.length := by
  induction stages generalizing s started with
  | nil =>
      cases h
      exact ⟨rfl, rfl⟩
  | cons stage rest ih =>
      rw [beginAll] at h
      split at h
      · next next pid began =>
        obtain ⟨same, length⟩ := ih h
        refine ⟨same.trans (supervision_begin began), ?_⟩
        rw [length, List.length_append, List.length_singleton, List.length_cons]
        omega
      · cases h

theorem startedCount_superviseAll (s : State) (pids : List Pid) (stages : List Stage) :
    (s.superviseAll pids stages).startedCount = s.startedCount + (pids.zip stages).length := by
  have all (items : List (Pid × Stage)) (s : State) :
      (items.foldl (fun s item => s.supervise item.1 item.2.command .running) s).startedCount =
        s.startedCount + items.length := by
    induction items generalizing s with
    | nil => rfl
    | cons item rest ih =>
        rw [List.foldl_cons, ih]
        simp [startedCount, supervise, Supervision.start]
        omega
  exact all _ s

theorem startedCount_await (s : State) (pids : List Pid) (last : Pid) (cancelled : Bool) :
    (s.await pids last cancelled).1.startedCount = s.startedCount := by
  unfold await
  split
  · exact startedCount_settle _
  · rfl

/-- Stages that have run with success have all been started. -/
theorem startedCount_runStages {s : State} {stages : List Stage} {input : Text} {cancelled : Bool}
    (h : (s.runStages stages input cancelled).2.success = true) :
    stages ≠ [] ∧
      (s.runStages stages input cancelled).1.startedCount = s.startedCount + stages.length := by
  unfold runStages at h ⊢
  split at h
  · cases h
  · next nonempty =>
    rw [if_neg nonempty]
    split at h
    · cases h
    · next began pids ok =>
      obtain ⟨same, length⟩ := beginAll_ok ok
      refine ⟨by simpa using nonempty, ?_⟩
      dsimp only
      rw [startedCount_await, startedCount_superviseAll, List.length_zip, length]
      simp [startedCount, same]

end State

end CommandShell
