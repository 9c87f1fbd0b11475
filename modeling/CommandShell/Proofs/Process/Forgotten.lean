import CommandShell.Proofs.Process.Completion

/-!
Processes for which nothing is tracked any more.

A serial is given out once. So an entry that is gone never comes back, whatever is tracked under
its pid later, and what is done with that pid does not reach the old process.
-/
namespace CommandShell

namespace Registry

/-- No entry of either map is that of the process with a serial. -/
def Forgets (r : Registry) (n : Serial) : Prop :=
  ∀ item ∈ r.running ++ r.background, item.2.serial ≠ n

/-- The process of a supervisor cannot be reached through the registry: whatever is listed as a job
or as running is another one, and no kill requests its end. -/
structure OutOfReach (r : Registry) (t : Supervisor) : Prop where
  forgotten : r.Forgets t.serial
  jobs : ∀ job ∈ r.jobs, ∃ entry, r.background.get? job.pid = some entry ∧
    entry.name = job.name ∧ entry.state = job.state ∧ entry.serial ≠ t.serial
  running : ∀ pid ∈ r.runningPids, ∃ entry, r.running.get? pid = some entry ∧
    entry.serial ≠ t.serial
  kill : ∀ pid, t.token ∈ (r.kill pid).1.cancelled → t.token ∈ r.cancelled

variable {r : Registry} (h : r.WellFormed)
include h

theorem forgets_iff (n : Serial) :
    r.Forgets n ↔ ∀ pid x, r.tracked? pid = some x → x.entry.serial ≠ n := by
  constructor
  · rintro gone pid ⟨placement, entry⟩ found
    exact gone (pid, entry) ((mem_maps_iff h pid entry).2 ⟨placement, found⟩)
  · rintro gone ⟨pid, entry⟩ member
    obtain ⟨placement, found⟩ := (mem_maps_iff h pid entry).1 member
    exact gone pid _ found

end Registry

namespace Supervision

section Preservation
variable {s : Supervision} (h : s.Sound) {n : Serial}
include h

theorem forgets_of_allows {r : Registry} (allowed : s.Allows r) (gone : s.registry.Forgets n) :
    r.Forgets n := by
  rw [Registry.forgets_iff h.formed] at gone
  rw [Registry.forgets_iff allowed.formed]
  intro pid x found
  obtain ⟨old, before, kept, -⟩ := allowed.origin pid x found
  exact kept.serial ▸ gone pid old before

theorem forgets_start (pid : Pid) (name : Text) (placement : Placement)
    (given : n < s.registry.nextSerial) (gone : s.registry.Forgets n) :
    (s.start pid name placement).registry.Forgets n := by
  rw [Registry.forgets_iff h.formed] at gone
  refine (Registry.forgets_iff
    (Registry.wellFormed_insert h.formed pid name placement s.nextToken) n).2 fun p x found => ?_
  rw [Registry.tracked?_insert] at found
  split at found
  · cases found
    exact Nat.ne_of_gt given
  · exact gone p x found

theorem forgets_advance {m : Serial} {s' : Supervision} (step : s.Advance m s')
    (gone : s.registry.Forgets n) : s'.registry.Forgets n := by
  have formed := (sound_advance h step).formed
  rw [Registry.forgets_iff h.formed] at gone
  rw [Registry.forgets_iff formed]
  intro pid x found
  obtain ⟨old, before, kept⟩ := origin_advance h step found
  exact kept.serial ▸ gone pid old before

/-- The owner of an entry is the supervisor with its serial. -/
theorem pid_of_tracked {t : Supervisor} (ht : t ∈ s.supervisors) {pid : Pid} {x : Tracked}
    (found : s.registry.tracked? pid = some x) (same : x.entry.serial = t.serial) :
    pid = t.pid ∧ t.Owns x := by
  obtain ⟨u, hu, own, owns, -⟩ := h.owned pid x found
  obtain rfl := h.numbered.eq_of_serial hu ht (owns.serial.symm.trans same)
  exact ⟨own.symm, owns⟩

/-- A supervisor that releases its entry leaves none behind, under whatever pid. -/
theorem forgets_remove {t : Supervisor} (ht : t ∈ s.supervisors) :
    (s.registry.remove t.pid t.serial).Forgets t.serial := by
  rw [Registry.forgets_iff (Registry.wellFormed_remove h.formed t.pid t.serial)]
  intro pid x found same
  rw [Registry.tracked?_remove h.formed, Option.bind_eq_some_iff] at found
  obtain ⟨old, before, kept⟩ := found
  split at kept
  · cases kept
  · next foreign =>
    cases kept
    exact foreign ⟨(pid_of_tracked h ht before same).1, same⟩

theorem outOfReach {t : Supervisor} (ht : t ∈ s.supervisors)
    (gone : s.registry.Forgets t.serial) : s.registry.OutOfReach t := by
  have other := (Registry.forgets_iff h.formed t.serial).1 gone
  refine ⟨gone, fun job member => ?_, fun pid member => ?_, fun pid cancelled => ?_⟩
  · obtain ⟨entry, found, name, state⟩ := (Registry.mem_jobs_iff h.formed job).1 member
    exact ⟨entry, (Registry.tracked?_eq_some_iff h.formed job.pid _).1 found, name.symm,
      state.symm, other job.pid _ found⟩
  · obtain ⟨entry, found⟩ := (Registry.mem_runningPids_iff h.formed pid).1 member
    exact ⟨entry, (Registry.tracked?_eq_some_iff h.formed pid _).1 found, other pid _ found⟩
  · rcases (Registry.mem_cancelled_kill h.formed pid t.token).1 cancelled with
      ⟨x, found, token⟩ | already
    · -- Whoever the kill reaches has a token of its own.
      obtain ⟨u, hu, -, owns, -⟩ := h.owned pid x found
      obtain rfl := h.numbered.eq_of_token hu ht (owns.token.symm.trans token)
      exact absurd owns.serial (other pid x found)
    · exact already

end Preservation

end Supervision

namespace Phase

/-- Whether a supervisor in a phase has released the entry of its process. -/
def isReleased : Phase → Bool
  | released _ | done _ => true
  | _ => false

theorem Next.isReleased {phase phase' : Phase} (next : phase.Next phase')
    (h : phase'.isReleased = true) :
    (∃ exit, phase' = released exit) ∨ phase.isReleased = true := by
  cases next with
  | release exit => exact .inl ⟨exit, rfl⟩
  | announce exit => exact .inr rfl
  | heed | see | record | abort => cases h

end Phase

namespace Supervision

/-- No supervisor that has released its entry has one. -/
def Released (s : Supervision) : Prop :=
  ∀ t ∈ s.supervisors, t.phase.isReleased = true → s.registry.Forgets t.serial

theorem Numbered.serial_lt {s : Supervision} (h : s.Numbered) {t : Supervisor}
    (ht : t ∈ s.supervisors) : t.serial < s.registry.nextSerial := by
  rw [← List.mem_range, ← h.serials]
  exact List.mem_map_of_mem ht

theorem released_advance {s s' : Supervision} (h : s.Sound) (released : s.Released) {n : Serial}
    (step : s.Advance n s') : s'.Released := by
  intro u hu stopped
  have kept {m : Serial} := forgets_advance h (n := m) step
  cases step with
  | stay => exact released u hu stopped
  | @enter t phase found next =>
      have ht := mem_of_supervisor? found
      obtain ⟨v, hv, rfl⟩ := mem_setPhase.1 hu
      by_cases own : v.serial = t.serial
      · obtain rfl := h.numbered.eq_of_serial hv ht own
        rw [if_pos rfl] at stopped ⊢
        rcases next.isReleased stopped with ⟨exit, rfl⟩ | before
        · exact forgets_remove h ht
        · exact kept (released v ht before)
      · rw [if_neg own] at stopped ⊢
        exact kept (released v hv stopped)

end Supervision

namespace World

/-- To the registry, a step is one of a supervisor, a start, or something that is allowed. -/
theorem registry_step {w w' : World} {action : Action} (h : w.Sound) (step : w.Step action w') :
    (∃ n, w.supervision.Advance n w'.supervision) ∨
    (∃ pid name placement, action = .spawn pid name placement ∧
      w'.supervision = w.supervision.start pid name placement) ∨
    w.supervision.Allows w'.registry := by
  have sound := h.supervision
  rcases supervision_step step with ⟨n, -, moved⟩ | started | ⟨actor, unstarted, -⟩
  · exact .inl ⟨n, moved⟩
  · exact .inr (.inl started)
  · refine .inr (.inr ?_)
    cases step with
    | kill pid => exact Supervision.allows_kill sound pid
    | @sweep i pid left count next => exact Supervision.allows_kill sound pid
    | toForeground pid => exact Supervision.allows_toForeground sound pid
    | drain => exact Supervision.allows_drain sound
    | exit | collect | beginSweep | await | answer | abandon => exact Supervision.allows_same sound
    | spawn => exact absurd rfl (unstarted _ _ _)
    | see | fail | heed | record | release | announce | abort => cases actor

/-- What is forgotten stays forgotten. -/
theorem forgets_step {w w' : World} {action : Action} (h : w.Sound) (step : w.Step action w')
    {n : Serial} (given : n < w.registry.nextSerial) (gone : w.registry.Forgets n) :
    w'.registry.Forgets n := by
  have sound := h.supervision
  rcases registry_step h step with ⟨m, moved⟩ | ⟨pid, name, placement, -, started⟩ | allowed
  · exact Supervision.forgets_advance sound moved gone
  · rw [World.registry, started]
    exact Supervision.forgets_start sound pid name placement given gone
  · exact Supervision.forgets_of_allows sound allowed gone

theorem released_step {w w' : World} {action : Action} (h : w.Sound)
    (released : w.supervision.Released) (step : w.Step action w') :
    w'.supervision.Released := by
  have numbered := h.supervision.numbered
  rcases supervision_step step with ⟨n, -, moved⟩ | ⟨pid, name, placement, -, started⟩ |
    ⟨-, -, supervisors, -⟩
  · exact Supervision.released_advance h.supervision released moved
  · intro t ht stopped
    rw [started, Supervision.start, List.mem_append, List.mem_singleton] at ht
    rcases ht with ht | rfl
    · exact forgets_step h step (numbered.serial_lt ht) (released t ht stopped)
    · cases stopped
  · intro t ht stopped
    have before : t ∈ w.supervisors := supervisors ▸ ht
    exact forgets_step h step (numbered.serial_lt before) (released t before stopped)

theorem released_history {past : List Transition} {w : World} (history : History past w) :
    w.supervision.Released := by
  induction history with
  | start => nofun
  | step history step ih => exact released_step (sound_history history) ih step

end World

end CommandShell
