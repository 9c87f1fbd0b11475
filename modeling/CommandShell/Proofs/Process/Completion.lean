import CommandShell.Proofs.Process.Tracking

/-!
Completion events, from the start of a process to the end of its supervisor.

A supervisor carries in its phase what it has announced, so what all steps of a history have added
to the events in its name can be read off the last world. What is answered when an exited job is
moved to the foreground is what its supervisor has seen, and no later step changes that.
-/
namespace CommandShell

namespace Transition

/-- The events that a step has added. -/
def emitted (step : Transition) : List Event :=
  step.after.supervision.events.drop step.before.supervision.events.length

end Transition

/-- The events that a supervisor has added in a history. -/
def emittedBy (n : Serial) (past : List Transition) : List Event :=
  (past.filter fun step => step.action.actor? = some n).flatMap Transition.emitted

theorem emittedBy_append (n : Serial) (past : List Transition) (step : Transition) :
    emittedBy n (past ++ [step]) =
      emittedBy n past ++ if step.action.actor? = some n then step.emitted else [] := by
  by_cases own : step.action.actor? = some n <;> simp [emittedBy, own]

namespace Supervision

/-- The events that the supervisor with a serial has announced, if there is one. -/
def announced (s : Supervision) (n : Serial) : List Event :=
  (s.supervisor? n).elim [] Supervisor.announced

theorem supervisor?_setPhase (s : Supervision) (n m : Serial) (phase : Phase) :
    (s.setPhase n phase).supervisor? m =
      (s.supervisor? m).map fun t => if t.serial = n then { t with phase } else t := by
  have serials : (fun t : Supervisor => t.serial == m) ∘
      (fun t => if t.serial = n then { t with phase } else t) = fun t => t.serial == m := by
    funext t
    simp only [Function.comp_apply]
    split <;> rfl
  simp only [supervisor?, setPhase, List.find?_map, serials]

theorem announced_of_not_done {t : Supervisor} (h : ∀ exit, t.phase ≠ .done exit) :
    t.announced = [] := by
  unfold Supervisor.announced
  split
  · next exit _ done => exact absurd done (h exit)
  · rfl

/-- What a step of a supervisor adds to the events is what that supervisor has announced then and
had not before. -/
theorem announced_advance {s s' : Supervision} {n : Serial} (step : s.Advance n s') :
    ∃ emitted, s'.events = s.events ++ emitted ∧
      ∀ m, s'.announced m = s.announced m ++ if n = m then emitted else [] := by
  cases step with
  | stay => exact ⟨[], by simp⟩
  | @enter t phase found next =>
      have serial := serial_of_supervisor? found
      refine ⟨_, rfl, fun m => ?_⟩
      have after : (s.enter t phase).supervisor? m =
          (s.supervisor? m).map fun t => if t.serial = n then { t with phase } else t :=
        serial ▸ supervisor?_setPhase _ t.serial m phase
      simp only [announced, after]
      by_cases own : n = m
      · -- Before the step it had announced nothing, since no phase comes after the last one.
        subst own
        simp [found, serial, announced_of_not_done next.not_done]
      · cases other : s.supervisor? m with
        | none => simp [own]
        | some u =>
            have serial' := serial_of_supervisor? other
            simp [own, serial', Ne.symm own]

theorem announced_start (s : Supervision) (pid : Pid) (name : Text) (placement : Placement)
    (m : Serial) : (s.start pid name placement).announced m = s.announced m := by
  simp only [announced, supervisor?, start, List.find?_append]
  cases s.supervisors.find? fun t => t.serial == m with
  | some t => rfl
  | none =>
      by_cases own : s.registry.nextSerial = m <;> simp [own, Supervisor.announced]

end Supervision

namespace World

/-- To the supervisors and the events, a step is one of a supervisor, a start, or nothing. -/
theorem supervision_step {w w' : World} {action : Action} (step : w.Step action w') :
    (∃ n, action.actor? = some n ∧ w.supervision.Advance n w'.supervision) ∨
    (∃ pid name placement, action = .spawn pid name placement ∧
      w'.supervision = w.supervision.start pid name placement) ∨
    (action.actor? = none ∧ (∀ pid name placement, action ≠ .spawn pid name placement) ∧
      w'.supervisors = w.supervisors ∧ w'.supervision.events = w.supervision.events) := by
  cases step with
  | see found waits ended => exact .inl ⟨_, rfl, Supervision.advance_seeEnd _ _ _⟩
  | fail n => exact .inl ⟨n, rfl, Supervision.advance_seeEnd _ n _⟩
  | heed n => exact .inl ⟨n, rfl, Supervision.advance_heed _ n⟩
  | record n => exact .inl ⟨n, rfl, Supervision.advance_record _ n⟩
  | release n => exact .inl ⟨n, rfl, Supervision.advance_release _ n⟩
  | announce n => exact .inl ⟨n, rfl, Supervision.advance_announce _ n⟩
  | abort n => exact .inl ⟨n, rfl, Supervision.advance_abort _ n⟩
  | spawn pid name placement free => exact .inr (.inl ⟨pid, name, placement, rfl, rfl⟩)
  | exit | collect | kill | toForeground | drain | beginSweep | sweep | await | answer | abandon =>
      exact .inr (.inr ⟨rfl, nofun, rfl, rfl⟩)

/-- A step adds events for the supervisor that takes it alone. -/
theorem announced_step {w w' : World} {action : Action} (step : w.Step action w') :
    ∃ emitted, w'.supervision.events = w.supervision.events ++ emitted ∧
      (action.actor? = none → emitted = []) ∧
      ∀ m, w'.supervision.announced m =
        w.supervision.announced m ++ if action.actor? = some m then emitted else [] := by
  rcases supervision_step step with ⟨n, actor, moved⟩ | ⟨pid, name, placement, rfl, started⟩ |
    ⟨actor, -, supervisors, events⟩
  · obtain ⟨emitted, events, announced⟩ := Supervision.announced_advance moved
    exact ⟨emitted, events, by simp [actor], by simpa [actor] using announced⟩
  · refine ⟨[], ?_, fun _ => rfl, fun m => ?_⟩
    · rw [started, List.append_nil]
      rfl
    · rw [started, Supervision.announced_start]
      simp
  · refine ⟨[], by rw [events, List.append_nil], fun _ => rfl, fun m => ?_⟩
    rw [Supervision.announced, Supervision.supervisor?,
      show w'.supervision.supervisors = w.supervision.supervisors from supervisors]
    simp [Supervision.announced, Supervision.supervisor?]

/-- A supervisor is there after every step, with what it knows. -/
theorem becomes_step {w w' : World} {action : Action} (h : w.Sound) (step : w.Step action w')
    {t : Supervisor} (started : t ∈ w.supervisors) : ∃ u ∈ w'.supervisors, t.Becomes u := by
  rcases supervision_step step with ⟨n, -, moved⟩ | ⟨pid, name, placement, -, start⟩ |
    ⟨-, -, supervisors, -⟩
  · obtain ⟨f, supervisors, becomes⟩ := h.supervision.numbered.supervisors_advance moved
    refine ⟨f t, ?_, becomes t started⟩
    rw [World.supervisors, supervisors]
    exact List.mem_map_of_mem started
  · refine ⟨t, ?_, .refl t⟩
    rw [World.supervisors, start]
    exact List.mem_append_left _ started
  · exact ⟨t, supervisors ▸ started, .refl t⟩

/-- The job under a pid is that of a supervisor, which has seen it end with a code. -/
structure Reported (w : World) (pid : Pid) (code : Int) (t : Supervisor) : Prop where
  own : t.pid = pid
  placement : t.placement = .background
  reports : t.phase.Reports code
  tracked : ∃ entry, w.registry.background.get? pid = some entry ∧ entry.serial = t.serial

theorem Reported.becomes {w : World} {pid : Pid} {code : Int} {t u : Supervisor}
    (h : w.Reported pid code t) (step : t.Becomes u) : w.Reported pid code u := by
  obtain ⟨entry, found, serial⟩ := h.tracked
  exact ⟨step.pid.trans h.own, step.placement.trans h.placement, step.reports h.reports,
    entry, found, serial.trans step.serial.symm⟩

theorem reported_of_alreadyExited {w : World} (h : w.Sound) {pid : Pid} {code : Int}
    (answer : (w.supervision.toForeground pid).2 = .alreadyExited code) :
    ∃ t ∈ w.supervisors, w.Reported pid code t := by
  have formed := h.supervision.formed
  have answered := (Registry.answer_toForeground formed pid).symm.trans answer
  cases found : w.registry.tracked? pid with
  | none => simp [found] at answered
  | some x =>
      obtain ⟨placement, entry⟩ := x
      obtain ⟨t, ht, same, owns, reports⟩ := h.supervision.owned pid _ found
      have place := (Registry.tracked?_eq_some_iff formed pid _).1 found
      rw [found] at answered
      cases placement with
      | running => cases answered
      | background =>
          refine ⟨t, ht, same, owns.placement rfl, reports code ?_, entry, place, owns.serial⟩
          simp only [Option.elim, Tracked.foregroundAnswer] at answered
          split at answered <;> cases answered
          assumption

end World

/-- The last world of a history says what its steps have added, begun and answered. -/
structure Accounted (past : List Transition) (w : World) : Prop where
  events : w.supervision.events = past.flatMap Transition.emitted
  actors : ∀ step ∈ past, step.action.actor? = none → step.emitted = []
  announced : ∀ n, emittedBy n past = w.supervision.announced n
  begun : ∀ step ∈ past, ∀ pid name placement, step.action = .spawn pid name placement →
    ∃ t ∈ w.supervisors,
      t.pid = pid ∧ t.placement = placement ∧ t.serial = step.before.registry.nextSerial
  answered : ∀ step ∈ past, ∀ pid code, step.action = .toForeground pid →
    (step.before.supervision.toForeground pid).2 = .alreadyExited code →
    ∃ t ∈ w.supervisors, step.before.Reported pid code t

theorem accounted_start : Accounted [] {} := ⟨rfl, nofun, fun _ => rfl, nofun, nofun⟩

theorem accounted_step {past : List Transition} {w w' : World} {action : Action} (sound : w.Sound)
    (h : Accounted past w) (step : w.Step action w') :
    Accounted (past ++ [⟨w, action, w'⟩]) w' := by
  obtain ⟨emitted, events, silent, announced⟩ := World.announced_step step
  have added : Transition.emitted ⟨w, action, w'⟩ = emitted := by
    rw [Transition.emitted, events, List.drop_left]
  constructor
  · rw [List.flatMap_append, ← h.events, events, List.flatMap_singleton, added]
  · simp only [List.mem_append, List.mem_singleton]
    rintro s (old | rfl) actor
    · exact h.actors s old actor
    · exact added.trans (silent actor)
  · intro n
    rw [emittedBy_append, h.announced, announced, added]
  · simp only [List.mem_append, List.mem_singleton]
    rintro s (old | rfl) pid name placement spawned
    · obtain ⟨t, ht, rfl, rfl, serial⟩ := h.begun s old pid name placement spawned
      obtain ⟨u, hu, becomes⟩ := World.becomes_step sound step ht
      exact ⟨u, hu, becomes.pid, becomes.placement, becomes.serial.trans serial⟩
    · cases spawned
      cases step with
      | spawn _ _ _ free =>
          exact ⟨_, List.mem_append_right _ (List.mem_singleton_self _), rfl, rfl, rfl⟩
  · simp only [List.mem_append, List.mem_singleton]
    rintro s (old | rfl) pid code moved answer
    · obtain ⟨t, ht, reported⟩ := h.answered s old pid code moved answer
      obtain ⟨u, hu, becomes⟩ := World.becomes_step sound step ht
      exact ⟨u, hu, reported.becomes becomes⟩
    · obtain ⟨t, ht, reported⟩ := World.reported_of_alreadyExited sound answer
      obtain ⟨u, hu, becomes⟩ := World.becomes_step sound step ht
      exact ⟨u, hu, reported.becomes becomes⟩

theorem accounted_history {past : List Transition} {w : World} (history : History past w) :
    Accounted past w := by
  induction history with
  | start => exact accounted_start
  | step history step ih => exact accounted_step (World.sound_history history) ih step

/-- In every history: whoever is started has a supervisor; one in the foreground announces nothing;
one in the background announces at most once, and once exactly when its supervisor is done; a code
that was answered for it is the code that it announces; and there are no other events. -/
theorem completions_of_history {past : List Transition} {w : World} (history : History past w) :
    (∀ step ∈ past, ∀ pid name placement, step.action = .spawn pid name placement →
      ∃ t ∈ w.supervisors,
        t.pid = pid ∧ t.placement = placement ∧ t.serial = step.before.registry.nextSerial) ∧
    (∀ t ∈ w.supervisors, t.placement = .running → emittedBy t.serial past = []) ∧
    (∀ t ∈ w.supervisors, t.placement = .background →
      (emittedBy t.serial past).length ≤ 1 ∧
      ∀ exit, t.phase = .done exit → emittedBy t.serial past = [.jobCompleted t.pid exit.code]) ∧
    (∀ step ∈ past, ∀ pid code, step.action = .toForeground pid →
      (step.before.supervision.toForeground pid).2 = .alreadyExited code →
      ∃ t ∈ w.supervisors, t.pid = pid ∧ t.placement = .background ∧
        (∃ entry, step.before.registry.background.get? pid = some entry ∧
          entry.serial = t.serial) ∧
        ∀ event ∈ emittedBy t.serial past, event = .jobCompleted pid code) ∧
    (w.supervision.events = past.flatMap Transition.emitted ∧
      ∀ step ∈ past, step.emitted ≠ [] →
        ∃ t ∈ w.supervisors, step.action.actor? = some t.serial) := by
  have numbered := (World.sound_history history).supervision.numbered
  have accounted := accounted_history history
  have emitted_eq (t) (ht : t ∈ w.supervisors) : emittedBy t.serial past = t.announced := by
    rw [accounted.announced, Supervision.announced, numbered.supervisor?_eq_some_iff.2 ⟨ht, rfl⟩]
    rfl
  refine ⟨accounted.begun, fun t ht placement => ?_,
    fun t ht placement => ⟨?_, fun exit done => ?_⟩,
    fun step taken pid code moved answer => ?_, accounted.events, fun step taken some_event => ?_⟩
  · rw [emitted_eq t ht, Supervisor.announced, placement]
  · rw [emitted_eq t ht, Supervisor.announced, placement]
    cases t.phase <;> simp
  · rw [emitted_eq t ht, Supervisor.announced, placement, done]
  · obtain ⟨t, ht, reported⟩ := accounted.answered step taken pid code moved answer
    refine ⟨t, ht, reported.own, reported.placement, reported.tracked, ?_⟩
    rw [emitted_eq t ht, Supervisor.announced, reported.placement, reported.own]
    rcases reported.reports with aborted | ⟨exit, outcome, same⟩
    · simp [aborted]
    · cases phase : t.phase <;> simp_all [Phase.outcome?]
  · cases actor : step.action.actor? with
    | none => exact absurd (accounted.actors step taken actor) some_event
    | some n =>
        cases found : w.supervision.supervisor? n with
        | some t =>
            exact ⟨t, Supervision.mem_of_supervisor? found,
              by rw [Supervision.serial_of_supervisor? found]⟩
        | none =>
            have nothing : emittedBy n past = [] := by
              rw [accounted.announced, Supervision.announced, found]
              rfl
            rw [emittedBy, List.flatMap_eq_nil_iff] at nothing
            exact absurd (nothing step (List.mem_filter.2 ⟨taken, by simp [actor]⟩)) some_event

theorem completions_answered :
    ∃ past w, History past w ∧
      past.map Transition.action = [.spawn 7 [] .background, .exit 7 5, .see 0, .record 0,
        .toForeground 7, .release 0, .announce 0] ∧
      (past[4]?.map fun step => (step.before.supervision.toForeground 7).2) =
        some (.alreadyExited 5) ∧
      emittedBy 0 past = [.jobCompleted 7 5] := by
  have h := History.start.step (.spawn 7 [] .background rfl)
  have h := h.step (.exit 7 5 rfl)
  have h := h.step (.see (n := 0) rfl rfl rfl)
  have h := h.step (.record _ 0)
  have h := h.step (.toForeground _ 7)
  have h := h.step (.release _ 0)
  have h := h.step (.announce _ 0)
  obtain ⟨-, -, background, -⟩ := completions_of_history h
  have job := background ⟨7, 0, 0, .background, .done ⟨.exited 5, 5⟩⟩ (by decide) rfl
  exact ⟨_, _, h, rfl, rfl, job.2 _ rfl⟩

end CommandShell
