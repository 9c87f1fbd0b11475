import CommandShell.Proofs.Process.Interleaving
import CommandShell.Proofs.Process.Maps

/-!
A live process is always tracked.

The invariant says whose every entry is, and where the entry of every supervisor that still waits
is. A step of the registry may drop an entry only if its token is cancelled by it, or if nobody
waits for its process any more; old entries under a pid that is used again are of the second kind.
-/
namespace CommandShell

/-- What is tracked is the process of a supervisor. -/
structure Supervisor.Owns (t : Supervisor) (x : Tracked) : Prop where
  serial : x.entry.serial = t.serial
  token : x.entry.token = t.token
  placement : x.placement = .background → t.placement = .background

/-- Something is tracked in place of the same process. -/
structure Tracked.Continues (x old : Tracked) : Prop where
  serial : x.entry.serial = old.entry.serial
  token : x.entry.token = old.entry.token
  placement : x.placement = .background → old.placement = .background

theorem Tracked.Continues.refl (x : Tracked) : x.Continues x := ⟨rfl, rfl, id⟩

theorem Supervisor.Owns.continue {t : Supervisor} {x old : Tracked} (h : t.Owns old)
    (kept : x.Continues old) : t.Owns x :=
  ⟨kept.serial.trans h.serial, kept.token.trans h.token, fun p => h.placement (kept.placement p)⟩

theorem Supervisor.Owns.becomes {t u : Supervisor} {x : Tracked} (h : t.Owns x)
    (step : t.Becomes u) : u.Owns x :=
  ⟨h.serial.trans step.serial.symm, h.token.trans step.token.symm,
    fun p => step.placement.trans (h.placement p)⟩

theorem Tracked.continues_of_foregrounded {x old : Tracked} (h : old.foregrounded? = some x) :
    x.Continues old ∧ x.entry = old.entry := by
  unfold foregrounded? at h
  split at h
  · split at h <;> cases h
    exact ⟨⟨rfl, rfl, nofun⟩, rfl⟩
  · cases h
    exact ⟨.refl x, rfl⟩

/-- Only a background job that has exited is dropped when it is moved to the foreground. -/
theorem Tracked.foregrounded?_eq_none {x : Tracked} (h : x.foregrounded? = none) :
    ∃ code, x.entry.state = .exited code := by
  unfold foregrounded? at h
  split at h
  · split at h <;> cases h
    exact ⟨_, ‹_›⟩
  · cases h

namespace Supervision

/-- Everything that is tracked has its supervisor, and every supervisor that waits has its entry,
unless the end of its process has been requested. -/
structure Sound (s : Supervision) : Prop where
  formed : s.registry.WellFormed
  numbered : s.Numbered
  truthful : ∀ t ∈ s.supervisors, t.phase.Truthful
  owned : ∀ pid x, s.registry.tracked? pid = some x →
    ∃ t ∈ s.supervisors, t.pid = pid ∧ t.Owns x ∧
      ∀ code, x.entry.state = .exited code → t.phase.Reports code
  known : ∀ t ∈ s.supervisors, t.phase.waits = true → t.token ∉ s.registry.cancelled →
    ∃ x, s.registry.tracked? t.pid = some x ∧ t.Owns x

/-- A registry that may take the place of the one that is there. -/
structure Allows (s : Supervision) (r : Registry) : Prop where
  formed : r.WellFormed
  nextSerial : r.nextSerial = s.registry.nextSerial
  cancelled : ∀ token ∈ s.registry.cancelled, token ∈ r.cancelled
  origin : ∀ pid x, r.tracked? pid = some x → ∃ old, s.registry.tracked? pid = some old ∧
    x.Continues old ∧ ∀ code, x.entry.state = .exited code → old.entry.state = .exited code ∨
      ∀ t ∈ s.supervisors, t.serial = x.entry.serial → t.phase.Reports code
  fate : ∀ pid old, s.registry.tracked? pid = some old →
    (∃ x, r.tracked? pid = some x ∧ x.Continues old) ∨ old.entry.token ∈ r.cancelled ∨
      ∀ t ∈ s.supervisors, t.serial = old.entry.serial → t.phase.waits = false

theorem sound_empty : Sound {} where
  formed := Registry.wellFormed_empty
  numbered := ⟨rfl, rfl⟩
  truthful := nofun
  owned := nofun
  known := nofun

section Preservation
variable {s : Supervision} (h : s.Sound)
include h

theorem sound_of_allows {r : Registry} (allowed : s.Allows r) (events : List Event) :
    Sound { s with registry := r, events } where
  formed := allowed.formed
  numbered := ⟨h.numbered.serials.trans (by rw [allowed.nextSerial]), h.numbered.tokens⟩
  truthful := h.truthful
  owned pid x found := by
    obtain ⟨old, before, kept, state⟩ := allowed.origin pid x found
    obtain ⟨t, ht, same, owns, reports⟩ := h.owned pid old before
    refine ⟨t, ht, same, owns.continue kept, fun code exited => ?_⟩
    rcases state code exited with exited | owner
    · exact reports code exited
    · exact owner t ht (kept.serial.trans owns.serial).symm
  known t ht waits uncancelled := by
    obtain ⟨old, before, owns⟩ :=
      h.known t ht waits fun cancelled => uncancelled (allowed.cancelled t.token cancelled)
    rcases allowed.fate t.pid old before with ⟨x, found, kept⟩ | cancelled | unwaited
    · exact ⟨x, found, owns.continue kept⟩
    · exact absurd (owns.token ▸ cancelled) uncancelled
    · rw [unwaited t ht owns.serial.symm] at waits
      cases waits

theorem allows_same : s.Allows s.registry where
  formed := h.formed
  nextSerial := rfl
  cancelled _ := id
  origin _ x found := ⟨x, found, .refl x, fun _ exited => .inl exited⟩
  fate _ x found := .inl ⟨x, found, .refl x⟩

theorem allows_kill (pid : Pid) : s.Allows (s.registry.kill pid).1 where
  formed := Registry.wellFormed_kill h.formed pid
  nextSerial := Registry.nextSerial_kill s.registry pid
  cancelled token cancelled := (Registry.mem_cancelled_kill h.formed pid token).2 (.inr cancelled)
  origin p x found := by
    rw [Registry.tracked?_kill h.formed] at found
    split at found
    · cases found
    · exact ⟨x, found, .refl x, fun _ exited => .inl exited⟩
  fate p old found := by
    by_cases hp : p = pid
    · subst hp
      exact .inr (.inl ((Registry.mem_cancelled_kill h.formed p _).2 (.inl ⟨old, found, rfl⟩)))
    · refine .inl ⟨old, ?_, .refl old⟩
      rw [Registry.tracked?_kill h.formed, if_neg hp, found]

theorem allows_drain : s.Allows s.registry.drain.1 where
  formed := Registry.wellFormed_drain s.registry
  nextSerial := rfl
  cancelled token cancelled := (Registry.mem_cancelled_drain h.formed token).2 (.inr cancelled)
  origin := nofun
  fate p old found :=
    .inr (.inl ((Registry.mem_cancelled_drain h.formed _).2 (.inl ⟨p, old, found, rfl⟩)))

theorem allows_toForeground (pid : Pid) : s.Allows (s.registry.toForeground pid).1 where
  formed := Registry.wellFormed_toForeground h.formed pid
  nextSerial := Registry.nextSerial_toForeground s.registry pid
  cancelled token cancelled := (Registry.cancelled_toForeground s.registry pid).symm ▸ cancelled
  origin p x found := by
    rw [Registry.tracked?_toForeground h.formed] at found
    split at found
    · next same =>
      obtain ⟨old, before, moved⟩ := Option.bind_eq_some_iff.1 found
      obtain ⟨kept, entry⟩ := Tracked.continues_of_foregrounded moved
      exact ⟨old, same ▸ before, kept, fun _ exited => .inl (entry ▸ exited)⟩
    · exact ⟨x, found, .refl x, fun _ exited => .inl exited⟩
  fate p old found := by
    by_cases hp : p = pid
    · subst hp
      cases moved : old.foregrounded? with
      | none =>
          -- The entry is dropped; its owner knows that the job has exited, so it does not wait.
          obtain ⟨code, exited⟩ := Tracked.foregrounded?_eq_none moved
          obtain ⟨t, ht, -, owns, reports⟩ := h.owned p old found
          refine .inr (.inr fun u hu same => ?_)
          obtain rfl := h.numbered.eq_of_serial hu ht (same.trans owns.serial)
          exact Bool.eq_false_iff.2 fun waits =>
            Phase.not_reports_of_waits waits code (reports code exited)
      | some x =>
          refine .inl ⟨x, ?_, (Tracked.continues_of_foregrounded moved).1⟩
          rw [Registry.tracked?_toForeground h.formed, if_pos rfl, found, Option.bind_some, moved]
    · refine .inl ⟨old, ?_, .refl old⟩
      rw [Registry.tracked?_toForeground h.formed, if_neg hp, found]

/-- The end of a process is recorded by its supervisor, which has seen it. -/
theorem allows_finish {t : Supervisor} (ht : t ∈ s.supervisors) {exit : Exit}
    (seen : t.phase.outcome? = some exit) :
    s.Allows (s.registry.finish t.pid t.serial exit.state) where
  formed := Registry.wellFormed_finish h.formed t.pid t.serial exit.state
  nextSerial := Registry.nextSerial_finish s.registry t.pid t.serial exit.state
  cancelled token cancelled :=
    (Registry.cancelled_finish s.registry t.pid t.serial exit.state).symm ▸ cancelled
  origin p x found := by
    rw [Registry.tracked?_finish h.formed, Option.map_eq_some_iff] at found
    obtain ⟨old, before, rfl⟩ := found
    refine ⟨old, before, ?_⟩
    split
    · next own =>
      refine ⟨⟨rfl, rfl, id⟩, fun code exited => .inr fun u hu same => ?_⟩
      obtain rfl := h.numbered.eq_of_serial hu ht (same.trans own.2)
      exact .inr ⟨exit, seen, h.truthful u ht exit code seen exited⟩
    · exact ⟨.refl old, fun _ exited => .inl exited⟩
  fate p old found := by
    refine .inl ⟨_, by rw [Registry.tracked?_finish h.formed, found, Option.map_some], ?_⟩
    split
    · exact ⟨rfl, rfl, id⟩
    · exact .refl old

/-- An entry is released by its supervisor, which does not wait any more. -/
theorem allows_remove {t : Supervisor} (ht : t ∈ s.supervisors) (unwaited : t.phase.waits = false) :
    s.Allows (s.registry.remove t.pid t.serial) where
  formed := Registry.wellFormed_remove h.formed t.pid t.serial
  nextSerial := Registry.nextSerial_remove s.registry t.pid t.serial
  cancelled token cancelled :=
    (Registry.cancelled_remove s.registry t.pid t.serial).symm ▸ cancelled
  origin p x found := by
    rw [Registry.tracked?_remove h.formed, Option.bind_eq_some_iff] at found
    obtain ⟨old, before, kept⟩ := found
    split at kept <;> cases kept
    exact ⟨x, before, .refl x, fun _ exited => .inl exited⟩
  fate p old found := by
    by_cases own : p = t.pid ∧ old.entry.serial = t.serial
    · refine .inr (.inr fun u hu same => ?_)
      obtain rfl := h.numbered.eq_of_serial hu ht (same.trans own.2)
      exact unwaited
    · refine .inl ⟨old, ?_, .refl old⟩
      rw [Registry.tracked?_remove h.formed, found, Option.bind_some, if_neg own]

theorem sound_map {f : Supervisor → Supervisor}
    (becomes : ∀ t ∈ s.supervisors, t.Becomes (f t)) :
    Sound { s with supervisors := s.supervisors.map f } where
  formed := h.formed
  numbered := h.numbered.map becomes
  truthful := by
    simp only [List.mem_map, forall_exists_index, and_imp, forall_apply_eq_imp_iff₂]
    exact fun t ht => (becomes t ht).truthful (h.truthful t ht)
  owned pid x found := by
    obtain ⟨t, ht, same, owns, reports⟩ := h.owned pid x found
    have step := becomes t ht
    exact ⟨f t, List.mem_map_of_mem ht, step.pid.trans same, owns.becomes step,
      fun code exited => step.reports (reports code exited)⟩
  known := by
    simp only [List.mem_map, forall_exists_index, and_imp, forall_apply_eq_imp_iff₂]
    intro t ht waits uncancelled
    have step := becomes t ht
    rw [step.token] at uncancelled
    obtain ⟨x, found, owns⟩ := h.known t ht (step.waits waits) uncancelled
    exact ⟨x, by rw [step.pid, found], owns.becomes step⟩

/-- What a supervisor does to the registry is allowed of one that has come to its phase. -/
theorem allows_enter {n : Serial} {t : Supervisor} {phase : Phase}
    (found : s.supervisor? n = some t) (next : t.phase.Next phase) :
    (s.setPhase t.serial phase).Sound ∧
      (s.setPhase t.serial phase).Allows (s.enter t phase).registry := by
  have moved : (s.setPhase t.serial phase).Sound :=
    sound_map h (h.numbered.becomes_setPhase found next)
  have here : { t with phase } ∈ (s.setPhase t.serial phase).supervisors :=
    mem_setPhase.2 ⟨t, mem_of_supervisor? found, by simp⟩
  refine ⟨moved, ?_⟩
  cases phase with
  | recorded exit => exact allows_finish moved here rfl
  | released exit => exact allows_remove moved (t := { t with phase := .released exit }) here rfl
  | waiting | ending | seen | done | aborted => exact allows_same moved

theorem sound_advance {n : Serial} {s' : Supervision} (step : s.Advance n s') : s'.Sound := by
  cases step with
  | stay => exact h
  | enter found next =>
      obtain ⟨moved, allowed⟩ := allows_enter h found next
      exact sound_of_allows moved allowed _

/-- What is tracked after a step of a supervisor was tracked before it. -/
theorem origin_advance {n : Serial} {s' : Supervision} (step : s.Advance n s') {pid : Pid}
    {x : Tracked} (tracked : s'.registry.tracked? pid = some x) :
    ∃ old, s.registry.tracked? pid = some old ∧ x.Continues old := by
  cases step with
  | stay => exact ⟨x, tracked, .refl x⟩
  | enter found next =>
      obtain ⟨old, before, kept, -⟩ := (allows_enter h found next).2.origin pid x tracked
      exact ⟨old, before, kept⟩

/-- A new process is tracked under a pid under which no process is waited for any more. -/
theorem sound_start {pid : Pid} (name : Text) (placement : Placement)
    (unwaited : ∀ t ∈ s.supervisors, t.pid = pid → t.phase.waits = false) :
    (s.start pid name placement).Sound where
  formed := Registry.wellFormed_insert h.formed pid name placement s.nextToken
  numbered := by
    constructor
    · simp [start, h.numbered.serials, List.range_succ]
    · simp [start, h.numbered.tokens, List.range_succ]
  truthful := by
    simp only [start, List.mem_append, List.mem_singleton]
    rintro t (ht | rfl)
    · exact h.truthful t ht
    · nofun
  owned p x found := by
    simp only [start, Registry.tracked?_insert] at found
    split at found
    · next same =>
      cases found
      exact ⟨_, List.mem_append_right _ (List.mem_singleton_self _), same.symm,
        ⟨rfl, rfl, id⟩, nofun⟩
    · obtain ⟨t, ht, rest⟩ := h.owned p x found
      exact ⟨t, List.mem_append_left _ ht, rest⟩
  known := by
    simp only [start, List.mem_append, List.mem_singleton, Registry.cancelled_insert,
      Registry.tracked?_insert]
    rintro t (ht | rfl) waits uncancelled
    · -- The new entry may take the place of an old one, but not of one that somebody waits for.
      have other : t.pid ≠ pid := fun same => by simp [unwaited t ht same] at waits
      rw [if_neg other]
      exact h.known t ht waits uncancelled
    · exact ⟨_, if_pos rfl, rfl, rfl, id⟩

end Preservation

end Supervision

namespace World

/-- Nobody else has been given a pid under which a supervisor still waits. -/
structure Waited (slots : Pid → Slot) (supervisors : List Supervisor) : Prop where
  held : ∀ t ∈ supervisors, t.phase.waits = true → slots t.pid ≠ .free
  alone : ∀ t ∈ supervisors, ∀ u ∈ supervisors,
    t.phase.waits = true → u.phase.waits = true → t.pid = u.pid → t = u

section Waited
variable {slots : Pid → Slot} {supervisors : List Supervisor} (h : Waited slots supervisors)
include h

theorem Waited.map {f : Supervisor → Supervisor} (becomes : ∀ t ∈ supervisors, t.Becomes (f t)) :
    Waited slots (supervisors.map f) := by
  constructor
  · simp only [List.mem_map, forall_exists_index, and_imp, forall_apply_eq_imp_iff₂]
    intro t ht waits
    rw [(becomes t ht).pid]
    exact h.held t ht ((becomes t ht).waits waits)
  · simp only [List.mem_map, forall_exists_index, and_imp, forall_apply_eq_imp_iff₂]
    intro t ht u hu waits waits' same
    rw [(becomes t ht).pid, (becomes u hu).pid] at same
    rw [h.alone t ht u hu ((becomes t ht).waits waits) ((becomes u hu).waits waits') same]

theorem Waited.slot {pid : Pid} {slot : Slot}
    (unwaited : slot = .free → ∀ t ∈ supervisors, t.pid = pid → t.phase.waits = false) :
    Waited (fun p => if p = pid then slot else slots p) supervisors where
  held t ht waits := by
    split
    · next same =>
      intro free
      rw [unwaited free t ht same] at waits
      cases waits
    · exact h.held t ht waits
  alone := h.alone

theorem Waited.start {pid : Pid} (free : slots pid = .free) (serial : Serial) (token : Token)
    (placement : Placement) :
    Waited (fun p => if p = pid then .alive else slots p)
      (supervisors ++ [⟨pid, serial, token, placement, .waiting⟩]) := by
  have others : ∀ t ∈ supervisors, t.phase.waits = true → t.pid ≠ pid :=
    fun t ht waits same => h.held t ht waits (same ▸ free)
  constructor
  · simp only [List.mem_append, List.mem_singleton]
    rintro t (ht | rfl) waits
    · rw [if_neg (others t ht waits)]
      exact h.held t ht waits
    · simp
  · simp only [List.mem_append, List.mem_singleton]
    rintro t (ht | rfl) u (hu | rfl) waits waits' same
    · exact h.alone t ht u hu waits waits' same
    · exact absurd same (others t ht waits)
    · exact absurd same.symm (others u hu waits')
    · rfl

end Waited

/-- What holds of every world that can be reached. -/
structure Sound (w : World) : Prop where
  supervision : w.supervision.Sound
  waited : Waited w.slots w.supervisors

theorem sound_start : Sound {} := ⟨Supervision.sound_empty, nofun, nofun⟩

section Preservation
variable {w : World} (h : w.Sound)
include h

theorem sound_request {r : Registry} (allowed : w.supervision.Allows r) :
    (w.withSupervision { w.supervision with registry := r }).Sound :=
  ⟨Supervision.sound_of_allows h.supervision allowed _, h.waited⟩

theorem sound_advance {n : Serial} {s' : Supervision} (step : w.supervision.Advance n s') :
    (w.withSupervision s').Sound := by
  obtain ⟨f, supervisors, becomes⟩ := h.supervision.numbered.supervisors_advance step
  refine ⟨Supervision.sound_advance h.supervision step, ?_⟩
  simp only [World.supervisors, withSupervision, supervisors]
  exact h.waited.map becomes

/-- A pid is free again when its only supervisor that waits has seen the end. -/
theorem sound_see {n : Serial} {t : Supervisor} (found : w.supervision.supervisor? n = some t)
    (waits : t.phase.waits = true) (code : Int) :
    ((w.withSlot t.pid .free).withSupervision (w.supervision.seeEnd n code)).Sound := by
  have step := Supervision.advance_seeEnd w.supervision n code
  have after := sound_advance h step
  refine ⟨after.supervision, after.waited.slot fun _ u hu same => ?_⟩
  obtain ⟨exit, ends⟩ : ∃ exit, t.phase.exit? code = some exit := by
    cases phase : t.phase <;> simp [Phase.exit?, phase, Phase.waits] at waits ⊢
  simp only [World.supervisors, withSupervision, Supervision.seeEnd, found, Option.bind_some,
    ends] at hu
  obtain ⟨v, hv, rfl⟩ := Supervision.mem_setPhase.1 hu
  by_cases own : v.serial = n
  · simp [own, Phase.waits]
  · rw [if_neg own] at same ⊢
    refine Bool.eq_false_iff.2 fun waits' => own ?_
    rw [h.waited.alone v hv t (Supervision.mem_of_supervisor? found) waits' waits same]
    exact Supervision.serial_of_supervisor? found

theorem sound_step {action : Action} {w' : World} (step : w.Step action w') : w'.Sound := by
  have formed := h.supervision
  cases step with
  | spawn pid name placement free =>
      have unwaited : ∀ t ∈ w.supervisors, t.pid = pid → t.phase.waits = false :=
        fun t ht same => Bool.eq_false_iff.2 fun waits => h.waited.held t ht waits (same ▸ free)
      exact ⟨Supervision.sound_start formed name placement unwaited, h.waited.start free _ _ _⟩
  | exit pid code alive => exact ⟨formed, h.waited.slot nofun⟩
  | collect ended unwaited => exact ⟨formed, h.waited.slot fun _ => unwaited⟩
  | see found waits ended => exact sound_see h found waits _
  | fail n => exact sound_advance h (Supervision.advance_seeEnd _ n _)
  | heed n => exact sound_advance h (Supervision.advance_heed _ n)
  | record n => exact sound_advance h (Supervision.advance_record _ n)
  | release n => exact sound_advance h (Supervision.advance_release _ n)
  | announce n => exact sound_advance h (Supervision.advance_announce _ n)
  | abort n => exact sound_advance h (Supervision.advance_abort _ n)
  | kill pid => exact sound_request h (Supervision.allows_kill formed pid)
  | toForeground pid => exact sound_request h (Supervision.allows_toForeground formed pid)
  | drain => exact sound_request h (Supervision.allows_drain formed)
  | beginSweep => exact ⟨formed, h.waited⟩
  | @sweep i pid left count next =>
      have after := sound_request h (Supervision.allows_kill formed pid)
      exact ⟨after.supervision, after.waited⟩
  | await serials => exact ⟨formed, h.waited⟩
  | answer next finished => exact ⟨formed, h.waited⟩
  | abandon i => exact ⟨formed, h.waited⟩

end Preservation

theorem sound_history {past : List Transition} {w : World} (history : History past w) :
    w.Sound := by
  induction history with
  | start => exact sound_start
  | step _ step ih => exact sound_step ih step

/-- However supervisors and callers come between one another, and however often a pid is given out
again: as long as a supervisor waits and its token is not cancelled, its process is tracked under
its own pid, serial and token, which it shares with no other, in exactly one of the maps. -/
theorem live_tracked_of_history {past : List Transition} {w : World} (history : History past w)
    {t : Supervisor} (started : t ∈ w.supervisors) (waits : t.phase.waits = true)
    (uncancelled : w.registry.isCancelled t.token = false) :
    (∀ u ∈ w.supervisors, u.serial = t.serial ∨ u.token = t.token → u = t) ∧
    ∃ entry, entry.serial = t.serial ∧ entry.token = t.token ∧
      ((w.registry.running.get? t.pid = some entry ∧ w.registry.background.get? t.pid = none) ∨
        (w.registry.running.get? t.pid = none ∧
          w.registry.background.get? t.pid = some entry)) := by
  have sound := (sound_history history).supervision
  have open_token : t.token ∉ w.registry.cancelled := fun cancelled =>
    Bool.eq_false_iff.1 uncancelled ((Registry.isCancelled_iff w.registry t.token).2 cancelled)
  obtain ⟨⟨placement, entry⟩, found, owns⟩ := sound.known t started waits open_token
  refine ⟨fun u hu same => ?_, entry, owns.serial, owns.token, ?_⟩
  · rcases same with serial | token
    · exact sound.numbered.eq_of_serial hu started serial
    · exact sound.numbered.eq_of_token hu started token
  have place := (Registry.tracked?_eq_some_iff sound.formed t.pid _).1 found
  have apart := sound.formed.apart t.pid
  cases placement with
  | running =>
      dsimp only at place
      exact .inl ⟨place, apart.resolve_left (by simp [place])⟩
  | background =>
      dsimp only at place
      exact .inr ⟨apart.resolve_right (by simp [place]), place⟩

theorem live_tracked_reused :
    ∃ past w, History past w ∧ past.map Transition.action =
      [.spawn 7 [] .background, .exit 7 5, .see 0, .spawn 7 [] .background, .record 0,
        .release 0, .toForeground 7, .await [1], .abandon 0, .announce 0] ∧
      ∃ entry, entry.serial = 1 ∧ entry.token = 1 ∧
        ((w.registry.running.get? 7 = some entry ∧ w.registry.background.get? 7 = none) ∨
          (w.registry.running.get? 7 = none ∧ w.registry.background.get? 7 = some entry)) := by
  have h := History.start.step (.spawn 7 [] .background rfl)
  have h := h.step (.exit 7 5 rfl)
  have h := h.step (.see (n := 0) rfl rfl rfl)
  have h := h.step (.spawn 7 [] .background rfl)
  have h := h.step (.record _ 0)
  have h := h.step (.release _ 0)
  have h := h.step (.toForeground _ 7)
  have h := h.step (.await _ [1])
  have h := h.step (.abandon _ 0)
  have h := h.step (.announce _ 0)
  have tracked := live_tracked_of_history h (t := ⟨7, 1, 1, .background, .waiting⟩) (by decide)
    rfl rfl
  exact ⟨_, _, h, rfl, tracked.2⟩

end World

end CommandShell
