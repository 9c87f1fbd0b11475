import CommandShell.Process.Supervision
import Mathlib.Data.List.Nodup

/-!
What one supervisor does, one phase after the other.

Every step of a supervisor is the same: it comes to the phase that follows its own, with what
belongs to that phase, or nothing happens. All that is proved of the steps goes through this.
-/
namespace CommandShell

namespace Phase

/-- Whether a supervisor in a phase still waits for the end of its process. -/
def waits : Phase → Bool
  | waiting | ending => true
  | _ => false

/-- The end that a supervisor in a phase has seen. -/
def outcome? : Phase → Option Exit
  | seen exit | recorded exit | released exit | done exit => some exit
  | _ => none

/-- Whether a supervisor in a phase has no more to do. -/
def isOver : Phase → Bool
  | done _ | aborted => true
  | _ => false

/-- One phase comes after another. -/
inductive Next : Phase → Phase → Prop
  | heed : Next waiting ending
  | see {phase code exit} : exit? code phase = some exit → Next phase (seen exit)
  | record (exit) : Next (seen exit) (recorded exit)
  | release (exit) : Next (recorded exit) (released exit)
  | announce (exit) : Next (released exit) (done exit)
  | abort {phase} : (∀ exit, phase ≠ done exit) → Next phase aborted

/-- A process that is known to have ended with a code has a supervisor that knows it too, or that
has been broken off. -/
def Reports (phase : Phase) (code : Int) : Prop :=
  phase = aborted ∨ ∃ exit, phase.outcome? = some exit ∧ exit.code = code

/-- The state that a supervisor records has the code that it announces. -/
def Truthful (phase : Phase) : Prop :=
  ∀ exit code, phase.outcome? = some exit → exit.state = .exited code → exit.code = code

variable {phase phase' : Phase}

theorem Next.not_done (next : phase.Next phase') (exit : Exit) : phase ≠ done exit := by
  rintro rfl
  cases next with
  | see found => cases found
  | abort unfinished => exact unfinished exit rfl

theorem Next.waits (next : phase.Next phase') (h : phase'.waits = true) : phase.waits = true := by
  cases next with
  | heed => rfl
  | see | record | release | announce | abort => cases h

theorem Next.reports (next : phase.Next phase') {code : Int} (h : phase.Reports code) :
    phase'.Reports code := by
  cases next with
  | heed => simp [Reports, outcome?] at h
  | see found =>
      cases phase <;> simp [exit?, Reports, outcome?] at found h
  | record exit | release exit | announce exit => simpa [Reports, outcome?] using h
  | abort => exact .inl rfl

theorem Next.truthful (next : phase.Next phase') (h : phase.Truthful) : phase'.Truthful := by
  cases next with
  | heed | abort => nofun
  | see found =>
      rintro _ code ⟨⟩ state
      unfold exit? at found
      split at found <;> cases found <;> cases state
      rfl
  | record exit | release exit | announce exit => exact h

theorem not_reports_of_waits (h : phase.waits = true) (code : Int) : ¬phase.Reports code := by
  cases phase <;> simp_all [Reports, Phase.waits, outcome?]

end Phase

namespace Supervisor

/-- The events by which a supervisor has announced the end of its process. -/
def announced (t : Supervisor) : List Event :=
  match t.placement, t.phase with
  | .background, .done exit => [.jobCompleted t.pid exit.code]
  | _, _ => []

/-- A supervisor as it is now and after a step of someone. -/
structure Becomes (t u : Supervisor) : Prop where
  pid : u.pid = t.pid
  serial : u.serial = t.serial
  token : u.token = t.token
  placement : u.placement = t.placement
  phase : u.phase = t.phase ∨ t.phase.Next u.phase

variable {t u : Supervisor}

theorem Becomes.refl (t : Supervisor) : t.Becomes t := ⟨rfl, rfl, rfl, rfl, .inl rfl⟩

theorem Becomes.of_next {phase : Phase} (next : t.phase.Next phase) :
    t.Becomes { t with phase } := ⟨rfl, rfl, rfl, rfl, .inr next⟩

theorem Becomes.waits (h : t.Becomes u) (waits : u.phase.waits = true) : t.phase.waits = true := by
  rcases h.phase with same | next
  · exact same ▸ waits
  · exact next.waits waits

theorem Becomes.reports (h : t.Becomes u) {code : Int} (reports : t.phase.Reports code) :
    u.phase.Reports code := by
  rcases h.phase with same | next
  · exact same ▸ reports
  · exact next.reports reports

theorem Becomes.truthful (h : t.Becomes u) (truthful : t.phase.Truthful) : u.phase.Truthful := by
  rcases h.phase with same | next
  · exact same ▸ truthful
  · exact next.truthful truthful

end Supervisor

namespace Supervision

/-- The supervisors are numbered in the order of their start, and so are their tokens. -/
structure Numbered (s : Supervision) : Prop where
  serials : s.supervisors.map Supervisor.serial = List.range s.registry.nextSerial
  tokens : s.supervisors.map Supervisor.token = List.range s.nextToken

/-- What a supervisor does when it comes to a phase. -/
def enter (s : Supervision) (t : Supervisor) (phase : Phase) : Supervision :=
  { s with
    registry := match phase with
      | .recorded exit => s.registry.finish t.pid t.serial exit.state
      | .released _ => s.registry.remove t.pid t.serial
      | _ => s.registry
    events := s.events ++ Supervisor.announced { t with phase } }.setPhase t.serial phase

/-- The supervisor with a serial comes to its next phase, or nothing happens. -/
inductive Advance (s : Supervision) (n : Serial) : Supervision → Prop
  | stay : Advance s n s
  | enter {t phase} : s.supervisor? n = some t → t.phase.Next phase → Advance s n (s.enter t phase)

section Numbers
variable {s : Supervision} {n : Serial} {t u : Supervisor}

theorem serial_of_supervisor? (h : s.supervisor? n = some t) : t.serial = n :=
  beq_iff_eq.1 (List.find?_some h :)

theorem mem_of_supervisor? (h : s.supervisor? n = some t) : t ∈ s.supervisors :=
  List.mem_of_find?_eq_some h

namespace Numbered
variable (h : s.Numbered)
include h

theorem eq_of_serial (ht : t ∈ s.supervisors) (hu : u ∈ s.supervisors)
    (same : t.serial = u.serial) : t = u :=
  List.inj_on_of_nodup_map (h.serials ▸ List.nodup_range) ht hu same

theorem eq_of_token (ht : t ∈ s.supervisors) (hu : u ∈ s.supervisors)
    (same : t.token = u.token) : t = u :=
  List.inj_on_of_nodup_map (h.tokens ▸ List.nodup_range) ht hu same

theorem supervisor?_eq_some_iff :
    s.supervisor? n = some t ↔ t ∈ s.supervisors ∧ t.serial = n := by
  constructor
  · exact fun found => ⟨mem_of_supervisor? found, serial_of_supervisor? found⟩
  · rintro ⟨ht, rfl⟩
    cases found : s.supervisor? t.serial with
    | none => simpa using List.find?_eq_none.1 found t ht
    | some u =>
        rw [h.eq_of_serial ht (mem_of_supervisor? found) (serial_of_supervisor? found).symm]

end Numbered

theorem mem_setPhase {phase : Phase} :
    u ∈ (s.setPhase n phase).supervisors ↔
      ∃ t ∈ s.supervisors, u = if t.serial = n then { t with phase } else t := by
  simp [setPhase, eq_comm]

namespace Numbered
variable (h : s.Numbered)
include h

theorem map {f : Supervisor → Supervisor} (becomes : ∀ t ∈ s.supervisors, t.Becomes (f t)) :
    Numbered { s with supervisors := s.supervisors.map f } where
  serials := by
    rw [List.map_map, ← h.serials]
    exact List.map_congr_left fun t ht => (becomes t ht).serial
  tokens := by
    rw [List.map_map, ← h.tokens]
    exact List.map_congr_left fun t ht => (becomes t ht).token

theorem becomes_setPhase (found : s.supervisor? n = some t) {phase : Phase}
    (next : t.phase.Next phase) :
    ∀ u ∈ s.supervisors, u.Becomes (if u.serial = t.serial then { u with phase } else u) := by
  intro u hu
  split
  · next same =>
    obtain rfl := h.eq_of_serial hu (mem_of_supervisor? found) same
    exact .of_next next
  · exact .refl u

/-- After a step of one supervisor, every supervisor is what it was or has come to its next
phase. -/
theorem supervisors_advance {s' : Supervision} (step : s.Advance n s') :
    ∃ f, s'.supervisors = s.supervisors.map f ∧ ∀ t ∈ s.supervisors, t.Becomes (f t) := by
  cases step with
  | stay => exact ⟨id, (List.map_id _).symm, fun t _ => .refl t⟩
  | enter found next => exact ⟨_, rfl, h.becomes_setPhase found next⟩

end Numbered

end Numbers

section Steps
variable (s : Supervision) (n : Serial)

/-- A step of a supervisor in the form in which the steps are written. -/
theorem Advance.of_next {s' : Supervision} {t : Supervisor} {phase : Phase}
    (found : s.supervisor? n = some t) (next : t.phase.Next phase) (step : s' = s.enter t phase) :
    s.Advance n s' := step ▸ .enter found next

theorem advance_heed : s.Advance n (s.heed n) := by
  unfold heed
  split
  · next pid serial token placement found =>
    obtain rfl : serial = n := serial_of_supervisor? found
    split
    · exact .of_next s serial found .heed (by simp [enter, Supervisor.announced])
    · exact .stay
  · exact .stay

theorem advance_seeEnd (code : Int) : s.Advance n (s.seeEnd n code) := by
  unfold seeEnd
  split
  · next exit found =>
    obtain ⟨t, found, ends⟩ := Option.bind_eq_some_iff.1 found
    obtain rfl : t.serial = n := serial_of_supervisor? found
    exact .of_next s t.serial found (.see ends) (by simp [enter, Supervisor.announced])
  · exact .stay

theorem advance_record : s.Advance n (s.record n) := by
  unfold record
  split
  · next pid serial token placement exit found =>
    obtain rfl : serial = n := serial_of_supervisor? found
    exact .of_next s serial found (.record exit) (by simp [enter, Supervisor.announced])
  · exact .stay

theorem advance_release : s.Advance n (s.release n) := by
  unfold release
  split
  · next pid serial token placement exit found =>
    obtain rfl : serial = n := serial_of_supervisor? found
    exact .of_next s serial found (.release exit) (by simp [enter, Supervisor.announced])
  · exact .stay

theorem advance_announce : s.Advance n (s.announce n) := by
  unfold announce
  split
  · next pid serial token placement exit found =>
    obtain rfl : serial = n := serial_of_supervisor? found
    refine .of_next s serial found (.announce exit) ?_
    cases placement <;> simp [enter, Supervisor.announced, emitAll]
  · exact .stay

theorem advance_abort : s.Advance n (s.abort n) := by
  unfold abort
  split
  · exact .stay
  · exact .stay
  · next t unfinished found =>
    obtain rfl : t.serial = n := serial_of_supervisor? found
    refine .of_next s t.serial found (.abort fun exit done => ?_) ?_
    · exact unfinished t.pid t.serial t.token t.placement exit (by rw [← done])
    · simp [enter, Supervisor.announced]

end Steps

section Arrivals
variable {s : Supervision} {n : Serial} {u : Supervisor}

theorem arrived_setPhase {phase : Phase} (hu : u ∈ (s.setPhase n phase).supervisors) :
    u ∈ s.supervisors ∨ u.phase = phase ∧ u.serial = n ∧ ∃ t ∈ s.supervisors, t.serial = n := by
  obtain ⟨t, ht, rfl⟩ := mem_setPhase.1 hu
  split
  · next own => exact .inr ⟨rfl, own, t, ht, own⟩
  · exact .inl ht

/-- A supervisor comes to kill its process only when it has been asked to. -/
theorem arrived_heed (h : s.Numbered) (hu : u ∈ (s.heed n).supervisors) :
    u ∈ s.supervisors ∨ u.phase = .ending ∧ u.token ∈ s.registry.cancelled := by
  unfold heed at hu
  split at hu
  · next pid serial token placement found =>
    split at hu
    · next asked =>
      obtain ⟨t, ht, rfl⟩ := mem_setPhase.1 hu
      by_cases own : t.serial = n
      · have same : some t = some ⟨pid, serial, token, placement, .waiting⟩ :=
          (h.supervisor?_eq_some_iff.2 ⟨ht, own⟩).symm.trans found
        cases same
        rw [if_pos own]
        exact .inr ⟨rfl, List.contains_iff_mem.1 asked⟩
      · exact .inl (by simpa [own] using ht)
    · exact .inl hu
  · exact .inl hu

theorem arrived_seeEnd {code : Int} (hu : u ∈ (s.seeEnd n code).supervisors) :
    u ∈ s.supervisors ∨ ∃ exit, u.phase = .seen exit := by
  unfold seeEnd at hu
  split at hu
  · exact (arrived_setPhase hu).imp_right fun arrived => ⟨_, arrived.1⟩
  · exact .inl hu

theorem arrived_record (hu : u ∈ (s.record n).supervisors) :
    u ∈ s.supervisors ∨ ∃ exit, u.phase = .recorded exit := by
  unfold record at hu
  split at hu
  · exact (arrived_setPhase hu).imp_right fun arrived => ⟨_, arrived.1⟩
  · exact .inl hu

theorem arrived_release (hu : u ∈ (s.release n).supervisors) :
    u ∈ s.supervisors ∨ ∃ exit, u.phase = .released exit := by
  unfold release at hu
  split at hu
  · exact (arrived_setPhase hu).imp_right fun arrived => ⟨_, arrived.1⟩
  · exact .inl hu

theorem arrived_announce (hu : u ∈ (s.announce n).supervisors) :
    u ∈ s.supervisors ∨ ∃ exit, u.phase = .done exit := by
  unfold announce at hu
  split at hu
  · next placement exit found =>
    have arrived : u ∈ (s.setPhase n (.done exit)).supervisors := by cases placement <;> exact hu
    exact (arrived_setPhase arrived).imp_right fun arrived => ⟨_, arrived.1⟩
  · exact .inl hu

theorem arrived_abort (hu : u ∈ (s.abort n).supervisors) :
    u ∈ s.supervisors ∨
      u.phase = .aborted ∧ u.serial = n ∧ ∃ t ∈ s.supervisors, t.serial = n := by
  unfold abort at hu
  split at hu
  · exact .inl hu
  · exact .inl hu
  · exact arrived_setPhase hu

end Arrivals

end Supervision

end CommandShell
