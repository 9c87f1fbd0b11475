import CommandShell.Process.Registry

/-!
What is tracked under a pid, whichever of the two maps it is in.

The maps are kept apart and free of repeated pids by every operation. Under that invariant each
operation is one equation on what is tracked, and no later proof looks into the maps again.
-/
namespace CommandShell

namespace ProcessMap

/-- No two entries of a map have the same pid. -/
def Distinct (m : ProcessMap) : Prop := (m.map Prod.fst).Nodup

theorem get?_eq_none_iff (m : ProcessMap) (pid : Pid) :
    m.get? pid = none ↔ pid ∉ m.map Prod.fst := by
  induction m with
  | nil => simp [get?]
  | cons item rest ih =>
      obtain ⟨p, entry⟩ := item
      by_cases h : pid = p
      · simp [get?_cons, h]
      · simp only [get?_cons, h, if_false, List.map_cons, List.mem_cons, false_or, ih]

theorem mem_iff_get? {m : ProcessMap} (h : m.Distinct) (pid : Pid) (entry : Entry) :
    (pid, entry) ∈ m ↔ m.get? pid = some entry := by
  induction m with
  | nil => simp [get?]
  | cons item rest ih =>
      obtain ⟨p, first⟩ := item
      obtain ⟨absent, rest_distinct⟩ := List.nodup_cons.1 h
      rw [List.mem_cons, ih rest_distinct, get?_cons]
      by_cases hp : pid = p
      · subst hp
        have none_later : ProcessMap.get? rest pid = none :=
          (get?_eq_none_iff rest pid).2 absent
        simp [none_later, eq_comm]
      · simp [hp]

theorem distinct_erase {m : ProcessMap} (h : m.Distinct) (pid : Pid) :
    (m.erase pid).Distinct :=
  h.sublist (List.filter_sublist.map Prod.fst)

theorem distinct_insert {m : ProcessMap} (h : m.Distinct) {pid : Pid} (absent : m.get? pid = none)
    (entry : Entry) : (m.insert pid entry).Distinct :=
  List.nodup_cons.2 ⟨(get?_eq_none_iff m pid).1 absent, h⟩

theorem distinct_setState {m : ProcessMap} (h : m.Distinct) (pid : Pid) (state : ProcessState) :
    (m.setState pid state).Distinct := by
  have same : (m.setState pid state).map Prod.fst = m.map Prod.fst := by
    rw [setState, List.map_map]
    refine List.map_congr_left fun item _ => ?_
    simp only [Function.comp_apply]
    split <;> rfl
  rw [Distinct, same]
  exact h

theorem mem_sorted (m : ProcessMap) (item : Pid × Entry) : item ∈ m.sorted ↔ item ∈ m :=
  List.mem_mergeSort

theorem pids_sorted {m : ProcessMap} (h : m.Distinct) :
    (m.sorted.map Prod.fst).Pairwise (· < ·) := by
  have ordered : m.sorted.Pairwise fun a b => decide (a.1 ≤ b.1) = true := by
    refine List.pairwise_mergeSort (fun a b c ab bc => ?_) (fun a b => ?_) m
    · rw [decide_eq_true_eq] at *
      exact Nat.le_trans ab bc
    · rw [Bool.or_eq_true, decide_eq_true_eq, decide_eq_true_eq]
      exact Nat.le_total a.1 b.1
  have distinct : (m.sorted.map Prod.fst).Nodup :=
    ((List.mergeSort_perm m _).map Prod.fst).nodup_iff.2 h
  rw [List.pairwise_map]
  refine (ordered.and (List.pairwise_map.1 distinct)).imp fun ⟨le, ne⟩ => ?_
  exact Nat.lt_of_le_of_ne (of_decide_eq_true le) ne

end ProcessMap

/-- A tracked process and the map that it is in. -/
structure Tracked where
  placement : Placement
  entry : Entry
deriving DecidableEq, Repr

namespace Tracked

/-- What a process becomes when it is moved to the foreground: nothing, if it is a background job
that has exited. -/
def foregrounded? : Tracked → Option Tracked
  | ⟨.background, entry⟩ =>
    match entry.state with
    | .exited _ => none
    | _ => some ⟨.running, entry⟩
  | t => some t

/-- The answer to moving a process to the foreground. -/
def foregroundAnswer : Tracked → Foreground
  | ⟨.background, entry⟩ =>
    match entry.state with
    | .exited code => .alreadyExited code
    | _ => .moved entry.name
  | _ => .notFound

end Tracked

namespace Registry

/-- What is tracked under a pid. -/
def tracked? (r : Registry) (pid : Pid) : Option Tracked :=
  ((r.running.get? pid).map (Tracked.mk .running)).or
    ((r.background.get? pid).map (Tracked.mk .background))

/-- No pid is tracked twice, in one of the maps or in both. -/
structure WellFormed (r : Registry) : Prop where
  running : r.running.Distinct
  background : r.background.Distinct
  apart : ∀ pid, r.running.get? pid = none ∨ r.background.get? pid = none

theorem wellFormed_empty : WellFormed {} where
  running := List.nodup_nil
  background := List.nodup_nil
  apart _ := .inl rfl

/-- The entry of a map is what is tracked, and says which map it is in. -/
theorem tracked?_eq_some_iff {r : Registry} (h : r.WellFormed) (pid : Pid) (t : Tracked) :
    r.tracked? pid = some t ↔
      match t.placement with
      | .running => r.running.get? pid = some t.entry
      | .background => r.background.get? pid = some t.entry := by
  obtain ⟨placement, entry⟩ := t
  unfold tracked?
  cases placement <;> rcases h.apart pid with absent | absent <;> simp [absent]

theorem tracked?_insert (r : Registry) (pid other : Pid) (name : Text) (placement : Placement)
    (token : Token) :
    (r.insert pid name placement token).tracked? other =
      if other = pid then some ⟨placement, r.nextSerial, name, .running, token⟩
      else r.tracked? other := by
  cases placement <;> by_cases h : other = pid <;>
    simp [insert, tracked?, ProcessMap.get?_insert, ProcessMap.get?_erase, h]

/-- A pid is tracked in no map, in the foreground only, or in the background only. -/
theorem WellFormed.places {r : Registry} (h : r.WellFormed) (pid : Pid) :
    (r.running.get? pid = none ∧ r.background.get? pid = none) ∨
    (∃ entry, r.running.get? pid = some entry ∧ r.background.get? pid = none) ∨
    (∃ entry, r.running.get? pid = none ∧ r.background.get? pid = some entry) := by
  have apart := h.apart pid
  cases hr : r.running.get? pid <;> cases hb : r.background.get? pid <;> simp_all

section Equations
variable {r : Registry} (h : r.WellFormed) (pid other : Pid)
include h

theorem tracked?_finish (serial : Serial) (state : ProcessState) :
    (r.finish pid serial state).tracked? other =
      (r.tracked? other).map fun t =>
        if other = pid ∧ t.entry.serial = serial then ⟨t.placement, { t.entry with state }⟩
        else t := by
  rcases h.places pid with ⟨hr, hb⟩ | ⟨entry, hr, hb⟩ | ⟨entry, hr, hb⟩
  · have untouched : r.finish pid serial state = r := by simp [finish, ProcessMap.holds, hr, hb]
    rw [untouched]
    by_cases ho : other = pid <;> simp [ho, tracked?, hr, hb]
  · by_cases hs : entry.serial = serial <;> by_cases ho : other = pid <;>
      simp [finish, tracked?, ProcessMap.get?_setState, hr, hb, hs, ho]
  · by_cases hs : entry.serial = serial <;> by_cases ho : other = pid <;>
      simp [finish, tracked?, ProcessMap.holds, ProcessMap.get?_setState, hr, hb, hs, ho]

theorem tracked?_remove (serial : Serial) :
    (r.remove pid serial).tracked? other =
      (r.tracked? other).bind fun t =>
        if other = pid ∧ t.entry.serial = serial then none else some t := by
  rcases h.places pid with ⟨hr, hb⟩ | ⟨entry, hr, hb⟩ | ⟨entry, hr, hb⟩
  · by_cases ho : other = pid <;> simp [remove, tracked?, ProcessMap.holds, hr, hb, ho]
  · by_cases hs : entry.serial = serial <;> by_cases ho : other = pid <;>
      simp [remove, tracked?, ProcessMap.holds, ProcessMap.get?_erase, hr, hb, hs, ho]
  · by_cases hs : entry.serial = serial <;> by_cases ho : other = pid <;>
      simp [remove, tracked?, ProcessMap.holds, ProcessMap.get?_erase, hr, hb, hs, ho]

theorem tracked?_kill :
    (r.kill pid).1.tracked? other = if other = pid then none else r.tracked? other := by
  rcases h.places pid with ⟨hr, hb⟩ | ⟨entry, hr, hb⟩ | ⟨entry, hr, hb⟩ <;>
    by_cases ho : other = pid <;>
    simp [kill, tracked?, ProcessMap.get?_erase, hr, hb, ho]

theorem tracked?_toForeground :
    (r.toForeground pid).1.tracked? other =
      if other = pid then (r.tracked? pid).bind Tracked.foregrounded? else r.tracked? other := by
  rcases h.places pid with ⟨hr, hb⟩ | ⟨entry, hr, hb⟩ | ⟨entry, hr, hb⟩
  · by_cases ho : other = pid <;> simp [toForeground, tracked?, hr, hb, ho]
  · by_cases ho : other = pid <;>
      simp [toForeground, tracked?, Tracked.foregrounded?, hr, hb, ho]
  · by_cases ho : other = pid <;> cases hs : entry.state <;>
      simp [toForeground, tracked?, Tracked.foregrounded?, ProcessMap.get?_erase,
        ProcessMap.get?_insert, hr, hb, hs, ho]

/-- The answer of moving a pid to the foreground depends on what is tracked under it alone. -/
theorem answer_toForeground :
    (r.toForeground pid).2 = (r.tracked? pid).elim .notFound Tracked.foregroundAnswer := by
  rcases h.places pid with ⟨hr, hb⟩ | ⟨entry, hr, hb⟩ | ⟨entry, hr, hb⟩
  · simp [toForeground, tracked?, hr, hb]
  · simp [toForeground, tracked?, Tracked.foregroundAnswer, hr, hb]
  · cases hs : entry.state <;>
      simp [toForeground, tracked?, Tracked.foregroundAnswer, hr, hb, hs]

theorem wellFormed_insert (name : Text) (placement : Placement) (token : Token) :
    (r.insert pid name placement token).WellFormed := by
  have running := ProcessMap.distinct_erase h.running pid
  have background := ProcessMap.distinct_erase h.background pid
  have apart (p : Pid) := h.apart p
  cases placement with
  | running =>
      refine ⟨ProcessMap.distinct_insert running ?_ _, background, fun p => ?_⟩
      · simp [ProcessMap.get?_erase]
      · by_cases hp : p = pid <;>
          simp [insert, ProcessMap.get?_insert, ProcessMap.get?_erase, hp, apart]
  | background =>
      refine ⟨running, ProcessMap.distinct_insert background ?_ _, fun p => ?_⟩
      · simp [ProcessMap.get?_erase]
      · by_cases hp : p = pid <;>
          simp [insert, ProcessMap.get?_insert, ProcessMap.get?_erase, hp, apart]

theorem wellFormed_finish (serial : Serial) (state : ProcessState) :
    (r.finish pid serial state).WellFormed := by
  unfold finish
  split
  · split
    · exact ⟨ProcessMap.distinct_setState h.running pid state, h.background,
        fun p => by simpa [ProcessMap.get?_setState] using h.apart p⟩
    · exact h
  · split
    · exact ⟨h.running, ProcessMap.distinct_setState h.background pid state,
        fun p => by simpa [ProcessMap.get?_setState] using h.apart p⟩
    · exact h

theorem wellFormed_evictRunning (cancelled : List Token) :
    { r with running := r.running.erase pid, cancelled }.WellFormed := by
  refine ⟨ProcessMap.distinct_erase h.running pid, h.background, fun p => ?_⟩
  have apart := h.apart p
  by_cases hp : p = pid <;> simp [ProcessMap.get?_erase, hp, apart]

theorem wellFormed_evictBackground (cancelled : List Token) :
    { r with background := r.background.erase pid, cancelled }.WellFormed := by
  refine ⟨h.running, ProcessMap.distinct_erase h.background pid, fun p => ?_⟩
  have apart := h.apart p
  by_cases hp : p = pid <;> simp [ProcessMap.get?_erase, hp, apart]

theorem wellFormed_remove (serial : Serial) : (r.remove pid serial).WellFormed := by
  unfold remove
  split
  · exact wellFormed_evictRunning h pid r.cancelled
  · split
    · exact wellFormed_evictBackground h pid r.cancelled
    · exact h

theorem wellFormed_kill : (r.kill pid).1.WellFormed := by
  unfold kill
  split
  · exact wellFormed_evictRunning h pid _
  · split
    · exact wellFormed_evictBackground h pid _
    · exact h

theorem wellFormed_toForeground : (r.toForeground pid).1.WellFormed := by
  unfold toForeground
  split
  · exact h
  · have evicted := wellFormed_evictBackground h pid r.cancelled
    dsimp only
    split
    · exact evicted
    · refine ⟨ProcessMap.distinct_insert (ProcessMap.distinct_erase h.running pid) ?_ _,
        evicted.background, fun p => ?_⟩
      · simp [ProcessMap.get?_erase]
      · have apart := h.apart p
        by_cases hp : p = pid <;>
          simp [ProcessMap.get?_insert, ProcessMap.get?_erase, hp, apart]

theorem cancelled_kill :
    (r.kill pid).1.cancelled =
      ((r.tracked? pid).map fun t => t.entry.token).toList ++ r.cancelled := by
  rcases h.places pid with ⟨hr, hb⟩ | ⟨entry, hr, hb⟩ | ⟨entry, hr, hb⟩ <;>
    simp [kill, tracked?, hr, hb]

theorem mem_cancelled_kill (token : Token) :
    token ∈ (r.kill pid).1.cancelled ↔
      (∃ t, r.tracked? pid = some t ∧ t.entry.token = token) ∨ token ∈ r.cancelled := by
  rw [cancelled_kill h, List.mem_append, Option.mem_toList, Option.map_eq_some_iff]

theorem hit_kill : (r.kill pid).2 = (r.tracked? pid).isSome := by
  rcases h.places pid with ⟨hr, hb⟩ | ⟨entry, hr, hb⟩ | ⟨entry, hr, hb⟩ <;>
    simp [kill, tracked?, hr, hb]

/-- The entries of both maps are what is tracked. -/
theorem mem_maps_iff (entry : Entry) :
    (pid, entry) ∈ r.running ++ r.background ↔
      ∃ placement, r.tracked? pid = some ⟨placement, entry⟩ := by
  rw [List.mem_append, ProcessMap.mem_iff_get? h.running, ProcessMap.mem_iff_get? h.background]
  constructor
  · rintro (found | found)
    · exact ⟨.running, (tracked?_eq_some_iff h pid _).2 found⟩
    · exact ⟨.background, (tracked?_eq_some_iff h pid _).2 found⟩
  · rintro ⟨placement, found⟩
    have place := (tracked?_eq_some_iff h pid _).1 found
    cases placement with
    | running => exact .inl place
    | background => exact .inr place

theorem pids_nodup : ((r.running ++ r.background).map Prod.fst).Nodup := by
  rw [List.map_append, List.nodup_append]
  refine ⟨h.running, h.background, ?_⟩
  rintro pid hr _ hb rfl
  rcases h.apart pid with absent | absent
  · exact (ProcessMap.get?_eq_none_iff _ _).1 absent hr
  · exact (ProcessMap.get?_eq_none_iff _ _).1 absent hb

theorem mem_pids_iff :
    pid ∈ (r.running ++ r.background).map Prod.fst ↔ (r.tracked? pid).isSome := by
  simp only [List.mem_map, Prod.exists, exists_and_right, exists_eq_right, mem_maps_iff h,
    Option.isSome_iff_exists]
  exact ⟨fun ⟨entry, placement, found⟩ => ⟨_, found⟩, fun ⟨t, found⟩ => ⟨_, _, found⟩⟩

theorem mem_cancelled_drain (token : Token) :
    token ∈ r.drain.1.cancelled ↔
      (∃ pid t, r.tracked? pid = some t ∧ t.entry.token = token) ∨ token ∈ r.cancelled := by
  simp only [drain, List.mem_append, List.mem_map, Prod.exists]
  refine or_congr_left ⟨?_, ?_⟩
  · rintro ⟨pid, entry, found, rfl⟩
    obtain ⟨placement, tracked⟩ := (mem_maps_iff h pid entry).1 (List.mem_append.2 found)
    exact ⟨pid, _, tracked, rfl⟩
  · rintro ⟨pid, t, tracked, rfl⟩
    exact ⟨pid, t.entry, List.mem_append.1 ((mem_maps_iff h pid t.entry).2 ⟨_, tracked⟩), rfl⟩

theorem contains_iff (placement : Placement) :
    r.contains pid placement = true ↔ ∃ entry, r.tracked? pid = some ⟨placement, entry⟩ := by
  simp only [tracked?_eq_some_iff h]
  cases placement <;> simp [contains, Option.isSome_iff_exists]

omit h in
theorem pids_jobs : r.jobs.map Job.pid = r.background.sorted.map Prod.fst := by
  simp [jobs, Function.comp_def]

theorem mem_jobs_iff (job : Job) :
    job ∈ r.jobs ↔ ∃ entry, r.tracked? job.pid = some ⟨.background, entry⟩ ∧
      job.name = entry.name ∧ job.state = entry.state := by
  simp only [jobs, List.mem_map, ProcessMap.mem_sorted, Prod.exists,
    ProcessMap.mem_iff_get? h.background, tracked?_eq_some_iff h]
  constructor
  · rintro ⟨pid, entry, found, rfl⟩
    exact ⟨entry, found, rfl, rfl⟩
  · rintro ⟨entry, found, name, state⟩
    exact ⟨job.pid, entry, found, by rw [← name, ← state]⟩

theorem mem_runningPids_iff :
    pid ∈ r.runningPids ↔ ∃ entry, r.tracked? pid = some ⟨.running, entry⟩ := by
  simp only [runningPids, List.mem_map, ProcessMap.mem_sorted, Prod.exists, exists_and_right,
    exists_eq_right, ProcessMap.mem_iff_get? h.running, tracked?_eq_some_iff h]

end Equations

theorem isCancelled_iff (r : Registry) (token : Token) :
    r.isCancelled token = true ↔ token ∈ r.cancelled := List.contains_iff_mem

theorem wellFormed_drain (r : Registry) : r.drain.1.WellFormed where
  running := List.nodup_nil
  background := List.nodup_nil
  apart _ := .inl rfl

@[simp] theorem tracked?_drain (r : Registry) (pid : Pid) : r.drain.1.tracked? pid = none := rfl

section Counters
variable (r : Registry) (pid : Pid) (serial : Serial)

@[simp] theorem nextSerial_insert (name : Text) (placement : Placement) (token : Token) :
    (r.insert pid name placement token).nextSerial = r.nextSerial + 1 := by
  cases placement <;> rfl

@[simp] theorem cancelled_insert (name : Text) (placement : Placement) (token : Token) :
    (r.insert pid name placement token).cancelled = r.cancelled := by
  cases placement <;> rfl

@[simp] theorem nextSerial_finish (state : ProcessState) :
    (r.finish pid serial state).nextSerial = r.nextSerial := by
  unfold finish
  split <;> split <;> rfl

@[simp] theorem cancelled_finish (state : ProcessState) :
    (r.finish pid serial state).cancelled = r.cancelled := by
  unfold finish
  split <;> split <;> rfl

@[simp] theorem nextSerial_remove : (r.remove pid serial).nextSerial = r.nextSerial := by
  unfold remove
  split
  · rfl
  · split <;> rfl

@[simp] theorem cancelled_remove : (r.remove pid serial).cancelled = r.cancelled := by
  unfold remove
  split
  · rfl
  · split <;> rfl

@[simp] theorem nextSerial_kill : (r.kill pid).1.nextSerial = r.nextSerial := by
  unfold kill
  split
  · rfl
  · split <;> rfl

@[simp] theorem nextSerial_toForeground : (r.toForeground pid).1.nextSerial = r.nextSerial := by
  unfold toForeground
  split
  · rfl
  · dsimp only
    split <;> rfl

@[simp] theorem cancelled_toForeground : (r.toForeground pid).1.cancelled = r.cancelled := by
  unfold toForeground
  split
  · rfl
  · dsimp only
    split <;> rfl

end Counters

end Registry

end CommandShell
