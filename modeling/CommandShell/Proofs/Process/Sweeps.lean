import CommandShell.Proofs.Process.Killing

/-!
What a call that kills the foreground cancels, while others act between its steps.

It reads the pids first and then kills one after the other. By the turn of a pid the process that
was read may be gone and its pid given to a new one, also to a job in the background, and the kill
reaches that. Nothing else in the background is ever reached.
-/
namespace CommandShell

/-- The tokens of the entries of a map. -/
def ProcessMap.tokens (m : ProcessMap) : List Token := m.map fun item => item.2.token

namespace Transition

/-- The tokens by which a step has requested the end of processes. -/
def requested (step : Transition) : List Token :=
  step.after.registry.cancelled.filter fun token => !step.before.registry.isCancelled token

end Transition

/-- The tokens that the steps of a sweep have cancelled in a history. -/
def sweptBy (i : Nat) (past : List Transition) : List Token :=
  (past.filter fun step => step.action = .sweep i).flatMap Transition.requested

/-- At some time in a history the entry with a token has been in the foreground. -/
def WasRunning (past : List Transition) (token : Token) : Prop :=
  ∃ step ∈ past, token ∈ step.after.registry.running.tokens

/-- A token was given to a background job that was started after a sweep had read the pids, under
one of the pids it had read. -/
def Reused (i : Nat) (past : List Transition) (token : Token) : Prop :=
  ∃ earlier read later, past = earlier ++ read :: later ∧
    read.action = .beginSweep ∧ read.before.sweeps.length = i ∧
    ∃ step ∈ later, ∃ pid ∈ read.before.registry.runningPids, ∃ name,
      step.action = .spawn pid name .background ∧ step.before.supervision.nextToken = token

theorem sweptBy_append (i : Nat) (past : List Transition) (step : Transition) :
    sweptBy i (past ++ [step]) =
      sweptBy i past ++ if step.action = .sweep i then step.requested else [] := by
  by_cases own : step.action = .sweep i <;> simp [sweptBy, own]

theorem wasRunning_append {past : List Transition} {step : Transition} {token : Token} :
    WasRunning (past ++ [step]) token ↔
      WasRunning past token ∨ token ∈ step.after.registry.running.tokens := by
  simp [WasRunning, or_and_right, exists_or]

theorem Reused.append {i : Nat} {past : List Transition} {token : Token} (h : Reused i past token)
    (step : Transition) : Reused i (past ++ [step]) token := by
  obtain ⟨earlier, read, later, rfl, action, index, spawned, member, rest⟩ := h
  exact ⟨earlier, read, later ++ [step], by simp, action, index, spawned,
    List.mem_append_left _ member, rest⟩

namespace Registry

section Tokens
variable {r : Registry} (h : r.WellFormed)
include h

theorem mem_running_tokens_iff (token : Token) :
    token ∈ r.running.tokens ↔
      ∃ pid entry, r.tracked? pid = some ⟨.running, entry⟩ ∧ entry.token = token := by
  simp only [ProcessMap.tokens, List.mem_map, Prod.exists, ProcessMap.mem_iff_get? h.running,
    tracked?_eq_some_iff h]

theorem mem_background_tokens_iff (token : Token) :
    token ∈ r.background.tokens ↔
      ∃ pid entry, r.tracked? pid = some ⟨.background, entry⟩ ∧ entry.token = token := by
  simp only [ProcessMap.tokens, List.mem_map, Prod.exists, ProcessMap.mem_iff_get? h.background,
    tracked?_eq_some_iff h]

/-- A kill cancels the token of what is tracked, and no other. -/
theorem requested_kill {pid : Pid}
    (spared : ∀ x, r.tracked? pid = some x → x.entry.token ∉ r.cancelled) :
    ((r.kill pid).1.cancelled.filter fun token => !r.isCancelled token) =
      ((r.tracked? pid).map fun t => t.entry.token).toList := by
  have old : (r.cancelled.filter fun token => !r.isCancelled token) = [] :=
    List.filter_eq_nil_iff.2 fun token asked => by simp [(isCancelled_iff r token).2 asked]
  rw [cancelled_kill h, List.filter_append, old, List.append_nil]
  cases found : r.tracked? pid with
  | none => rfl
  | some x =>
      have new : r.isCancelled x.entry.token = false :=
        Bool.eq_false_iff.2 fun asked => spared x found ((isCancelled_iff r _).1 asked)
      simp [new]

end Tokens

end Registry

namespace Supervision

theorem Numbered.nextToken_eq {s : Supervision} (h : s.Numbered) :
    s.nextToken = s.supervisors.length := by
  simpa using (congrArg List.length h.tokens).symm

variable {s : Supervision} (h : s.Sound)
include h

theorem token_lt {pid : Pid} {x : Tracked} (found : s.registry.tracked? pid = some x) :
    x.entry.token < s.nextToken := by
  obtain ⟨t, ht, -, owns, -⟩ := h.owned pid x found
  exact owns.token ▸ h.numbered.token_lt ht

end Supervision

namespace World

section Steps
variable {w w' : World} {action : Action} (h : w.Sound) (step : w.Step action w')
include h step

/-- What is tracked after a step was tracked before it, or has just been started. -/
theorem origin_step {pid : Pid} {x : Tracked} (found : w'.registry.tracked? pid = some x) :
    (∃ old, w.registry.tracked? pid = some old ∧ x.Continues old) ∨
      x.entry.token = w.supervision.nextToken ∧ ∃ name, action = .spawn pid name x.placement := by
  rcases registry_step h step with ⟨n, moved⟩ | ⟨p, name, placement, spawned, started⟩ | allowed
  · exact .inl (Supervision.origin_advance h.supervision moved found)
  · rw [World.registry, started] at found
    change (w.registry.insert p name placement _).tracked? pid = some x at found
    rw [Registry.tracked?_insert] at found
    split at found
    · next same =>
      cases found
      exact .inr ⟨rfl, name, by rw [spawned, same]⟩
    · exact .inl ⟨x, found, .refl x⟩
  · obtain ⟨old, before, kept, -⟩ := allowed.origin pid x found
    exact .inl ⟨old, before, kept⟩

theorem nextToken_le : w.supervision.nextToken ≤ w'.supervision.nextToken := by
  rw [h.supervision.numbered.nextToken_eq,
    (sound_step h step).supervision.numbered.nextToken_eq]
  rcases supervision_step step with ⟨n, -, moved⟩ | ⟨pid, name, placement, -, started⟩ |
    ⟨-, -, same, -⟩
  · obtain ⟨f, supervisors, -⟩ := h.supervision.numbered.supervisors_advance moved
    exact Nat.le_of_eq (by rw [supervisors, List.length_map])
  · rw [started]
    simp [Supervision.start]
  · exact Nat.le_of_eq (congrArg List.length same).symm

/-- A supervisor after a step was there before it, or has just been started. -/
theorem started_step {u : Supervisor} (hu : u ∈ w'.supervisors) :
    (∃ t ∈ w.supervisors, t.Becomes u) ∨
      u.token = w.supervision.nextToken ∧ ∃ name, action = .spawn u.pid name u.placement := by
  rcases supervision_step step with ⟨n, -, moved⟩ | ⟨pid, name, placement, same, started⟩ |
    ⟨-, -, supervisors, -⟩
  · obtain ⟨f, supervisors, becomes⟩ := h.supervision.numbered.supervisors_advance moved
    rw [World.supervisors, supervisors] at hu
    obtain ⟨t, ht, rfl⟩ := List.mem_map.1 hu
    exact .inl ⟨t, ht, becomes t ht⟩
  · rw [World.supervisors, started] at hu
    rcases List.mem_append.1 hu with old | new
    · exact .inl ⟨u, old, .refl u⟩
    · cases List.mem_singleton.1 new
      exact .inr ⟨rfl, name, same⟩
  · exact .inl ⟨u, supervisors ▸ hu, .refl u⟩

/-- A request that has been made stays made. -/
theorem cancelled_step {token : Token} (asked : token ∈ w.registry.cancelled) :
    token ∈ w'.registry.cancelled := by
  rcases registry_step h step with ⟨n, moved⟩ | ⟨pid, name, placement, -, started⟩ | allowed
  · exact (Supervision.cancelled_advance moved).symm ▸ asked
  · rw [World.registry, started]
    exact (Registry.cancelled_insert ..).symm ▸ asked
  · exact allowed.cancelled token asked

omit h in
/-- A step goes on with a sweep, begins it, or leaves it as it is. -/
theorem sweep_step (i : Nat) :
    (action = .sweep i ∧ ∃ pid left count, w.sweeps[i]? = some ⟨pid :: left, count⟩ ∧
      w'.supervision = (w.supervision.kill pid).1 ∧
      w'.sweeps[i]? = some ⟨left, if (w.supervision.kill pid).2 then count + 1 else count⟩) ∨
    (action = .beginSweep ∧ i = w.sweeps.length ∧ w'.supervision = w.supervision ∧
      w'.sweeps[i]? = some { left := w.registry.runningPids }) ∨
    action ≠ .sweep i ∧ w'.sweeps[i]? = w.sweeps[i]? := by
  cases step with
  | beginSweep =>
      by_cases new : i = w.sweeps.length
      · exact .inr (.inl ⟨rfl, new, rfl, by rw [new, List.getElem?_concat_length]⟩)
      · refine .inr (.inr ⟨nofun, ?_⟩)
        rcases Nat.lt_or_gt_of_ne new with old | beyond
        · exact List.getElem?_append_left old
        · rw [List.getElem?_eq_none (Nat.le_of_lt beyond), List.getElem?_eq_none]
          simpa using Nat.succ_le_of_lt beyond
  | @sweep j pid left count found =>
      by_cases same : j = i
      · subst same
        refine .inl ⟨rfl, pid, left, count, found, rfl, ?_⟩
        exact List.getElem?_set_self (List.getElem?_eq_some_iff.1 found).1
      · exact .inr (.inr ⟨fun h => same (Action.sweep.inj h), List.getElem?_set_ne same⟩)
  | spawn | exit | collect | see | fail | heed | record | release | announce | abort | kill |
    toForeground | drain | await | answer | abandon => exact .inr (.inr ⟨nofun, rfl⟩)

end Steps

section Runs
variable {past : List Transition} {w : World} (history : History past w)
include history

theorem token_lt_of_wasRunning {token : Token} (was : WasRunning past token) :
    token < w.supervision.nextToken := by
  induction history with
  | start =>
      obtain ⟨_, member, -⟩ := was
      cases member
  | @step past w action w' history step ih =>
      have sound := sound_history history
      rcases wasRunning_append.1 was with old | new
      · exact Nat.lt_of_lt_of_le (ih old) (nextToken_le sound step)
      · have after := (sound_step sound step).supervision
        obtain ⟨pid, entry, found, rfl⟩ :=
          (Registry.mem_running_tokens_iff after.formed token).1 new
        exact Supervision.token_lt after found

theorem wasRunning_of_running {token : Token} (running : token ∈ w.registry.running.tokens) :
    WasRunning past token := by
  cases history with
  | start => cases running
  | step => exact wasRunning_append.2 (.inr running)

/-- Entries only ever move from the background to the foreground. -/
theorem not_wasRunning_of_background {pid : Pid} {x : Tracked}
    (found : w.registry.tracked? pid = some x) (background : x.placement = .background) :
    ¬WasRunning past x.entry.token := by
  induction history generalizing pid x with
  | start => cases found
  | @step past w action w' history step ih =>
      have sound := sound_history history
      have after := (sound_step sound step).supervision
      rw [wasRunning_append, not_or]
      constructor
      · rcases origin_step sound step found with ⟨old, before, kept⟩ | ⟨new, -⟩
        · rw [kept.token]
          exact ih before (kept.placement background)
        · -- Its token has just been given out, and whatever has run had a smaller one.
          intro was
          exact Nat.lt_irrefl _ (new ▸ token_lt_of_wasRunning history was)
      · intro running
        obtain ⟨p, entry, there, same⟩ :=
          (Registry.mem_running_tokens_iff after.formed _).1 running
        obtain rfl := Supervision.pid_of_token after there found same
        rw [found] at there
        cases there
        cases background

/-- What is tracked is in the foreground exactly if it has been there at some time. -/
theorem wasRunning_iff_of_tracked {pid : Pid} {x : Tracked}
    (found : w.registry.tracked? pid = some x) :
    (x.entry.token ∈ w.registry.running.tokens ↔ WasRunning past x.entry.token) ∧
      (x.entry.token ∈ w.registry.background.tokens ↔ ¬WasRunning past x.entry.token) := by
  have formed := (sound_history history).supervision.formed
  have never (background : x.entry.token ∈ w.registry.background.tokens) :
      ¬WasRunning past x.entry.token := by
    obtain ⟨p, entry, there, same⟩ := (Registry.mem_background_tokens_iff formed _).1 background
    exact same ▸ not_wasRunning_of_background history there rfl
  have was : x.entry.token ∈ w.registry.running.tokens → WasRunning past x.entry.token :=
    wasRunning_of_running history
  have place : x.entry.token ∈ w.registry.running.tokens ∨
      x.entry.token ∈ w.registry.background.tokens := by
    rw [Registry.mem_running_tokens_iff formed, Registry.mem_background_tokens_iff formed]
    obtain ⟨_ | _, entry⟩ := x
    · exact .inl ⟨pid, entry, found, rfl⟩
    · exact .inr ⟨pid, entry, found, rfl⟩
  exact ⟨⟨was, fun h => place.resolve_right fun background => never background h⟩,
    never, fun h => place.resolve_left fun running => h (was running)⟩

/-- Nothing is in the foreground with a token that has been cancelled. -/
theorem not_running_of_cancelled {token : Token} (asked : token ∈ w.registry.cancelled) :
    token ∉ w.registry.running.tokens := by
  intro running
  have formed := (sound_history history).supervision.formed
  obtain ⟨pid, entry, found, rfl⟩ := (Registry.mem_running_tokens_iff formed token).1 running
  exact ((unkilled_history history).spared pid _ found).1 asked

/-- What a step of a sweep cancels was tracked under the pid whose turn it was. -/
theorem requested_sweep {w' : World} {action : Action} {pid : Pid}
    (killed : w'.supervision = (w.supervision.kill pid).1) :
    Transition.requested ⟨w, action, w'⟩ =
      ((w.registry.tracked? pid).map fun t => t.entry.token).toList := by
  have after : w'.registry = (w.registry.kill pid).1 := congrArg Supervision.registry killed
  rw [Transition.requested, after]
  exact Registry.requested_kill (sound_history history).supervision.formed fun x found =>
    ((unkilled_history history).spared pid x found).1

/-- A sweep has counted the tokens that its steps have cancelled. -/
theorem count_of_history (i : Nat) :
    (w.sweeps[i]?).elim 0 Sweep.count = (sweptBy i past).length := by
  induction history with
  | start => rfl
  | @step past w action w' history step ih =>
      rw [sweptBy_append, List.length_append, ← ih]
      rcases sweep_step step i with ⟨rfl, pid, left, count, found, killed, after⟩ |
        ⟨rfl, rfl, -, after⟩ | ⟨other, after⟩
      · have hit : (w.supervision.kill pid).2 = (w.registry.tracked? pid).isSome :=
          Registry.hit_kill (sound_history history).supervision.formed pid
        rw [after, found, if_pos rfl, requested_sweep history killed, hit]
        cases w.registry.tracked? pid <;> rfl
      · rw [after, List.getElem?_eq_none (Nat.le_refl _)]
        rfl
      · rw [after, if_neg other]
        rfl

/-- No token is cancelled twice. -/
theorem nodup_sweptBy (i : Nat) :
    (sweptBy i past).Nodup ∧ ∀ token ∈ sweptBy i past, token ∈ w.registry.cancelled := by
  induction history with
  | start => exact ⟨List.nodup_nil, nofun⟩
  | @step past w action w' history step ih =>
      obtain ⟨nodup, asked⟩ := ih
      have kept token (member : token ∈ sweptBy i past) : token ∈ w'.registry.cancelled :=
        cancelled_step (sound_history history) step (asked token member)
      rw [sweptBy_append]
      rcases sweep_step step i with ⟨rfl, pid, left, count, -, killed, -⟩ | ⟨rfl, -⟩ | ⟨other, -⟩
      · rw [if_pos rfl]
        refine ⟨nodup.append ?_ fun token old new => ?_, fun token member => ?_⟩
        · rw [requested_sweep history killed]
          cases w.registry.tracked? pid <;> simp
        · have fresh := (List.mem_filter.1 new).2
          simp [(Registry.isCancelled_iff _ _).2 (asked token old)] at fresh
        · exact (List.mem_append.1 member).elim (kept token) fun new => (List.mem_filter.1 new).1
      · simpa using ⟨nodup, kept⟩
      · simpa [other] using ⟨nodup, kept⟩

end Runs

/-- What holds since a sweep has read the pids: those that are left were among them, and whatever
is in the background under one of these has been started since. -/
structure Since (read : World) (later : List Transition) (w : World) (left : List Pid) : Prop where
  among : ∀ pid ∈ left, pid ∈ read.registry.runningPids
  given : read.supervision.nextToken ≤ w.supervision.nextToken
  fresh : ∀ pid ∈ left, ∀ x, w.registry.tracked? pid = some x → x.placement = .background →
    read.supervision.nextToken ≤ x.entry.token
  started : ∀ t ∈ w.supervisors, read.supervision.nextToken ≤ t.token → ∃ step ∈ later,
    (∃ name, step.action = .spawn t.pid name t.placement) ∧
      step.before.supervision.nextToken = t.token

theorem since_read {w w' : World} (h : w.Sound) (same : w'.supervision = w.supervision) :
    Since w [] w' w.registry.runningPids where
  among _ := id
  given := Nat.le_of_eq (congrArg Supervision.nextToken same.symm)
  fresh pid listed x found background := by
    obtain ⟨entry, running⟩ := (Registry.mem_runningPids_iff h.supervision.formed pid).1 listed
    rw [World.registry, same, running] at found
    cases found
    cases background
  started t ht given := by
    rw [World.supervisors, same] at ht
    exact absurd (h.supervision.numbered.token_lt ht) (Nat.not_lt_of_le given)

theorem Since.step {read w w' : World} {later : List Transition} {left left' : List Pid}
    (since : Since read later w left) {action : Action} (h : w.Sound) (step : w.Step action w')
    (remaining : left' ⊆ left) : Since read (later ++ [⟨w, action, w'⟩]) w' left' where
  among pid member := since.among pid (remaining member)
  given := Nat.le_trans since.given (nextToken_le h step)
  fresh pid member x found background := by
    rcases origin_step h step found with ⟨old, before, kept⟩ | ⟨new, -⟩
    · rw [kept.token]
      exact since.fresh pid (remaining member) old before (kept.placement background)
    · rw [new]
      exact since.given
  started u hu given := by
    rcases started_step h step hu with ⟨t, ht, becomes⟩ | ⟨new, name, spawned⟩
    · rw [becomes.token] at given
      obtain ⟨spawn, member, rest⟩ := since.started t ht given
      rw [becomes.pid, becomes.placement, becomes.token]
      exact ⟨spawn, List.mem_append_left _ member, rest⟩
    · exact ⟨_, List.mem_append_right _ (List.mem_singleton_self _), ⟨name, spawned⟩, new.symm⟩

theorem since_of_history {past : List Transition} {w : World} (history : History past w) {i : Nat}
    {sweep : Sweep} (found : w.sweeps[i]? = some sweep) :
    ∃ earlier read later, past = earlier ++ read :: later ∧ read.action = .beginSweep ∧
      read.before.sweeps.length = i ∧ Since read.before later w sweep.left := by
  induction history generalizing sweep with
  | start => cases found
  | @step past w action w' history step ih =>
      have sound := sound_history history
      have continues {old : Sweep} (before : w.sweeps[i]? = some old)
          (remaining : sweep.left ⊆ old.left) : ∃ earlier read later,
          past ++ [⟨w, action, w'⟩] = earlier ++ read :: later ∧ read.action = .beginSweep ∧
            read.before.sweeps.length = i ∧ Since read.before later w' sweep.left := by
        obtain ⟨earlier, read, later, rfl, begins, index, since⟩ := ih before
        exact ⟨earlier, read, later ++ [⟨w, action, w'⟩], by simp, begins, index,
          since.step sound step remaining⟩
      rcases sweep_step step i with ⟨-, pid, left, count, before, -, after⟩ |
        ⟨begins, index, same, after⟩ | ⟨-, after⟩
      · cases after.symm.trans found
        exact continues before (List.subset_cons_self pid left)
      · cases after.symm.trans found
        exact ⟨past, ⟨w, action, w'⟩, [], rfl, begins, index.symm, since_read sound same⟩
      · exact continues (after ▸ found) (List.Subset.refl _)

/-- A background job that a sweep cancels has been started after the sweep had read its pid. -/
theorem reused_of_background {past : List Transition} {w : World} (history : History past w)
    {i count : Nat} {pid : Pid} {left : List Pid} (found : w.sweeps[i]? = some ⟨pid :: left, count⟩)
    {x : Tracked} (tracked : w.registry.tracked? pid = some x)
    (background : x.placement = .background) : Reused i past x.entry.token := by
  obtain ⟨earlier, read, later, rfl, begins, index, since⟩ := since_of_history history found
  have listed : pid ∈ pid :: left := List.mem_cons_self
  obtain ⟨t, ht, rfl, owns, -⟩ := (sound_history history).supervision.owned pid x tracked
  have given := since.fresh t.pid listed x tracked background
  obtain ⟨step, member, ⟨name, spawned⟩, token⟩ := since.started t ht (owns.token ▸ given)
  rw [owns.placement background] at spawned
  exact ⟨earlier, read, later, rfl, begins, index, step, member, t.pid,
    since.among t.pid listed, name, spawned, token.trans owns.token.symm⟩

/-- What a step of a sweep has cancelled, and where that was at its turn. -/
structure Place (i : Nat) (past : List Transition) (r : Registry) (token : Token) : Prop where
  running : token ∈ r.running.tokens ↔ WasRunning past token
  background : token ∈ r.background.tokens ↔ ¬WasRunning past token
  reused : ¬WasRunning past token → Reused i past token

theorem place_of_sweep {past : List Transition} {w w' : World} (history : History past w) {i : Nat}
    (step : w.Step (.sweep i) w') {token : Token}
    (requested : token ∈ Transition.requested ⟨w, .sweep i, w'⟩) :
    Place i past w.registry token := by
  obtain ⟨-, pid, left, count, found, killed, -⟩ | ⟨begins, -⟩ | ⟨other, -⟩ := sweep_step step i
  · rw [requested_sweep history killed, Option.mem_toList, Option.map_eq_some_iff] at requested
    obtain ⟨⟨placement, entry⟩, tracked, rfl⟩ := requested
    obtain ⟨running, background⟩ := wasRunning_iff_of_tracked history tracked
    refine ⟨running, background, fun never => reused_of_background history found tracked ?_⟩
    cases placement with
    | running =>
        have formed := (sound_history history).supervision.formed
        have there := (Registry.mem_running_tokens_iff formed _).2 ⟨pid, entry, tracked, rfl⟩
        exact absurd (running.1 there) never
    | background => rfl
  · cases begins
  · exact absurd rfl other

theorem places_of_history {past : List Transition} {w : World} (history : History past w)
    {i : Nat} : ∀ step ∈ past, step.action = .sweep i → ∀ token ∈ step.requested,
      token ∈ w.registry.cancelled ∧ Place i past step.before.registry token := by
  induction history with
  | start => nofun
  | @step past w action w' history last ih =>
      -- The last step puts nothing into the foreground whose token is cancelled by then.
      have kept {r : Registry} {token : Token} (asked : token ∈ w'.registry.cancelled)
          (place : Place i past r token) : Place i (past ++ [⟨w, action, w'⟩]) r token := by
        have same : WasRunning (past ++ [⟨w, action, w'⟩]) token ↔ WasRunning past token := by
          rw [wasRunning_append]
          exact or_iff_left (not_running_of_cancelled (history.step last) asked)
        exact ⟨place.running.trans same.symm, place.background.trans (not_congr same.symm),
          fun never => (place.reused (mt same.2 never)).append _⟩
      intro step member swept token requested
      rcases List.mem_append.1 member with old | new
      · obtain ⟨before, place⟩ := ih step old swept token requested
        have asked := cancelled_step (sound_history history) last before
        exact ⟨asked, kept asked place⟩
      · obtain rfl := List.mem_singleton.1 new
        obtain rfl : action = .sweep i := swept
        have asked : token ∈ w'.registry.cancelled := (List.mem_filter.1 requested).1
        exact ⟨asked, kept asked (place_of_sweep history last requested)⟩

/-- A sweep that nobody interrupts. -/
theorem sweep_rest {past : List Transition} {w : World} (history : History past w) {i : Nat}
    {left : List Pid} {count : Nat} (found : w.sweeps[i]? = some ⟨left, count⟩) :
    ∃ later w', History (past ++ later) w' ∧
      later.map Transition.action = List.replicate left.length (.sweep i) ∧
      w'.supervision = { w.supervision with registry := (w.registry.killEach left).1 } ∧
      w'.sweeps[i]? = some ⟨[], count + (w.registry.killEach left).2⟩ := by
  induction left generalizing past w count with
  | nil => exact ⟨[], w, by simpa using history, rfl, rfl, found⟩
  | cons pid left ih =>
      have step := Step.sweep found
      obtain ⟨-, _, _, _, same, -, after⟩ | ⟨begins, -⟩ | ⟨other, -⟩ := sweep_step step i
      · cases found.symm.trans same
        obtain ⟨later, w', run, actions, supervision, ends⟩ := ih (history.step step) after
        rw [List.append_assoc] at run
        refine ⟨_, w', run, ?_, supervision, ?_⟩
        · rw [List.singleton_append, List.map_cons, actions]
          rfl
        · have counted (hit : Bool) (n : Nat) :
              (if hit then count + 1 else count) + n = count + if hit then n + 1 else n := by
            cases hit
            · rfl
            · exact Nat.succ_add_eq_add_succ count n
          exact ends.trans (congrArg (fun n => some (⟨[], n⟩ : Sweep)) (counted _ _))
      · cases begins
      · exact absurd rfl other

/-- The call of a shell that kills the foreground is a sweep that nobody interrupts. -/
theorem killRunning_of_history {past : List Transition} {w : World} (history : History past w) :
    ∃ later w', History (past ++ later) w' ∧
      later.map Transition.action =
        .beginSweep :: List.replicate w.registry.runningPids.length (.sweep w.sweeps.length) ∧
      w'.supervision = w.supervision.killRunning.1 ∧
      w'.sweeps[w.sweeps.length]? = some ⟨[], w.supervision.killRunning.2⟩ := by
  have begun : (w.sweeps ++ [⟨w.registry.runningPids, 0⟩])[w.sweeps.length]? =
      some ⟨w.registry.runningPids, 0⟩ := List.getElem?_concat_length
  obtain ⟨later, w', run, actions, supervision, ends⟩ :=
    sweep_rest (history.step (.beginSweep w)) begun
  rw [List.append_assoc] at run
  refine ⟨_, w', run, ?_, supervision, ?_⟩
  · rw [List.singleton_append, List.map_cons, actions]
  · rw [ends, Nat.zero_add]
    rfl

theorem mem_sweptBy {i : Nat} {past : List Transition} {token : Token} :
    token ∈ sweptBy i past ↔
      ∃ step ∈ past, step.action = .sweep i ∧ token ∈ step.requested := by
  simp [sweptBy, and_assoc]

/-- Whatever comes between the steps of a sweep: it has counted the tokens that it has cancelled,
each of them once. What it found in the foreground and cancelled is what has been there at some
time. What it found in the background and cancelled has never been in the foreground, and is a job
that was started after the sweep had read the pids, under one of these. So it has cancelled nothing
but what was running exactly if it found nothing in the background at the turn of any pid. -/
theorem swept_of_history {past : List Transition} {w : World} (history : History past w) {i : Nat}
    {sweep : Sweep} (begun : w.sweeps[i]? = some sweep) :
    sweep.count = (sweptBy i past).length ∧ (sweptBy i past).Nodup ∧
    (∀ step ∈ past, step.action = .sweep i → ∀ token ∈ step.requested,
      (token ∈ step.before.registry.running.tokens ↔ WasRunning past token) ∧
      (token ∈ step.before.registry.background.tokens ↔ ¬WasRunning past token) ∧
      (¬WasRunning past token → Reused i past token)) ∧
    ((∀ token ∈ sweptBy i past, WasRunning past token) ↔
      ∀ step ∈ past, step.action = .sweep i → ∀ token ∈ step.requested,
        token ∉ step.before.registry.background.tokens) := by
  have count := count_of_history history i
  rw [begun, Option.elim_some] at count
  have place {step : Transition} (member : step ∈ past) (swept : step.action = .sweep i)
      {token : Token} (requested : token ∈ step.requested) :=
    (places_of_history history step member swept token requested).2
  refine ⟨count, (nodup_sweptBy history i).1, fun step member swept token requested => ?_,
    fun spares step member swept token requested background => ?_, fun spared token swept => ?_⟩
  · obtain ⟨running, background, reused⟩ := place member swept requested
    exact ⟨running, background, reused⟩
  · have was := spares token (mem_sweptBy.2 ⟨step, member, swept, requested⟩)
    exact (place member swept requested).background.1 background was
  · obtain ⟨step, member, swept, requested⟩ := mem_sweptBy.1 swept
    by_contra never
    exact spared step member swept token requested
      ((place member swept requested).background.2 never)

/-- A background job is started under a pid that a sweep has read, and the sweep cancels it. -/
theorem swept_of_history_reused :
    ∃ past w, History past w ∧ past.map Transition.action =
      [.spawn 7 [] .running, .beginSweep, .exit 7 0, .see 0, .record 0, .release 0,
        .spawn 7 [] .background, .sweep 0] ∧
      w.sweeps[0]? = some ⟨[], 1⟩ ∧ (sweptBy 0 past).length = 1 ∧ w.registry.background = [] ∧
      ∃ token ∈ sweptBy 0 past, ¬WasRunning past token := by
  have h := History.start.step (.spawn 7 [] .running rfl)
  have h := h.step (.beginSweep _)
  have h := h.step (.exit 7 0 rfl)
  have h := h.step (.see (n := 0) rfl rfl rfl)
  have h := h.step (.record _ 0)
  have h := h.step (.release _ 0)
  have h := h.step (.spawn 7 [] .background rfl)
  have pids : ({ running := [(7, ⟨0, [], .running, 0⟩)], nextSerial := 1 } : Registry).runningPids =
      [7] := by simp [Registry.runningPids, ProcessMap.sorted]
  have read := congrArg (fun left => some ({ left } : Sweep)) pids
  have h := h.step (.sweep (i := 0) read)
  obtain ⟨count, -, places, -⟩ := swept_of_history h (i := 0) rfl
  refine ⟨_, _, h, rfl, rfl, count.symm, rfl, 1, by decide, ?_⟩
  have swept := places _ (List.mem_append_right _ (List.mem_singleton_self _)) rfl 1 (by decide)
  exact swept.2.1.1 (by decide)

end World

end CommandShell
