import CommandShell.Builtin.Job
import CommandShell.Proofs.Process.Forgotten

/-!
Nothing is tracked for a process whose end has been requested.

A request cancels a token and evicts the entry that carries it in one step, and no token is given
out twice. A supervisor kills its process only when its token is cancelled. So what it records then
finds no entry of its own, and the state of a killed process is never seen in the registry.
-/
namespace CommandShell

namespace Phase

/-- A supervisor in a phase has killed its process on request. -/
def Kills (phase : Phase) : Prop :=
  phase = ending ∨ ∃ exit, phase.outcome? = some exit ∧ exit.state = .killed

theorem Next.kills {phase phase' : Phase} (next : phase.Next phase') (h : phase'.Kills) :
    phase.Kills ∨ phase' = ending := by
  cases next with
  | heed => exact .inr rfl
  | see found =>
      obtain ⟨exit, ⟨⟩, killed⟩ := h.resolve_left nofun
      unfold exit? at found
      split at found <;> cases found
      · cases killed
      · exact .inl (.inl rfl)
  | record exit | release exit | announce exit => exact .inl (.inr (h.resolve_left nofun))
  | abort => exact absurd h (by simp [Kills, outcome?])

end Phase

namespace Registry

/-- What a request makes of a registry: every entry that stays is as it was, and a token is
cancelled only with the eviction of its entry. -/
structure Requests (r r' : Registry) : Prop where
  kept : ∀ pid x, r'.tracked? pid = some x → ∃ old, r.tracked? pid = some old ∧ x.entry = old.entry
  cancelled : ∀ token ∈ r.cancelled, token ∈ r'.cancelled
  evicted : ∀ token ∈ r'.cancelled, token ∈ r.cancelled ∨
    ∃ pid old, r.tracked? pid = some old ∧ old.entry.token = token ∧ r'.tracked? pid = none

variable {r : Registry} (h : r.WellFormed)
include h

theorem requests_kill (pid : Pid) : r.Requests (r.kill pid).1 where
  kept p x found := by
    rw [tracked?_kill h] at found
    split at found
    · cases found
    · exact ⟨x, found, rfl⟩
  cancelled token old := (mem_cancelled_kill h pid token).2 (.inr old)
  evicted token asked := by
    rcases (mem_cancelled_kill h pid token).1 asked with ⟨x, found, same⟩ | old
    · exact .inr ⟨pid, x, found, same, by rw [tracked?_kill h, if_pos rfl]⟩
    · exact .inl old

theorem requests_drain : r.Requests r.drain.1 where
  kept := nofun
  cancelled token old := (mem_cancelled_drain h token).2 (.inr old)
  evicted token asked := by
    rcases (mem_cancelled_drain h token).1 asked with ⟨pid, x, found, same⟩ | old
    · exact .inr ⟨pid, x, found, same, rfl⟩
    · exact .inl old

theorem requests_toForeground (pid : Pid) : r.Requests (r.toForeground pid).1 where
  kept p x found := by
    rw [tracked?_toForeground h] at found
    split at found
    · next same =>
      obtain ⟨old, before, moved⟩ := Option.bind_eq_some_iff.1 found
      exact ⟨old, same ▸ before, (Tracked.continues_of_foregrounded moved).2⟩
    · exact ⟨x, found, rfl⟩
  cancelled token old := (cancelled_toForeground r pid).symm ▸ old
  evicted token asked := .inl (cancelled_toForeground r pid ▸ asked)

omit h in
/-- What is moved to the foreground is the entry of a job that has not exited, as it is. -/
theorem foregrounded_of_moved {pid : Pid} {name : Text}
    (moved : (r.toForeground pid).2 = .moved name) :
    ∃ entry, r.background.get? pid = some entry ∧
      (r.toForeground pid).1.running.get? pid = some entry ∧ entry.name = name ∧
      ∀ code, entry.state ≠ .exited code := by
  unfold toForeground at moved ⊢
  split at moved
  · cases moved
  · next entry found =>
    rw [found]
    dsimp only at moved ⊢
    split at moved
    · cases moved
    · next alive =>
      cases moved
      refine ⟨entry, rfl, ?_, rfl, alive⟩
      simp [ProcessMap.get?_insert]

end Registry

namespace Supervision

/-- Who kills has been asked to, no token that will be given out is cancelled, and what is tracked
is not to be killed and has not been. -/
structure Unkilled (s : Supervision) : Prop where
  asked : ∀ t ∈ s.supervisors, t.phase.Kills → t.token ∈ s.registry.cancelled
  given : ∀ token ∈ s.registry.cancelled, token < s.nextToken
  spared : ∀ pid x, s.registry.tracked? pid = some x →
    x.entry.token ∉ s.registry.cancelled ∧ x.entry.state ≠ .killed

theorem Numbered.token_lt {s : Supervision} (h : s.Numbered) {t : Supervisor}
    (ht : t ∈ s.supervisors) : t.token < s.nextToken := by
  rw [← List.mem_range, ← h.tokens]
  exact List.mem_map_of_mem ht

section Preservation
variable {s : Supervision} (h : s.Sound)
include h

/-- Entries with the same token are under the same pid. -/
theorem pid_of_token {pid pid' : Pid} {x y : Tracked} (hx : s.registry.tracked? pid = some x)
    (hy : s.registry.tracked? pid' = some y) (same : x.entry.token = y.entry.token) :
    pid = pid' := by
  obtain ⟨t, ht, rfl, owns, -⟩ := h.owned pid x hx
  obtain ⟨u, hu, rfl, owns', -⟩ := h.owned pid' y hy
  rw [h.numbered.eq_of_token ht hu (by rw [← owns.token, same, owns'.token])]

/-- A request cancels no token that will be given out. -/
theorem given_of_requests (given : ∀ token ∈ s.registry.cancelled, token < s.nextToken)
    {r : Registry} (requests : s.registry.Requests r) :
    ∀ token ∈ r.cancelled, token < s.nextToken := by
  intro token asked
  rcases requests.evicted token asked with old | ⟨pid, x, found, rfl, -⟩
  · exact given token old
  · obtain ⟨t, ht, -, owns, -⟩ := h.owned pid x found
    exact owns.token ▸ h.numbered.token_lt ht

theorem unkilled_of_requests (unkilled : s.Unkilled) {r : Registry}
    (requests : s.registry.Requests r) : Unkilled { s with registry := r } where
  asked t ht kills := requests.cancelled t.token (unkilled.asked t ht kills)
  given := given_of_requests h unkilled.given requests
  spared pid x found := by
    obtain ⟨old, before, same⟩ := requests.kept pid x found
    obtain ⟨uncancelled, alive⟩ := unkilled.spared pid old before
    rw [same]
    refine ⟨fun asked => ?_, alive⟩
    rcases requests.evicted _ asked with already | ⟨pid', other, there, token, gone⟩
    · exact uncancelled already
    · -- The entry that was evicted with the token is this one.
      obtain rfl := pid_of_token h there before token
      rw [gone] at found
      cases found

omit h in
theorem unkilled_start (unkilled : s.Unkilled) (pid : Pid) (name : Text) (placement : Placement) :
    (s.start pid name placement).Unkilled where
  asked t ht kills := by
    simp only [start, Registry.cancelled_insert, List.mem_append, List.mem_singleton] at ht ⊢
    rcases ht with old | rfl
    · exact unkilled.asked t old kills
    · exact absurd kills (by simp [Phase.Kills, Phase.outcome?])
  given token asked := by
    simp only [start, Registry.cancelled_insert] at asked ⊢
    exact Nat.lt_succ_of_lt (unkilled.given token asked)
  spared p x found := by
    simp only [start, Registry.tracked?_insert, Registry.cancelled_insert] at found ⊢
    split at found
    · cases found
      refine ⟨fun asked => Nat.lt_irrefl _ (unkilled.given _ asked), fun killed => ?_⟩
      cases killed
    · exact unkilled.spared p x found

/-- What a supervisor records of its killed process finds no entry of that process. -/
theorem spared_finish (unkilled : s.Unkilled) {t : Supervisor} (ht : t ∈ s.supervisors)
    {state : ProcessState} (asked : state = .killed → t.token ∈ s.registry.cancelled) {pid : Pid}
    {x : Tracked} (found : (s.registry.finish t.pid t.serial state).tracked? pid = some x) :
    x.entry.token ∉ s.registry.cancelled ∧ x.entry.state ≠ .killed := by
  rw [Registry.tracked?_finish h.formed, Option.map_eq_some_iff] at found
  obtain ⟨old, before, rfl⟩ := found
  obtain ⟨uncancelled, alive⟩ := unkilled.spared pid old before
  split
  · next own =>
    obtain ⟨-, owns⟩ := pid_of_tracked h ht before own.2
    exact ⟨uncancelled, fun killed => uncancelled (owns.token ▸ asked killed)⟩
  · exact ⟨uncancelled, alive⟩

theorem spared_remove (unkilled : s.Unkilled) {pid other : Pid} {serial : Serial} {x : Tracked}
    (found : (s.registry.remove pid serial).tracked? other = some x) :
    x.entry.token ∉ s.registry.cancelled ∧ x.entry.state ≠ .killed := by
  rw [Registry.tracked?_remove h.formed, Option.bind_eq_some_iff] at found
  obtain ⟨old, before, kept⟩ := found
  split at kept <;> cases kept
  exact unkilled.spared other x before

omit h in
theorem cancelled_enter (t : Supervisor) (phase : Phase) :
    (s.enter t phase).registry.cancelled = s.registry.cancelled := by
  cases phase <;> simp [enter, setPhase]

omit h in
theorem cancelled_advance {n : Serial} {s' : Supervision} (step : s.Advance n s') :
    s'.registry.cancelled = s.registry.cancelled := by
  cases step with
  | stay => rfl
  | enter => exact cancelled_enter _ _

omit h in
theorem nextToken_advance {n : Serial} {s' : Supervision} (step : s.Advance n s') :
    s'.nextToken = s.nextToken := by
  cases step <;> rfl

/-- A step of a supervisor keeps the invariant if it begins to kill only when it has been asked. -/
theorem unkilled_advance (unkilled : s.Unkilled) {n : Serial} {s' : Supervision}
    (step : s.Advance n s')
    (heeded : ∀ u ∈ s'.supervisors, u.phase = .ending →
      u ∈ s.supervisors ∨ u.token ∈ s.registry.cancelled) : s'.Unkilled := by
  cases step with
  | stay => exact unkilled
  | @enter t phase found next =>
      have ht := mem_of_supervisor? found
      have asked : ∀ u ∈ (s.enter t phase).supervisors, u.phase.Kills →
          u.token ∈ s.registry.cancelled := by
        intro u hu kills
        obtain ⟨v, hv, rfl⟩ := mem_setPhase.1 hu
        have becomes := h.numbered.becomes_setPhase found next v hv
        rw [becomes.token]
        rcases becomes.phase with same | moved
        · exact unkilled.asked v hv (same ▸ kills)
        rcases moved.kills kills with before | ending
        · exact unkilled.asked v hv before
        · rcases heeded _ hu ending with there | asked
          · exact becomes.token ▸ unkilled.asked _ there (.inl ending)
          · exact becomes.token ▸ asked
      refine ⟨cancelled_enter (s := s) t phase ▸ asked,
        cancelled_enter (s := s) t phase ▸ unkilled.given, fun pid x tracked => ?_⟩
      rw [cancelled_enter]
      cases phase with
      | recorded exit =>
          have kills := asked _ (mem_setPhase.2 ⟨t, ht, (if_pos rfl).symm⟩)
          exact spared_finish h unkilled ht (fun killed => kills (.inr ⟨exit, rfl, killed⟩)) tracked
      | released exit => exact spared_remove h unkilled tracked
      | waiting | ending | seen | done | aborted => exact unkilled.spared pid x tracked

end Preservation

end Supervision

namespace World

theorem unkilled_step {w w' : World} {action : Action} (h : w.Sound)
    (unkilled : w.supervision.Unkilled) (step : w.Step action w') : w'.supervision.Unkilled := by
  have sound := h.supervision
  -- No step but one makes a supervisor kill its process.
  have advance {n : Serial} {s' : Supervision} (moved : w.supervision.Advance n s')
      (arrived : ∀ u ∈ s'.supervisors, u.phase = .ending → u ∈ w.supervisors) : s'.Unkilled :=
    Supervision.unkilled_advance sound unkilled moved fun u hu ending => .inl (arrived u hu ending)
  cases step with
  | spawn pid name placement => exact Supervision.unkilled_start unkilled pid name placement
  | heed n =>
      exact Supervision.unkilled_advance sound unkilled (Supervision.advance_heed _ n)
        fun u hu _ => (Supervision.arrived_heed sound.numbered hu).imp_right And.right
  | see =>
      exact advance (Supervision.advance_seeEnd _ _ _) fun u hu ending =>
        (Supervision.arrived_seeEnd hu).resolve_right (by simp [ending])
  | fail n =>
      exact advance (Supervision.advance_seeEnd _ n _) fun u hu ending =>
        (Supervision.arrived_seeEnd hu).resolve_right (by simp [ending])
  | record n =>
      exact advance (Supervision.advance_record _ n) fun u hu ending =>
        (Supervision.arrived_record hu).resolve_right (by simp [ending])
  | release n =>
      exact advance (Supervision.advance_release _ n) fun u hu ending =>
        (Supervision.arrived_release hu).resolve_right (by simp [ending])
  | announce n =>
      exact advance (Supervision.advance_announce _ n) fun u hu ending =>
        (Supervision.arrived_announce hu).resolve_right (by simp [ending])
  | abort n =>
      exact advance (Supervision.advance_abort _ n) fun u hu ending =>
        (Supervision.arrived_abort hu).resolve_right (by simp [ending])
  | kill pid =>
      have requests := Registry.requests_kill sound.formed pid
      exact Supervision.unkilled_of_requests sound unkilled requests
  | @sweep i pid left count next =>
      have requests := Registry.requests_kill sound.formed pid
      exact Supervision.unkilled_of_requests sound unkilled requests
  | toForeground pid =>
      exact Supervision.unkilled_of_requests sound unkilled
        (Registry.requests_toForeground sound.formed pid)
  | drain =>
      exact Supervision.unkilled_of_requests sound unkilled (Registry.requests_drain sound.formed)
  | exit | collect | beginSweep | await | answer | abandon => exact unkilled

theorem unkilled_history {past : List Transition} {w : World} (history : History past w) :
    w.supervision.Unkilled := by
  induction history with
  | start => exact ⟨nofun, nofun, nofun⟩
  | step history step ih => exact unkilled_step (sound_history history) ih step

/-- In every history: nothing that is tracked has a cancelled token or has been killed; a process
whose end has been requested is out of reach; a job that is listed as completed has ended by itself;
and what is moved to the foreground is running, and stays where it is put. -/
theorem unkilled_of_history {past : List Transition} {w : World} (history : History past w) :
    (∀ item ∈ w.registry.running ++ w.registry.background,
      w.registry.isCancelled item.2.token = false ∧ item.2.state ≠ .killed) ∧
    (∀ t ∈ w.supervisors, w.registry.isCancelled t.token = true ∨ t.phase.Kills →
      w.registry.OutOfReach t) ∧
    (∀ job ∈ w.registry.jobs, Builtin.stateLabel job.state = "Completed".toList →
      ∃ code, job.state = .exited code ∧ ∃ t ∈ w.supervisors, t.pid = job.pid ∧
        t.phase.Reports code ∧ w.registry.isCancelled t.token = false) ∧
    (∀ pid name, (w.registry.toForeground pid).2 = .moved name →
      ∃ entry, w.registry.background.get? pid = some entry ∧ entry.name = name ∧
        (w.registry.toForeground pid).1.running.get? pid = some entry ∧
        entry.state = .running ∧ w.registry.isCancelled entry.token = false) := by
  have sound := (sound_history history).supervision
  have unkilled := unkilled_history history
  have formed := sound.formed
  have open_token {token : Token} (h : token ∉ w.registry.cancelled) :
      w.registry.isCancelled token = false :=
    Bool.eq_false_iff.2 fun asked => h ((Registry.isCancelled_iff _ _).1 asked)
  refine ⟨?_, fun t ht ends => ?_, fun job listed label => ?_, fun pid name moved => ?_⟩
  · rintro ⟨pid, entry⟩ member
    obtain ⟨placement, found⟩ := (Registry.mem_maps_iff formed pid entry).1 member
    exact (unkilled.spared pid _ found).imp_left open_token
  · have asked : t.token ∈ w.registry.cancelled :=
      ends.elim (Registry.isCancelled_iff _ _).1 (unkilled.asked t ht)
    refine Supervision.outOfReach sound ht ((Registry.forgets_iff formed t.serial).2 ?_)
    intro pid x found same
    obtain ⟨-, owns⟩ := Supervision.pid_of_tracked sound ht found same
    exact (unkilled.spared pid x found).1 (owns.token ▸ asked)
  · obtain ⟨entry, found, name, state⟩ := (Registry.mem_jobs_iff formed job).1 listed
    obtain ⟨uncancelled, alive⟩ := unkilled.spared job.pid _ found
    obtain ⟨t, ht, own, owns, reports⟩ := sound.owned job.pid _ found
    cases exited : job.state with
    | running =>
        rw [exited] at label
        exact absurd label (by decide)
    | killed => exact absurd (state.symm.trans exited) alive
    | exited code =>
        exact ⟨code, rfl, t, ht, own, reports code (state.symm.trans exited),
          open_token (owns.token ▸ uncancelled)⟩
  · obtain ⟨entry, found, running, rfl, stayed⟩ := Registry.foregrounded_of_moved moved
    have tracked := (Registry.tracked?_eq_some_iff formed pid ⟨.background, entry⟩).2 found
    obtain ⟨uncancelled, alive⟩ := unkilled.spared pid ⟨.background, entry⟩ tracked
    refine ⟨entry, found, rfl, running, ?_, open_token uncancelled⟩
    cases state : entry.state with
    | running => rfl
    | exited code => exact absurd state (stayed code)
    | killed => exact absurd state alive

/-- A job is killed, its pid is given to another job while it is still tended by its supervisor, and
a third job has exited. -/
theorem unkilled_reused :
    ∃ past w, History past w ∧ past.map Transition.action =
      [.spawn 8 [] .background, .spawn 7 [] .background, .kill 7, .heed 1, .exit 7 137, .see 1,
        .spawn 7 [] .background, .record 1, .exit 8 3, .see 0, .record 0] ∧
      (∀ item ∈ w.registry.running ++ w.registry.background,
        w.registry.isCancelled item.2.token = false ∧ item.2.state ≠ .killed) ∧
      w.registry.OutOfReach ⟨7, 1, 1, .background, .recorded ⟨.killed, 137⟩⟩ ∧
      (∃ t ∈ w.supervisors, t.pid = 8 ∧ w.registry.isCancelled t.token = false) ∧
      ∃ entry, w.registry.background.get? 7 = some entry ∧ entry.state = .running := by
  have h := History.start.step (.spawn 8 [] .background rfl)
  have h := h.step (.spawn 7 [] .background rfl)
  have h := h.step (.kill _ 7)
  have h := h.step (.heed _ 1)
  have h := h.step (.exit 7 137 rfl)
  have h := h.step (.see (n := 1) rfl rfl rfl)
  have h := h.step (.spawn 7 [] .background rfl)
  have h := h.step (.record _ 1)
  have h := h.step (.exit 8 3 rfl)
  have h := h.step (.see (n := 0) rfl rfl rfl)
  have h := h.step (.record _ 0)
  obtain ⟨tracked, killed, completed, moved⟩ := unkilled_of_history h
  have out := killed ⟨7, 1, 1, .background, .recorded ⟨.killed, 137⟩⟩ (by decide) (.inl rfl)
  have formed := (sound_history h).supervision.formed
  obtain ⟨_, -, t, ht, own, -, uncancelled⟩ := completed ⟨8, [], .exited 3⟩
    ((Registry.mem_jobs_iff formed _).2 ⟨⟨0, [], .exited 3, 0⟩, rfl, rfl, rfl⟩) rfl
  obtain ⟨entry, found, -, -, running, -⟩ := moved 7 [] rfl
  exact ⟨_, _, h, rfl, tracked, out, ⟨t, ht, own, uncancelled⟩, entry, found, running⟩

end World

end CommandShell
