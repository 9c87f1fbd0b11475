import CommandShell.Proofs.Process.Flow

/-!
What becomes of a pipeline when its call is cancelled.

The processes and the drains go on as if nothing had happened. The tasks that feed the stages do
not: they are aborted with the call, so what is written later, or has been written and not yet been
carried, never gets to the next stage. Nothing is lost by that exactly when none of them had
anything left to carry.
-/
namespace CommandShell.Flow

/-- After a cancellation everything can go on as it could have without it: the processes do the
same, and every task has carried the same. -/
def KeepsFeeding (f : Flow) : Prop :=
  ∀ past g, f.Run past g → .cancel ∉ past →
    ∃ later h, f.cancelled.Run later h ∧ h.processes = g.processes ∧
      h.carriers.map Carrier.carried = g.carriers.map Carrier.carried

variable {f g : Flow}

section Tasks
variable {k : Nat} {c : Carrier}

theorem get?_set_of_found {d : Carrier} {i : Nat} (found : f.carriers[i]? = some c) :
    (f.carriers.set i d)[k]? = if i = k then some d else f.carriers[k]? := by
  rw [List.getElem?_set, if_pos (List.getElem?_eq_some_iff.1 found).1]

/-- A task that does not run is what it is for ever. -/
theorem fixed_step {action : Action} (step : f.Step action g) (found : f.carriers[k]? = some c)
    (stopped : c.progress ≠ .running) : g.carriers[k]? = some c := by
  have other {i : Nat} {b d : Carrier} (there : f.carriers[i]? = some b)
      (running : b.progress = .running) : (f.carriers.set i d)[k]? = some c := by
    rw [get?_set_of_found there, if_neg, found]
    rintro rfl
    rw [there] at found
    cases found
    exact stopped running
  cases step with
  | move | answer => exact found
  | carry there running | finish there running => exact other there running
  | cancel =>
      rw [cancelled, List.getElem?_map, found, Option.map_some, dropped_of_not_running stopped]

theorem fixed_run {past : List Action} (run : f.Run past g) (found : f.carriers[k]? = some c)
    (stopped : c.progress ≠ .running) : g.carriers[k]? = some c := by
  induction run with
  | start => exact found
  | step _ step ih => exact fixed_step step ih stopped

theorem carried_dropped (c : Carrier) : c.dropped.carried = c.carried := by
  unfold Carrier.dropped
  split <;> rfl

/-- A task of the call is never running after the call has been cancelled. -/
theorem feeder_of_cancelled {past : List Action} (run : f.cancelled.Run past g)
    (found : f.carriers[k]? = some c) (owner : c.owner = .call) :
    g.carriers[k]? = some c.dropped ∧ c.dropped.progress ≠ .running := by
  have stopped : c.dropped.progress ≠ .running := by
    unfold Carrier.dropped
    split
    · nofun
    · next kept => exact fun running => kept ⟨owner, running⟩
  refine ⟨fixed_run run ?_ stopped, stopped⟩
  rw [cancelled, List.getElem?_map, found, Option.map_some]

theorem route_of_run {past : List Action} (run : f.Run past g) (found : f.carriers[k]? = some c) :
    ∃ d, g.carriers[k]? = some d ∧ d.route = c.route := by
  have routed : (g.carriers.map Carrier.route)[k]? = some c.route := by
    rw [routes_run run, List.getElem?_map, found, Option.map_some]
  simpa using routed

/-- A task carries nothing any more. -/
def Idle (f : Flow) (c : Carrier) : Prop := c.progress ≠ .running ∨ f.Spent c

theorem idle_step {action : Action} (step : f.Step action g) (found : f.carriers[k]? = some c)
    (idle : f.Idle c) : ∃ d, g.carriers[k]? = some d ∧ d.carried = c.carried ∧ g.Idle d := by
  rcases idle with stopped | spent
  · exact ⟨c, fixed_step step found stopped, rfl, .inl stopped⟩
  have spent' := spent.later (later_step step)
  cases step with
  | move | answer => exact ⟨c, found, rfl, .inr spent'⟩
  | @carry i b bytes there running takes within =>
      by_cases same : i = k
      · subst same
        rw [found] at there
        cases there
        -- The bytes that it may still carry are none.
        obtain ⟨-, all⟩ := spent.resolve_left (by simp [takes])
        rw [← all] at within
        obtain rfl : bytes = [] := List.append_right_eq_self.1 (within.eq_of_length_le (by simp))
        rw [List.append_nil] at spent' ⊢
        exact ⟨c, by rw [get?_set_of_found found, if_pos rfl], rfl, .inr spent'⟩
      · exact ⟨c, by rw [get?_set_of_found there, if_neg same, found], rfl, .inr spent'⟩
  | @finish i b there running stopped =>
      by_cases same : i = k
      · subst same
        rw [found] at there
        cases there
        refine ⟨{ c with progress := .ended }, ?_, rfl, .inl (by simp)⟩
        rw [get?_set_of_found found, if_pos rfl]
      · exact ⟨c, by rw [get?_set_of_found there, if_neg same, found], rfl, .inr spent'⟩
  | cancel =>
      refine ⟨c.dropped, ?_, carried_dropped c, ?_⟩
      · rw [cancelled, List.getElem?_map, found, Option.map_some]
      · unfold Carrier.dropped
        split
        · exact .inl (by simp)
        · exact .inr spent'

theorem idle_run {past : List Action} (run : f.Run past g) (found : f.carriers[k]? = some c)
    (idle : f.Idle c) : ∃ d, g.carriers[k]? = some d ∧ d.carried = c.carried ∧ g.Idle d := by
  induction run with
  | start => exact ⟨c, found, rfl, idle⟩
  | step _ step ih =>
      obtain ⟨d, there, same, idle⟩ := ih
      obtain ⟨e, there, same', idle⟩ := idle_step step there idle
      exact ⟨e, there, same'.trans same, idle⟩

/-- As long as a source is not exhausted it may have one more byte. -/
theorem offers_more {source : Source} (unfinished : f.exhausted source = false) :
    ∃ i move g, f.Step (.move i move) g ∧ g.carriers = f.carriers ∧
      g.offered source = f.offered source ++ [0] ∧
      ∀ target, f.takes target = true → g.takes target = true := by
  cases source with
  | text => cases unfinished
  | stage i channel =>
      cases found : f.processes[i]? with
      | none => simp [exhausted, found] at unfinished
      | some p =>
          simp only [exhausted, found, Option.elim_some] at unfinished
          have bound := (List.getElem?_eq_some_iff.1 found).1
          have moved : p.after? (.write channel [0]) = some (p.wrote channel [0]) :=
            if_neg (by simp [unfinished])
          refine ⟨i, _, _, .move found moved, rfl, ?_, ?_⟩
          · simp only [offered, List.getElem?_set_self bound, found, Option.elim_some]
            exact if_pos rfl
          · rintro (j | kept) takes
            · by_cases same : i = j
              · subst same
                simp only [Flow.takes, List.getElem?_set_self bound, found] at takes ⊢
                exact takes
              · simpa [Flow.takes, same] using takes
            · rfl

/-- A task that runs and has not done all can carry more some time. -/
theorem carries_more (sound : f.Sound) (found : f.carriers[k]? = some c)
    (running : c.progress = .running) (unspent : ¬f.Spent c) :
    ∃ past g bytes, f.Run past g ∧ .cancel ∉ past ∧ bytes ≠ [] ∧
      g.carriers[k]? = some { c with carried := c.carried ++ bytes } := by
  have within := sound.carried c (List.mem_of_getElem? found)
  obtain ⟨taken, more⟩ : f.takes c.target = true ∧
      ¬(f.exhausted c.source = true ∧ c.carried = f.offered c.source) := by
    simpa [Spent] using unspent
  by_cases all : c.carried = f.offered c.source
  · -- Its source has to write something first.
    have unfinished : f.exhausted c.source = false :=
      Bool.eq_false_iff.2 fun exhausted => more ⟨exhausted, all⟩
    obtain ⟨i, move, h, step, carriers, offered, takes⟩ := offers_more unfinished
    rw [← carriers] at found
    refine ⟨_, _, [0], .step (.step .start step)
      (.carry found running (takes _ taken) (by rw [offered, all])), ?_, ?_, ?_⟩
    · simp
    · exact List.cons_ne_nil 0 []
    · rw [get?_set_of_found found, if_pos rfl]
  · obtain ⟨bytes, offered⟩ := within
    refine ⟨_, _, bytes, .step .start (.carry found running taken (by rw [offered])), ?_, ?_, ?_⟩
    · simp
    · rintro rfl
      exact all (by rw [← offered, List.append_nil])
    · rw [get?_set_of_found found, if_pos rfl]

end Tasks

section Mirror

/-- Two flows in which the same can happen, but for the tasks that feed the stages. -/
structure Mirrors (f g : Flow) : Prop where
  text : g.text = f.text
  processes : g.processes = f.processes
  drains : ∀ (k : Nat) c, f.carriers[k]? = some c → c.owner = .engine → g.carriers[k]? = some c

theorem mirrors_cancelled (f : Flow) : f.Mirrors f.cancelled where
  text := rfl
  processes := rfl
  drains k c found owner := by
    have kept : c.dropped = c := if_neg fun both => by simp [owner] at both
    rw [cancelled, List.getElem?_map, found, Option.map_some, kept]

/-- A step of a task is one of a drain, which both flows have, or changes nothing that they
share. -/
theorem mirrors_set {k : Nat} {c d : Carrier} (h : f.Mirrors g) (found : f.carriers[k]? = some c)
    (same : d.owner = c.owner) :
    Mirrors { f with carriers := f.carriers.set k d } g ∨
      g.carriers[k]? = some c ∧ Mirrors { f with carriers := f.carriers.set k d }
        { g with carriers := g.carriers.set k d } := by
  cases owner : c.owner with
  | call =>
      refine .inl ⟨h.text, h.processes, fun j e there engine => ?_⟩
      rw [get?_set_of_found found] at there
      split at there
      · cases there
        simp [same, owner] at engine
      · exact h.drains j e there engine
  | engine =>
      have here := h.drains k c found owner
      refine .inr ⟨here, h.text, h.processes, fun j e there engine => ?_⟩
      rw [get?_set_of_found found] at there
      rw [get?_set_of_found here]
      split at there
      · next same => rw [if_pos same, there]
      · next other => rw [if_neg other, h.drains j e there engine]

theorem mirror_step {f' : Flow} {action : Action} (h : f.Mirrors g) (step : f.Step action f')
    (uncancelled : action ≠ .cancel) : f'.Mirrors g ∨ ∃ g', g.Step action g' ∧ f'.Mirrors g' := by
  obtain ⟨offered, exhausted, takes⟩ := congr_of_same h.text h.processes
  cases step with
  | move found moved =>
      refine .inr ⟨_, .move (h.processes ▸ found) moved, h.text, ?_, h.drains⟩
      rw [h.processes]
  | @carry k c bytes found running taken within =>
      have set := mirrors_set (d := { c with carried := c.carried ++ bytes }) h found rfl
      refine set.imp_right fun ⟨here, mirrored⟩ => ⟨_, ?_, mirrored⟩
      exact .carry here running (takes ▸ taken) (offered ▸ within)
  | @finish k c found running spent =>
      have set := mirrors_set (d := { c with progress := .ended }) h found rfl
      refine set.imp_right fun ⟨here, mirrored⟩ => ⟨_, ?_, mirrored⟩
      refine .finish here running ?_
      unfold Spent at spent ⊢
      rwa [offered, exhausted, takes]
  | answer => exact .inl ⟨h.text, h.processes, h.drains⟩
  | cancel => exact absurd rfl uncancelled

theorem mirror_run {past : List Action} {f' : Flow} (h : f.Mirrors g) (run : f.Run past f')
    (uncancelled : .cancel ∉ past) : ∃ later g', g.Run later g' ∧ f'.Mirrors g' := by
  induction run with
  | start => exact ⟨[], g, .start, h⟩
  | step run step ih =>
      simp only [List.mem_append, List.mem_singleton, not_or] at uncancelled
      obtain ⟨later, g', run', mirrors⟩ := ih uncancelled.1
      rcases mirror_step mirrors step (Ne.symm uncancelled.2) with still | ⟨g'', step', mirrors⟩
      · exact ⟨later, g', run', still⟩
      · exact ⟨_, g'', .step run' step', mirrors⟩

end Mirror

section Guarantee

theorem keepsFeeding_of_idle (idle : ∀ c ∈ f.carriers, c.owner = .call → f.Idle c) :
    f.KeepsFeeding := by
  intro past g run uncancelled
  obtain ⟨later, h, run', mirrors⟩ := mirror_run (mirrors_cancelled f) run uncancelled
  refine ⟨later, h, run', mirrors.processes, List.ext_getElem? fun k => ?_⟩
  simp only [List.getElem?_map]
  cases found : f.carriers[k]? with
  | none =>
      have beyond := List.getElem?_eq_none_iff.1 found
      have length := length_carriers_run run
      have length' : h.carriers.length = f.carriers.length := by
        simpa [cancelled] using length_carriers_run run'
      rw [List.getElem?_eq_none (by omega), List.getElem?_eq_none (by omega)]
  | some c =>
      obtain ⟨d, there, route⟩ := route_of_run run found
      cases owner : c.owner with
      | call =>
          obtain ⟨e, there', same, -⟩ :=
            idle_run run found (idle c (List.mem_of_getElem? found) owner)
          rw [there', (feeder_of_cancelled run' found owner).1]
          simp [same, carried_dropped]
      | engine =>
          have owned : d.owner = .engine := (congrArg (·.2.2) route).trans owner
          rw [mirrors.drains k d there owned, there]

theorem idle_of_keepsFeeding (sound : f.Sound) (keeps : f.KeepsFeeding) {c : Carrier}
    (member : c ∈ f.carriers) (owner : c.owner = .call) : f.Idle c := by
  by_contra busy
  simp only [Idle, not_or, not_not] at busy
  obtain ⟨k, found⟩ := List.getElem?_of_mem member
  obtain ⟨past, g, bytes, run, uncancelled, some_bytes, more⟩ :=
    carries_more sound found busy.1 busy.2
  obtain ⟨later, h, run', -, same⟩ := keeps past g run uncancelled
  have carried := congrArg (·[k]?) same
  simp only [List.getElem?_map, more, (feeder_of_cancelled run' found owner).1, Option.map_some,
    Option.some.injEq, carried_dropped] at carried
  exact some_bytes (List.append_right_eq_self.1 carried.symm)

/-- Whatever a pipeline has done when its call is cancelled. The call returns at once. No task that
feeds a stage runs from then on: those that did are aborted, and none carries another byte. The
processes and the drains may go on exactly as without the cancellation. All tasks carry what they
would have carried without it exactly if every feeding task that still ran was spent. -/
theorem feeding_of_cancelled {text : Option Bytes} {last : Nat} {past : List Action}
    (run : (start text last).Run past f) (waiting : f.call = .waiting) :
    (f.Step .cancel f.cancelled ∧ f.cancelled.call = .returned ShellError.cancelled.result) ∧
    (∀ later g, f.cancelled.Run later g →
      ∀ (k : Nat) c i, f.carriers[k]? = some c → c.target = .input i →
        g.carriers[k]? = some c.dropped ∧ c.dropped.progress ≠ .running ∧
          (c.progress = .running → c.dropped.progress = .aborted) ∧
          c.dropped.carried = c.carried) ∧
    (∀ later g, f.Run later g → .cancel ∉ later →
      ∃ later' h, f.cancelled.Run later' h ∧ h.processes = g.processes ∧
        ∀ (k : Nat) c kept, g.carriers[k]? = some c → c.target = .listeners kept →
          h.carriers[k]? = some c) ∧
    (f.KeepsFeeding ↔ ∀ c ∈ f.carriers, ∀ i, c.target = .input i → c.progress = .running →
      f.Spent c) := by
  refine ⟨⟨.cancel waiting, rfl⟩, fun later g after k c i found target => ?_,
    fun later g after uncancelled => ?_, fun keeps c hc i target running => ?_, fun spent => ?_⟩
  · have owner := (owner_eq_call_iff run (List.mem_of_getElem? found)).2 ⟨i, target⟩
    obtain ⟨there, stopped⟩ := feeder_of_cancelled after found owner
    refine ⟨there, stopped, fun running => ?_, carried_dropped c⟩
    rw [Carrier.dropped, if_pos ⟨owner, running⟩]
  · obtain ⟨later', h, run', mirrors⟩ := mirror_run (mirrors_cancelled f) after uncancelled
    refine ⟨later', h, run', mirrors.processes, fun k c kept found target => ?_⟩
    refine mirrors.drains k c found ?_
    cases owner : c.owner with
    | engine => rfl
    | call =>
        have fed := owner_eq_call_iff (run.append after) (List.mem_of_getElem? found)
        obtain ⟨i, feeds⟩ := fed.1 owner
        rw [target] at feeds
        cases feeds
  · have owner := (owner_eq_call_iff run hc).2 ⟨i, target⟩
    exact (idle_of_keepsFeeding (sound_run run) keeps hc owner).resolve_left (by simp [running])
  · refine keepsFeeding_of_idle fun c hc owner => ?_
    obtain ⟨i, target⟩ := (owner_eq_call_iff run hc).1 owner
    by_cases running : c.progress = .running
    · exact .inr (spent c hc i target running)
    · exact .inl running

/-- Two stages are cancelled before the first one has written anything. -/
theorem feeding_of_cancelled_pair :
    (start none 1).call = .waiting ∧ ¬(start none 1).KeepsFeeding ∧
    ∃ g d, (start none 1).cancelled.Run [.move 0 (.write .output [104, 105])] g ∧
      g.offered (.stage 0 .output) = [104, 105] ∧ g.carriers[0]? = some d ∧
      d.target = .input 1 ∧ d.progress = .aborted ∧ d.carried = [] := by
  obtain ⟨-, cut, -, keeps⟩ := feeding_of_cancelled (Run.start (f := start none 1)) rfl
  have later : (start none 1).cancelled.Run [.move 0 (.write .output [104, 105])] _ :=
    .step .start (.move rfl rfl)
  obtain ⟨there, -, aborted, carried⟩ := cut _ _ later 0 (.copy 0) 1 rfl rfl
  refine ⟨rfl, fun kept => ?_, _, _, later, rfl, there, rfl, aborted rfl, carried⟩
  have spent := keeps.1 kept (.copy 0) (by decide) 1 rfl rfl
  simp [Spent, takes, exhausted, start, Carrier.copy] at spent

end Guarantee

end CommandShell.Flow
