import CommandShell.Proofs.Process.Forgotten

/-!
Calls that run external commands and wait for them.

A call starts its stages one after the other, a single one for a command, and is then told how each
of them has ended, in the same order. It answers when it has been told of all. When it does, and
when the completion of a background job is announced, nothing is tracked for the processes that are
reported: none of them is listed, and no kill that reaches their pids is meant for them.
-/
namespace CommandShell

/-- A call that waits for the commands that it runs. -/
structure Engine.Call where
  /-- The names of the commands, at least one. -/
  stages : List Text
  /-- The serials of those that have been started. -/
  started : List Serial := []
  /-- How many of them the call has been told the end of. -/
  heard : Nat := 0

/-- A world with the calls that are under way in it. -/
structure Engine where
  world : World := {}
  calls : List Engine.Call := []

namespace Engine

/-- One step of someone, or of a call. -/
inductive Action
  | other (action : CommandShell.Action)
  | call (stages : List Text)
  | start (index : Nat) (pid : Pid)
  | hear (index : Nat)
  | answer (index : Nat)
  | abandon (index : Nat)
deriving DecidableEq, Repr

/-- The supervisor that takes an action. -/
def Action.actor? : Action → Option Serial
  | other action => action.actor?
  | _ => none

/-- The engine with something else for one of its calls. -/
def withCall (e : Engine) (index : Nat) (call : Call) : Engine :=
  { e with calls := e.calls.set index call }

/-- What may happen while calls run, and what it leads to. A call hears of the end of a stage from
the supervisor of it, when that is done or has been broken off. -/
inductive Step : Engine → Action → Engine → Prop
  | other {e action w} : e.world.Step action w → Step e (.other action) { e with world := w }
  | call (e) {stages} : stages ≠ [] →
      Step e (.call stages) { e with calls := e.calls ++ [{ stages }] }
  | start {e i pid name w} {c : Call} : e.calls[i]? = some c →
      c.stages[c.started.length]? = some name → e.world.Step (.spawn pid name .running) w →
      Step e (.start i pid)
        ({ e with world := w }.withCall i
          { c with started := c.started ++ [e.world.registry.nextSerial] })
  | hear {e i n t} {c : Call} : e.calls[i]? = some c → c.started.length = c.stages.length →
      c.started[c.heard]? = some n → e.world.supervision.supervisor? n = some t →
      t.phase.isOver = true → Step e (.hear i) (e.withCall i { c with heard := c.heard + 1 })
  | answer {e i} {c : Call} : e.calls[i]? = some c → c.started.length = c.stages.length →
      c.heard = c.stages.length → Step e (.answer i) { e with calls := e.calls.eraseIdx i }
  | abandon (e i) : Step e (.abandon i) { e with calls := e.calls.eraseIdx i }

/-- A step that has been taken. -/
structure Transition where
  before : Engine
  action : Action
  after : Engine

/-- The steps from an engine in which nothing has been started, in order, and where they lead. -/
inductive Run : List Transition → Engine → Prop
  | start : Run [] {}
  | step {past e action e'} : Run past e → e.Step action e' → Run (past ++ [⟨e, action, e'⟩]) e'

/-- A supervisor has been broken off while its process was still tracked. -/
def BrokenOff (past : List Transition) (n : Serial) : Prop :=
  ∃ step ∈ past, step.action = .other (.abort n) ∧ ¬step.before.world.registry.Forgets n

end Engine

namespace Phase

theorem Next.isOver {phase phase' : Phase} (next : phase.Next phase') (h : phase.isOver = true) :
    phase'.isOver = true := by
  cases next with
  | abort => rfl
  | heed | record | release | announce => cases h
  | see found => cases phase <;> cases h <;> cases found

end Phase

namespace Supervision

/-- Events are added only by a supervisor of a background job that has released its entry. -/
theorem events_advance {s s' : Supervision} {n : Serial} (step : s.Advance n s') :
    s'.events = s.events ∨ ∃ t, s.supervisor? n = some t ∧ t.phase.isReleased = true ∧
      ∃ code, s'.events = s.events ++ [.jobCompleted t.pid code] := by
  cases step with
  | stay => exact .inl rfl
  | @enter t phase found next =>
      change s.events ++ Supervisor.announced { t with phase } = s.events ∨
        ∃ u, s.supervisor? n = some u ∧ u.phase.isReleased = true ∧
          ∃ code, s.events ++ Supervisor.announced { t with phase } =
            s.events ++ [.jobCompleted u.pid code]
      unfold Supervisor.announced
      split
      · next exit _ arrived =>
        obtain rfl : phase = .done exit := arrived
        rcases next.isReleased rfl with ⟨exit', same⟩ | before
        · cases same
        · exact .inr ⟨t, found, before, exit.code, rfl⟩
      · exact .inl (List.append_nil _)

end Supervision

namespace World

/-- A supervisor is broken off by nobody but who says so. -/
theorem aborted_step {w w' : World} {action : Action} (h : w.Sound) (step : w.Step action w')
    {u : Supervisor} (hu : u ∈ w'.supervisors) (aborted : u.phase = .aborted) :
    u ∈ w.supervisors ∨
      action = .abort u.serial ∧ ∃ t ∈ w.supervisors, t.serial = u.serial := by
  cases step with
  | spawn pid name placement =>
      rcases List.mem_append.1 hu with before | new
      · exact .inl before
      · rw [List.mem_singleton] at new
        subst new
        cases aborted
  | see => exact .inl ((Supervision.arrived_seeEnd hu).resolve_right (by simp [aborted]))
  | fail => exact .inl ((Supervision.arrived_seeEnd hu).resolve_right (by simp [aborted]))
  | heed =>
      exact .inl ((Supervision.arrived_heed h.supervision.numbered hu).resolve_right
        (by simp [aborted]))
  | record => exact .inl ((Supervision.arrived_record hu).resolve_right (by simp [aborted]))
  | release => exact .inl ((Supervision.arrived_release hu).resolve_right (by simp [aborted]))
  | announce => exact .inl ((Supervision.arrived_announce hu).resolve_right (by simp [aborted]))
  | abort n =>
      refine (Supervision.arrived_abort hu).imp_right fun ⟨_, own, t, ht, same⟩ => ?_
      exact ⟨by rw [own], t, ht, same.trans own.symm⟩
  | exit | collect | kill | toForeground | drain | beginSweep | sweep | await | answer | abandon =>
      exact .inl hu

/-- The supervisor with a serial and a token is there, and nothing is tracked for its process. -/
def Gone (w : World) (n : Serial) (token : Token) : Prop :=
  w.registry.Forgets n ∧ ∃ t ∈ w.supervisors, t.serial = n ∧ t.token = token

theorem gone_step {w w' : World} {action : Action} (h : w.Sound) (step : w.Step action w')
    {n : Serial} {token : Token} (gone : w.Gone n token) : w'.Gone n token := by
  obtain ⟨forgotten, t, ht, rfl, rfl⟩ := gone
  obtain ⟨u, hu, becomes⟩ := becomes_step h step ht
  have given := h.supervision.numbered.serial_lt ht
  exact ⟨forgets_step h step given forgotten, u, hu, becomes.serial, becomes.token⟩

theorem outOfReach_of_gone {w : World} (h : w.Sound) {t : Supervisor}
    (gone : w.Gone t.serial t.token) : w.registry.OutOfReach t := by
  obtain ⟨forgotten, u, hu, serial, token⟩ := gone
  obtain ⟨forgotten, jobs, running, kill⟩ :=
    Supervision.outOfReach h.supervision hu (serial ▸ forgotten)
  exact ⟨serial ▸ forgotten, serial ▸ jobs, serial ▸ running, token ▸ kill⟩

end World

namespace Engine

/-- What a call has been told: that the first stages of it are over. -/
structure Call.Sound (c : Call) (w : World) : Prop where
  within : c.heard ≤ c.started.length
  started : ∀ n ∈ c.started, ∃ t ∈ w.supervisors, t.serial = n
  heard : ∀ n ∈ c.started.take c.heard, ∃ t ∈ w.supervisors, t.serial = n ∧ t.phase.isOver = true

/-- What holds after every run. -/
structure Sound (past : List Transition) (e : Engine) : Prop where
  world : e.world.Sound
  released : e.world.supervision.Released
  aborted : ∀ t ∈ e.world.supervisors, t.phase = .aborted →
    e.world.registry.Forgets t.serial ∨ BrokenOff past t.serial
  calls : ∀ c ∈ e.calls, c.Sound e.world

theorem Call.Sound.step {c : Call} {w w' : World} {action : CommandShell.Action} (h : c.Sound w)
    (sound : w.Sound) (step : w.Step action w') : c.Sound w' where
  within := h.within
  started n member := by
    obtain ⟨t, ht, rfl⟩ := h.started n member
    obtain ⟨u, hu, becomes⟩ := World.becomes_step sound step ht
    exact ⟨u, hu, becomes.serial⟩
  heard n member := by
    obtain ⟨t, ht, rfl, stopped⟩ := h.heard n member
    obtain ⟨u, hu, becomes⟩ := World.becomes_step sound step ht
    refine ⟨u, hu, becomes.serial, ?_⟩
    rcases becomes.phase with same | next
    · rw [same, stopped]
    · exact next.isOver stopped

/-- What holds of the world of a run holds after a step of it, if that is remembered when it breaks
a supervisor off. -/
theorem Sound.step {past : List Transition} {e : Engine} (h : e.Sound past)
    {b : CommandShell.Action} {w : World} (step : e.world.Step b w) {taken : Transition}
    (before : taken.before = e) (broken : ∀ n, b = .abort n → taken.action = .other b)
    {calls : List Call} (told : ∀ c ∈ calls, c.Sound w) :
    Sound (past ++ [taken]) { world := w, calls } where
  world := World.sound_step h.world step
  released := World.released_step h.world h.released step
  aborted u hu aborted := by
    have numbered := h.world.supervision.numbered
    have kept {n : Serial} := World.forgets_step h.world step (n := n)
    rcases World.aborted_step h.world step hu aborted with there | ⟨rfl, t, ht, same⟩
    · refine (h.aborted u there aborted).imp (kept (numbered.serial_lt there)) ?_
      exact fun ⟨old, member, rest⟩ => ⟨old, List.mem_append_left _ member, rest⟩
    · by_cases gone : e.world.registry.Forgets u.serial
      · exact .inl (kept (same ▸ numbered.serial_lt ht) gone)
      · exact .inr ⟨taken, List.mem_append_right _ (List.mem_singleton_self _),
          broken _ rfl, before ▸ gone⟩
  calls := told

theorem sound_step {past : List Transition} {e e' : Engine} {action : Action} (h : e.Sound past)
    (step : e.Step action e') : e'.Sound (past ++ [⟨e, action, e'⟩]) := by
  have idle {calls : List Call} (told : ∀ c ∈ calls, c.Sound e.world) :
      Sound (past ++ [⟨e, action, e'⟩]) { e with calls } :=
    ⟨h.world, h.released, fun t ht aborted => (h.aborted t ht aborted).imp_right
      fun ⟨old, member, rest⟩ => ⟨old, List.mem_append_left _ member, rest⟩, told⟩
  cases step with
  | other moved =>
      refine h.step moved rfl (fun n same => by rw [same]) fun c hc => ?_
      exact (h.calls c hc).step h.world moved
  | call =>
      refine idle fun c hc => ?_
      rcases List.mem_append.1 hc with old | new
      · exact h.calls c old
      · rw [List.mem_singleton] at new
        subst new
        exact ⟨Nat.le_refl 0, nofun, nofun⟩
  | @start i pid name w c found named moved =>
      refine h.step moved rfl nofun fun d hd => ?_
      rcases List.mem_or_eq_of_mem_set hd with old | rfl
      · exact (h.calls d old).step h.world moved
      · have told := (h.calls c (List.mem_of_getElem? found)).step h.world moved
        refine ⟨?_, ?_, ?_⟩
        · simpa using Nat.le_succ_of_le told.within
        · simp only [List.mem_append, List.mem_singleton]
          rintro n (old | rfl)
          · exact told.started n old
          · cases moved with
            | spawn => exact ⟨_, List.mem_append_right _ (List.mem_singleton_self _), rfl⟩
        · rw [List.take_append_of_le_length told.within]
          exact told.heard
  | @hear i n t c found all next supervisor stopped =>
      refine idle fun d hd => ?_
      rcases List.mem_or_eq_of_mem_set hd with old | rfl
      · exact h.calls d old
      · have told := h.calls c (List.mem_of_getElem? found)
        refine ⟨(List.getElem?_eq_some_iff.1 next).1, told.started, ?_⟩
        simp only [List.take_add_one, next, Option.toList_some, List.mem_append, List.mem_singleton]
        rintro m (old | rfl)
        · exact told.heard m old
        · exact ⟨t, Supervision.mem_of_supervisor? supervisor,
            Supervision.serial_of_supervisor? supervisor, stopped⟩
  | answer found => exact idle fun c hc => h.calls c (List.mem_of_mem_eraseIdx hc)
  | abandon i => exact idle fun c hc => h.calls c (List.mem_of_mem_eraseIdx hc)

theorem sound_run {past : List Transition} {e : Engine} (run : Run past e) : e.Sound past := by
  induction run with
  | start => exact ⟨World.sound_start, nofun, nofun, nofun⟩
  | step _ step ih => exact sound_step ih step

/-- The world of an engine takes a step of its own, or none at all. -/
theorem world_step {e e' : Engine} {action : Action} (step : e.Step action e') :
    e'.world = e.world ∨
      ∃ b, e.world.Step b e'.world ∧ ∀ n, b.actor? = some n → action.actor? = some n := by
  cases step with
  | other moved => exact .inr ⟨_, moved, fun _ => id⟩
  | start _ _ moved => exact .inr ⟨_, moved, nofun⟩
  | call | hear | answer | abandon => exact .inl rfl

/-- The process of a supervisor that has released its entry, or has been seen to have none, is out
of reach from then on. -/
theorem gone_later {past : List Transition} {e : Engine} (run : Run past e) {step : Transition}
    (taken : step ∈ past) {n : Serial} {token : Token} (gone : step.before.world.Gone n token) :
    e.world.Gone n token := by
  induction run with
  | start => cases taken
  | @step past e action e' run last ih =>
      have here : e.world.Gone n token := by
        rcases List.mem_append.1 taken with old | new
        · exact ih old
        · rw [List.mem_singleton] at new
          subst new
          exact gone
      rcases world_step last with same | ⟨b, moved, -⟩
      · exact same ▸ here
      · exact World.gone_step (sound_run run).world moved here

/-- Every step of a run was taken after a run. -/
theorem Run.of_mem {past : List Transition} {e : Engine} (run : Run past e) {step : Transition}
    (taken : step ∈ past) :
    ∃ earlier, earlier ⊆ past ∧ Run earlier step.before ∧
      step.before.Step step.action step.after := by
  induction run with
  | start => cases taken
  | @step past e action e' run last ih =>
      rcases List.mem_append.1 taken with old | new
      · obtain ⟨earlier, within, rest⟩ := ih old
        exact ⟨earlier, List.subset_append_of_subset_left _ within, rest⟩
      · rw [List.mem_singleton] at new
        subst new
        exact ⟨past, List.subset_append_left _ _, run, last⟩

theorem completion_step {e e' : Engine} {action : Action} (step : e.Step action e')
    (added : e'.world.supervision.events ≠ e.world.supervision.events) :
    ∃ t ∈ e.world.supervisors, action.actor? = some t.serial ∧ t.phase.isReleased = true ∧ ∃ code,
      e'.world.supervision.events = e.world.supervision.events ++ [.jobCompleted t.pid code] := by
  rcases world_step step with same | ⟨b, moved, actor⟩
  · exact absurd (by rw [same]) added
  · rcases World.supervision_step moved with ⟨n, mover, advanced⟩ | ⟨pid, name, placement, -, new⟩ |
      ⟨-, -, -, events⟩
    · obtain ⟨t, found, rest⟩ := (Supervision.events_advance advanced).resolve_left added
      refine ⟨t, Supervision.mem_of_supervisor? found, ?_, rest⟩
      rw [actor n mover, Supervision.serial_of_supervisor? found]
    · exact absurd (by rw [new]; rfl) added
    · exact absurd events added

theorem call_of_answer {e e' : Engine} {i : Nat} (step : e.Step (.answer i) e') :
    ∃ c : Call, e.calls[i]? = some c ∧ c.started.length = c.stages.length ∧
      c.heard = c.stages.length := by
  cases step with
  | answer found all heard => exact ⟨_, found, all, heard⟩

theorem mem_of_brokenOff {past : List Transition} {n : Serial} (h : BrokenOff past n) :
    .other (.abort n) ∈ past.map Transition.action := by
  obtain ⟨step, taken, broken, -⟩ := h
  exact broken ▸ List.mem_map_of_mem taken

/-- Whatever comes between the steps of supervisors and of calls: at the moment at which the
completion of a job is announced, and from then on, its process is out of reach of the registry; and
at the moment at which a call answers, and from then on, the processes of all its stages are, except
for those whose supervisors have been broken off while they were still tracked. -/
theorem out_of_reach_of_run {past : List Transition} {e : Engine} (run : Run past e) :
    (∀ step ∈ past, step.after.world.supervision.events ≠ step.before.world.supervision.events →
      ∃ t ∈ step.before.world.supervisors, step.action.actor? = some t.serial ∧ ∃ code,
        step.after.world.supervision.events =
          step.before.world.supervision.events ++ [.jobCompleted t.pid code] ∧
        step.before.world.registry.OutOfReach t ∧ e.world.registry.OutOfReach t) ∧
    (∀ step ∈ past, ∀ i, step.action = .answer i → ∃ call : Call,
      step.before.calls[i]? = some call ∧ call.started.length = call.stages.length ∧
      ∀ n ∈ call.started, ∃ t ∈ step.before.world.supervisors, t.serial = n ∧
        (BrokenOff past n ∨
          step.before.world.registry.OutOfReach t ∧ e.world.registry.OutOfReach t)) := by
  have sound := (sound_run run).world
  have out {step : Transition} (taken : step ∈ past) {t : Supervisor}
      (ht : t ∈ step.before.world.supervisors)
      (gone : step.before.world.registry.Forgets t.serial) :
      step.before.world.registry.OutOfReach t ∧ e.world.registry.OutOfReach t := by
    obtain ⟨earlier, -, before, -⟩ := run.of_mem taken
    have here : step.before.world.Gone t.serial t.token := ⟨gone, t, ht, rfl, rfl⟩
    exact ⟨World.outOfReach_of_gone (sound_run before).world here,
      World.outOfReach_of_gone sound (gone_later run taken here)⟩
  constructor
  · intro step taken added
    obtain ⟨earlier, -, before, here⟩ := run.of_mem taken
    obtain ⟨t, ht, actor, stopped, code, events⟩ := completion_step here added
    exact ⟨t, ht, actor, code, events, out taken ht ((sound_run before).released t ht stopped)⟩
  · intro step taken i answered
    obtain ⟨earlier, within, before, here⟩ := run.of_mem taken
    have told := sound_run before
    rw [answered] at here
    obtain ⟨c, found, all, heard⟩ := call_of_answer here
    refine ⟨c, found, all, fun n member => ?_⟩
    have heard_all : c.started.take c.heard = c.started :=
      List.take_of_length_le (Nat.le_of_eq (all.trans heard.symm))
    obtain ⟨t, ht, rfl, stopped⟩ :=
      (told.calls c (List.mem_of_getElem? found)).heard n (by rw [heard_all]; exact member)
    refine ⟨t, ht, rfl, ?_⟩
    cases phase : t.phase with
    | done exit => exact .inr (out taken ht (told.released t ht (by rw [phase]; rfl)))
    | aborted =>
        rcases told.aborted t ht phase with gone | ⟨broken, member, rest⟩
        · exact .inr (out taken ht gone)
        · exact .inl ⟨broken, within member, rest⟩
    | waiting | ending | seen | recorded | released => simp [phase, Phase.isOver] at stopped

/-- A job ends and its pid is given to the command of a call before its supervisor releases the old
entry. -/
theorem out_of_reach_of_reused_pid :
    (∃ past e, Run past e ∧
      past.map Transition.action = [.other (.spawn 7 [] .background), .other (.exit 7 5),
        .other (.see 0), .call [[]], .start 0 7, .other (.record 0), .other (.release 0),
        .other (.announce 0)] ∧
      e.world.supervision.events = [.jobCompleted 7 5] ∧
      ∃ t : Supervisor, t.serial = 0 ∧ e.world.registry.OutOfReach t) ∧
    (∃ past e, Run past e ∧
      past.map Transition.action = [.other (.spawn 7 [] .background), .other (.exit 7 5),
        .other (.see 0), .call [[]], .start 0 7, .other (.record 0), .other (.release 0),
        .other (.announce 0), .other (.exit 7 1), .other (.see 1),
        .other (.record 1), .other (.release 1), .other (.announce 1), .hear 0, .answer 0] ∧
      ∃ t : Supervisor, t.serial = 1 ∧ e.world.registry.OutOfReach t) := by
  have h := Run.start.step (.other (.spawn 7 [] .background rfl))
  have h := h.step (.other (.exit 7 5 rfl))
  have h := h.step (.other (.see (n := 0) rfl rfl rfl))
  have h := h.step (.call _ (List.cons_ne_nil [] []))
  have h := h.step (.start (i := 0) rfl rfl (.spawn 7 [] .running rfl))
  have h := h.step (.other (.record _ 0))
  have h := h.step (.other (.release _ 0))
  have h := h.step (.other (.announce _ 0))
  constructor
  · obtain ⟨announced, -⟩ := out_of_reach_of_run h
    have added : ([.jobCompleted 7 5] : List Event) ≠ [] := List.cons_ne_nil _ _
    obtain ⟨t, -, actor, -, -, -, out⟩ :=
      announced _ (List.mem_append_right _ (List.mem_singleton_self _)) added
    exact ⟨_, _, h, rfl, rfl, t, (Option.some.inj actor).symm, out⟩
  · have h := h.step (.other (.exit 7 1 rfl))
    have h := h.step (.other (.see (n := 1) rfl rfl rfl))
    have h := h.step (.other (.record _ 1))
    have h := h.step (.other (.release _ 1))
    have h := h.step (.other (.announce _ 1))
    have h := h.step (.hear (i := 0) rfl rfl rfl rfl rfl)
    have h := h.step (.answer (i := 0) rfl rfl rfl)
    obtain ⟨-, answered⟩ := out_of_reach_of_run h
    obtain ⟨call, found, -, stages⟩ :=
      answered _ (List.mem_append_right _ (List.mem_singleton_self _)) 0 rfl
    have started : call.started = [1] := congrArg Call.started (Option.some.inj found).symm
    obtain ⟨t, -, serial, outcome⟩ := stages 1 (by rw [started]; exact List.mem_singleton_self 1)
    -- Nobody is broken off in this run.
    have out := outcome.resolve_left fun broken => absurd (mem_of_brokenOff broken) (by decide)
    exact ⟨_, _, h, rfl, t, serial, out.2⟩

end Engine

end CommandShell
