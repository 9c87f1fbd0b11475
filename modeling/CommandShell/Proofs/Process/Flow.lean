import CommandShell.Process.Drain
import CommandShell.Program.Run
import CommandShell.Shell.Result
import Mathlib.Data.List.Infix

/-!
A pipeline while it runs: its processes, the tasks that carry bytes, and the call that waits.

What a stage writes gets to the next one by a task of the shell, as does a text that the first one
is fed with. Other tasks drain the streams that no stage reads. The tasks that feed the stages
belong to the call, which joins them before it answers and drops them when it is cancelled; a task
that is dropped while it runs is aborted. Drains and supervisors belong to the engine, and no call
reaches them.
-/
namespace CommandShell

namespace Flow

/-- Where the bytes come from that a task carries. -/
inductive Source
  | text
  | stage (index : Nat) (channel : Channel)
deriving DecidableEq, Repr

/-- Where a task carries bytes to. Listeners are told of each line; some of them keep it for the
answer. -/
inductive Target
  | input (index : Nat)
  | listeners (kept : Bool)
deriving DecidableEq, Repr

/-- Who drops a task. -/
inductive Owner
  | call
  | engine
deriving DecidableEq, Repr

inductive Progress
  | running
  | ended
  | aborted
deriving DecidableEq, Repr

/-- A task that carries bytes, with what it has carried so far. -/
structure Carrier where
  source : Source
  target : Target
  owner : Owner
  progress : Progress := .running
  carried : Bytes := []
deriving DecidableEq, Repr

namespace Carrier

def writer : Carrier := { source := .text, target := .input 0, owner := .call }

def copy (index : Nat) : Carrier :=
  { source := .stage index .output, target := .input (index + 1), owner := .call }

def drain (index : Nat) (channel : Channel) (kept : Bool) : Carrier :=
  { source := .stage index channel, target := .listeners kept, owner := .engine }

/-- A task after its call has dropped it. -/
def dropped (c : Carrier) : Carrier :=
  if c.owner = .call ∧ c.progress = .running then { c with progress := .aborted } else c

end Carrier

/-- The tasks of a pipeline with a last stage. The error streams of the others are drained for the
listeners alone. -/
def wiring (fed : Bool) (last : Nat) : List Carrier :=
  (if fed then [.writer] else []) ++
    (List.range last).flatMap (fun i => [.copy i, .drain i .error false]) ++
    [.drain last .output true, .drain last .error true]

/-- A process: all that it has tried to write, what it has closed, and how it has ended. -/
structure Process where
  written : Channel → Bytes := fun _ => []
  /-- Whether nobody can write to a channel of it any more. -/
  closed : Channel → Bool := fun _ => false
  /-- Whether nobody reads its input any more. -/
  deaf : Bool := false
  exit : Option Int := none
  /-- Whether its supervisor has told its end. -/
  reported : Bool := false

/-- What a process, those that have its streams from it, or its supervisor may do. -/
inductive Move
  | write (channel : Channel) (bytes : Bytes)
  | close (channel : Channel)
  | shut
  | exit (code : Int)
  | report
deriving DecidableEq, Repr

def Process.wrote (p : Process) (channel : Channel) (bytes : Bytes) : Process :=
  { p with written := fun c => if c = channel then p.written c ++ bytes else p.written c }

def Process.after? (p : Process) : Move → Option Process
  | .write channel bytes => if p.closed channel then none else some (p.wrote channel bytes)
  | .close channel => some { p with closed := fun c => c == channel || p.closed c }
  | .shut => some { p with deaf := true }
  | .exit code => if p.exit.isSome then none else some { p with exit := some code }
  | .report => if p.exit.isSome then some { p with reported := true } else none

inductive CallState
  | waiting
  | returned (result : Result)
deriving DecidableEq, Repr

/-- One step of a process, of a task, or of the call. -/
inductive Action
  | move (index : Nat) (move : Move)
  | carry (task : Nat) (bytes : Bytes)
  | finish (task : Nat)
  | answer
  | cancel
deriving DecidableEq, Repr

end Flow

/-- A pipeline that runs. -/
structure Flow where
  text : Bytes
  processes : List Flow.Process
  carriers : List Flow.Carrier
  call : Flow.CallState := .waiting

namespace Flow

/-- A pipeline of which all stages have just been started, the first one fed with a text or not. -/
def start (text : Option Bytes) (last : Nat) : Flow where
  text := text.getD []
  processes := List.replicate (last + 1) {}
  carriers := wiring text.isSome last

/-- All bytes that a source has had so far. -/
def offered (f : Flow) : Source → Bytes
  | .text => f.text
  | .stage i channel => f.processes[i]?.elim [] fun p => p.written channel

/-- Whether a source will have no more bytes. -/
def exhausted (f : Flow) : Source → Bool
  | .text => true
  | .stage i channel => f.processes[i]?.elim true fun p => p.closed channel

/-- Whether somebody takes the bytes at a target. -/
def takes (f : Flow) : Target → Bool
  | .input i => f.processes[i]?.elim false fun p => !p.deaf
  | .listeners _ => true

/-- A task has nothing to do any more: nobody takes its bytes, or it has carried all that there are
and will be. -/
def Spent (f : Flow) (c : Carrier) : Prop :=
  f.takes c.target = false ∨ f.exhausted c.source = true ∧ c.carried = f.offered c.source

/-- What is kept for the answer of a channel of the last stage. -/
def kept (f : Flow) (channel : Channel) : Bytes :=
  (f.carriers.find? fun c => c.target == .listeners true &&
    c.source == .stage (f.processes.length - 1) channel).elim [] Carrier.carried

/-- The answer of the call: the code of the last process and what has been kept. -/
def result (f : Flow) : Result :=
  Result.ofExit ((f.processes.getLast?.bind Process.exit).getD (-1))
    (Drain.captured (f.kept .output)) (Drain.captured (f.kept .error))

/-- The flow after its call has been cancelled. -/
def cancelled (f : Flow) : Flow :=
  { f with
    carriers := f.carriers.map Carrier.dropped
    call := .returned ShellError.cancelled.result }

/-- What may happen while a pipeline runs, and what it leads to. -/
inductive Step : Flow → Action → Flow → Prop
  | move {f i p move q} : f.processes[i]? = some p → p.after? move = some q →
      Step f (.move i move) { f with processes := f.processes.set i q }
  | carry {f k c bytes} : f.carriers[k]? = some c → c.progress = .running →
      f.takes c.target = true → c.carried ++ bytes <+: f.offered c.source →
      Step f (.carry k bytes)
        { f with carriers := f.carriers.set k { c with carried := c.carried ++ bytes } }
  | finish {f k c} : f.carriers[k]? = some c → c.progress = .running → f.Spent c →
      Step f (.finish k) { f with carriers := f.carriers.set k { c with progress := .ended } }
  | answer {f} : f.call = .waiting → (∀ p ∈ f.processes, p.reported = true) →
      (∀ c ∈ f.carriers, c.owner = .call → c.progress ≠ .running) →
      (∀ c ∈ f.carriers, c.target = .listeners true → c.progress = .ended) →
      Step f .answer { f with call := .returned f.result }
  | cancel {f} : f.call = .waiting → Step f .cancel f.cancelled

/-- Some steps in order, and where they lead. -/
inductive Run (f : Flow) : List Action → Flow → Prop
  | start : Run f [] f
  | step {past g action h} : Run f past g → g.Step action h → Run f (past ++ [action]) h

theorem Run.append {f g h : Flow} {past later : List Action} (first : f.Run past g)
    (second : g.Run later h) : f.Run (past ++ later) h := by
  induction second with
  | start => rwa [List.append_nil]
  | step _ step ih => exact List.append_assoc past _ _ ▸ ih.step step

section Growth

/-- A flow as it may be later: its sources have more, its targets take less. -/
structure Later (f g : Flow) : Prop where
  offered : ∀ source, f.offered source <+: g.offered source
  exhausted : ∀ source, f.exhausted source = true →
    g.exhausted source = true ∧ g.offered source = f.offered source
  takes : ∀ target, g.takes target = true → f.takes target = true

variable {f g : Flow}

theorem Spent.later {c : Carrier} (spent : f.Spent c) (later : f.Later g) : g.Spent c := by
  rcases spent with deaf | ⟨closed, all⟩
  · exact .inl (Bool.eq_false_iff.2 fun takes => by simp [later.takes c.target takes] at deaf)
  · obtain ⟨closed, same⟩ := later.exhausted c.source closed
    exact .inr ⟨closed, all.trans same.symm⟩

theorem Process.after?_grows {p q : Process} {move : Move} (h : p.after? move = some q) :
    (∀ channel, p.written channel <+: q.written channel ∧ (p.closed channel = true →
      q.closed channel = true ∧ q.written channel = p.written channel)) ∧
    (q.deaf = false → p.deaf = false) := by
  cases move with
  | write channel bytes =>
      rw [after?] at h
      split at h <;> cases h
      next unfinished =>
      refine ⟨fun c => ?_, id⟩
      unfold wrote
      dsimp only
      split
      · next same => exact ⟨List.prefix_append _ _, fun closed => absurd (same ▸ closed) unfinished⟩
      · exact ⟨List.prefix_rfl, fun closed => ⟨closed, rfl⟩⟩
  | close channel =>
      cases h
      exact ⟨fun c => ⟨List.prefix_rfl, fun closed => ⟨by simp [closed], rfl⟩⟩, id⟩
  | shut =>
      cases h
      exact ⟨fun c => ⟨List.prefix_rfl, fun closed => ⟨closed, rfl⟩⟩, nofun⟩
  | exit code =>
      rw [after?] at h
      split at h <;> cases h
      exact ⟨fun c => ⟨List.prefix_rfl, fun closed => ⟨closed, rfl⟩⟩, id⟩
  | report =>
      rw [after?] at h
      split at h <;> cases h
      exact ⟨fun c => ⟨List.prefix_rfl, fun closed => ⟨closed, rfl⟩⟩, id⟩

theorem later_move {i : Nat} {p q : Process} {move : Move} (found : f.processes[i]? = some p)
    (moved : p.after? move = some q) : f.Later { f with processes := f.processes.set i q } := by
  obtain ⟨channels, deaf⟩ := Process.after?_grows moved
  have after (j : Nat) :
      (f.processes.set i q)[j]? = if i = j then some q else f.processes[j]? := by
    rw [List.getElem?_set, if_pos (List.getElem?_eq_some_iff.1 found).1]
  constructor
  · rintro (_ | ⟨j, channel⟩)
    · exact List.prefix_rfl
    · simp only [offered, after]
      split
      · next same => simpa [← same, found] using (channels channel).1
      · exact List.prefix_rfl
  · rintro (_ | ⟨j, channel⟩) closed
    · exact ⟨closed, rfl⟩
    · simp only [offered, exhausted, after] at closed ⊢
      split
      · next same =>
        have before : p.closed channel = true := by simpa [← same, found] using closed
        simpa [← same, found] using (channels channel).2 before
      · exact ⟨closed, rfl⟩
  · rintro (j | _) takes
    · simp only [Flow.takes, after] at takes ⊢
      split at takes
      · next same => simpa [← same, found] using deaf (by simpa using takes)
      · exact takes
    · rfl

/-- What there is to carry depends on the processes and the text alone. -/
theorem congr_of_same (text : g.text = f.text) (processes : g.processes = f.processes) :
    g.offered = f.offered ∧ g.exhausted = f.exhausted ∧ g.takes = f.takes := by
  refine ⟨funext fun source => ?_, funext fun source => ?_, funext fun target => ?_⟩
  · cases source <;> simp only [offered, text, processes]
  · cases source <;> simp only [exhausted, processes]
  · cases target <;> simp only [Flow.takes, processes]

theorem later_of_same (text : g.text = f.text) (processes : g.processes = f.processes) :
    f.Later g := by
  obtain ⟨offered, exhausted, takes⟩ := congr_of_same text processes
  exact ⟨fun source => by rw [offered], fun source closed => by simp [exhausted, offered, closed],
    fun target taken => takes ▸ taken⟩

theorem later_step {action : Action} (step : f.Step action g) : f.Later g := by
  cases step with
  | move found moved => exact later_move found moved
  | carry | finish | answer | cancel => exact later_of_same rfl rfl

end Growth

section Tasks

/-- What a task carries from where to where, and whose it is. -/
def Carrier.route (c : Carrier) : Source × Target × Owner := (c.source, c.target, c.owner)

theorem routes_set {carriers : List Carrier} {k : Nat} {c d : Carrier}
    (found : carriers[k]? = some c) (same : d.route = c.route) :
    (carriers.set k d).map Carrier.route = carriers.map Carrier.route := by
  obtain ⟨bound, rfl⟩ := List.getElem?_eq_some_iff.1 found
  have bound' : k < (carriers.map Carrier.route).length := by rwa [List.length_map]
  rw [List.map_set, same, ← List.getElem_map Carrier.route (h := bound'), List.set_getElem_self]

theorem route_dropped (c : Carrier) : c.dropped.route = c.route := by
  unfold Carrier.dropped
  split <;> rfl

variable {f g : Flow}

/-- Nothing is rewired. -/
theorem routes_step {action : Action} (step : f.Step action g) :
    g.carriers.map Carrier.route = f.carriers.map Carrier.route := by
  cases step with
  | move | answer => rfl
  | carry found | finish found => exact routes_set found rfl
  | cancel =>
      simp only [cancelled, List.map_map]
      exact List.map_congr_left fun c _ => route_dropped c

theorem routes_run {past : List Action} (run : f.Run past g) :
    g.carriers.map Carrier.route = f.carriers.map Carrier.route := by
  induction run with
  | start => rfl
  | step _ step ih => exact (routes_step step).trans ih

theorem length_carriers_run {past : List Action} (run : f.Run past g) :
    g.carriers.length = f.carriers.length := by
  simpa using congrArg List.length (routes_run run)

theorem length_processes_run {past : List Action} (run : f.Run past g) :
    g.processes.length = f.processes.length := by
  induction run with
  | start => rfl
  | step _ step ih => cases step <;> simpa [cancelled] using ih

/-- What holds of every flow that can be reached. -/
structure Sound (f : Flow) : Prop where
  carried : ∀ c ∈ f.carriers, c.carried <+: f.offered c.source
  ended : ∀ c ∈ f.carriers, c.progress = .ended → f.Spent c
  aborted : ∀ c ∈ f.carriers, c.progress = .aborted → f.call ≠ .waiting
  reported : ∀ p ∈ f.processes, p.reported = true → p.exit.isSome = true

theorem wiring_new {fed : Bool} {last : Nat} {c : Carrier} (h : c ∈ wiring fed last) :
    c.progress = .running ∧ c.carried = [] ∧ (c.owner = .call ↔ ∃ i, c.target = .input i) := by
  simp only [wiring, List.mem_append, List.mem_ite_nil_right, List.mem_flatMap, List.mem_cons,
    List.not_mem_nil, or_false] at h
  rcases h with (⟨-, rfl⟩ | ⟨i, -, rfl | rfl⟩) | rfl | rfl <;>
    simp [Carrier.writer, Carrier.copy, Carrier.drain]

theorem sound_start (text : Option Bytes) (last : Nat) : (start text last).Sound where
  carried c hc := (wiring_new hc).2.1 ▸ List.nil_prefix
  ended c hc ended := by simp [(wiring_new hc).1] at ended
  aborted c hc aborted := by simp [(wiring_new hc).1] at aborted
  reported p hp reported := by
    rw [List.eq_of_mem_replicate hp] at reported
    cases reported

theorem Process.after?_reported {p q : Process} {move : Move} (h : p.after? move = some q)
    (before : p.reported = true → p.exit.isSome = true) (reported : q.reported = true) :
    q.exit.isSome = true := by
  cases move <;> simp only [after?] at h
  case write => split at h <;> cases h; exact before reported
  case close => cases h; exact before reported
  case shut => cases h; exact before reported
  case exit => split at h <;> cases h; rfl
  case report => split at h <;> cases h; assumption

theorem dropped_of_not_running {c : Carrier} (h : c.progress ≠ .running) : c.dropped = c :=
  if_neg fun both => h both.2

theorem sound_step {action : Action} (h : f.Sound) (step : f.Step action g) : g.Sound := by
  have later := later_step step
  have carried (c) (hc : c ∈ f.carriers) : c.carried <+: g.offered c.source :=
    (h.carried c hc).trans (later.offered c.source)
  have ended (c) (hc : c ∈ f.carriers) (stopped : c.progress = .ended) : g.Spent c :=
    (h.ended c hc stopped).later later
  cases step with
  | move found moved =>
      refine ⟨carried, ended, h.aborted, fun p hp => ?_⟩
      rcases List.mem_or_eq_of_mem_set hp with old | rfl
      · exact h.reported p old
      · exact Process.after?_reported moved (h.reported _ (List.mem_of_getElem? found))
  | @carry k c bytes found running takes within =>
      refine ⟨fun d hd => ?_, fun d hd stopped => ?_, fun d hd gone => ?_, h.reported⟩ <;>
        rcases List.mem_or_eq_of_mem_set hd with old | rfl
      · exact carried d old
      · exact within
      · exact ended d old stopped
      · simp [running] at stopped
      · exact h.aborted d old gone
      · simp [running] at gone
  | @finish k c found running spent =>
      refine ⟨fun d hd => ?_, fun d hd stopped => ?_, fun d hd gone => ?_, h.reported⟩ <;>
        rcases List.mem_or_eq_of_mem_set hd with old | rfl
      · exact carried d old
      · exact carried c (List.mem_of_getElem? found)
      · exact ended d old stopped
      · exact spent.later later
      · exact h.aborted d old gone
      · cases gone
  | answer => exact ⟨carried, ended, fun _ _ _ => nofun, h.reported⟩
  | cancel =>
      refine ⟨fun d hd => ?_, fun d hd stopped => ?_, fun _ _ _ => nofun, h.reported⟩ <;>
        obtain ⟨c, hc, rfl⟩ := List.mem_map.1 hd
      · unfold Carrier.dropped
        split <;> exact carried c hc
      · unfold Carrier.dropped at stopped ⊢
        split at stopped
        · cases stopped
        · next kept =>
          rw [if_neg kept]
          exact ended c hc stopped

theorem sound_run {text : Option Bytes} {last : Nat} {past : List Action}
    (run : (start text last).Run past f) : f.Sound := by
  induction run with
  | start => exact sound_start text last
  | step _ step ih => exact sound_step ih step

end Tasks

section Answer
variable {text : Option Bytes} {last : Nat} {past : List Action} {f : Flow}
  (run : (start text last).Run past f)
include run

theorem mem_carriers_of_wiring {c : Carrier} (h : c ∈ wiring text.isSome last) :
    ∃ d ∈ f.carriers, d.route = c.route := by
  rw [← List.mem_map, routes_run run]
  exact List.mem_map_of_mem h

/-- The tasks that feed the stages are the ones that the call drops. -/
theorem owner_eq_call_iff {c : Carrier} (h : c ∈ f.carriers) :
    c.owner = .call ↔ ∃ i, c.target = .input i := by
  have routed := List.mem_map_of_mem (f := Carrier.route) h
  rw [routes_run run] at routed
  obtain ⟨new, member, same⟩ := List.mem_map.1 routed
  simp only [Carrier.route, Prod.mk.injEq] at same
  rw [← same.2.1, ← same.2.2]
  exact (wiring_new member).2.2

/-- Every stage but the first is fed with the output of the one before it, and the first one with
the text, if there is one. -/
theorem feeders_of_run :
    (∀ i < last, ∃ c ∈ f.carriers, c.source = .stage i .output ∧ c.target = .input (i + 1)) ∧
    (text.isSome = true → ∃ c ∈ f.carriers, c.source = .text ∧ c.target = .input 0) := by
  constructor
  · intro i below
    have copied : Carrier.copy i ∈ wiring text.isSome last := by
      simpa [wiring] using .inr (.inl ⟨i, below, .inl rfl⟩)
    obtain ⟨c, hc, route⟩ := mem_carriers_of_wiring run copied
    simp only [Carrier.route, Carrier.copy, Prod.mk.injEq] at route
    exact ⟨c, hc, route.1, route.2.1⟩
  · intro fed
    obtain ⟨c, hc, route⟩ := mem_carriers_of_wiring run (c := .writer) (by simp [wiring, fed])
    simp only [Carrier.route, Carrier.writer, Prod.mk.injEq] at route
    exact ⟨c, hc, route.1, route.2.1⟩

theorem kept_of_run (channel : Channel) :
    ∃ c ∈ f.carriers, c.source = .stage last channel ∧ c.target = .listeners true ∧
      f.kept channel = c.carried := by
  have stages : f.processes.length - 1 = last := by
    rw [length_processes_run run, start, List.length_replicate, Nat.add_sub_cancel]
  have drained : Carrier.drain last channel true ∈ wiring text.isSome last := by
    cases channel <;> simp [wiring]
  obtain ⟨c, hc, route⟩ := mem_carriers_of_wiring run drained
  simp only [Carrier.route, Carrier.drain, Prod.mk.injEq] at route
  unfold kept
  rw [stages]
  cases found : f.carriers.find? _ with
  | none => exact absurd (List.find?_eq_none.1 found c hc) (by simp [route])
  | some d =>
      have fits := List.find?_some found
      simp only [Bool.and_eq_true, beq_iff_eq] at fits
      exact ⟨d, List.mem_of_find?_eq_some found, fits.2, fits.1, rfl⟩

/-- A call that answers answers with the code of the last stage and all that this has written. By
then every stage has been fed with all that there is for it, unless it has stopped reading. -/
theorem answer_of_run {g : Flow} (answered : f.Step .answer g) :
    (∃ p code, f.processes[last]? = some p ∧ p.exit = some code ∧
      g.call = .returned (Result.ofExit code
        (Drain.captured (f.offered (.stage last .output)))
        (Drain.captured (f.offered (.stage last .error))))) ∧
    ∀ c ∈ f.carriers, ∀ i, c.target = .input i → f.takes (.input i) = true →
      c.carried = f.offered c.source := by
  have sound := sound_run run
  cases answered with
  | answer waiting reported joined drained =>
      have kept (channel : Channel) : f.kept channel = f.offered (.stage last channel) := by
        obtain ⟨c, hc, source, target, kept⟩ := kept_of_run run channel
        rw [kept, ← source]
        refine ((sound.ended c hc (drained c hc target)).resolve_left ?_).2
        rw [target]
        nofun
      have stages : f.processes.length = last + 1 := by
        rw [length_processes_run run, start, List.length_replicate]
      obtain ⟨p, found⟩ : ∃ p, f.processes[last]? = some p :=
        ⟨_, List.getElem?_eq_getElem (by omega)⟩
      obtain ⟨code, exited⟩ := Option.isSome_iff_exists.1
        (sound.reported p (List.mem_of_getElem? found) (reported p (List.mem_of_getElem? found)))
      refine ⟨⟨p, code, found, exited, ?_⟩, fun c hc i target takes => ?_⟩
      · have final : f.processes.getLast? = some p := by
          rw [List.getLast?_eq_getElem?, stages, Nat.add_sub_cancel, found]
        rw [result, final, Option.bind_some, exited, kept, kept]
        rfl
      · have owned := (owner_eq_call_iff run hc).2 ⟨i, target⟩
        have stopped : c.progress = .ended := by
          cases progress : c.progress with
          | running => exact absurd progress (joined c hc owned)
          | ended => rfl
          | aborted => exact absurd waiting (sound.aborted c hc progress)
        refine ((sound.ended c hc stopped).resolve_left ?_).2
        rw [target, takes]
        nofun

end Answer

end Flow

end CommandShell
