import CommandShell.Proofs.Process.Cancelling
import CommandShell.Proofs.Shell.Composition

/-!
The stages of a pipeline in any order, and in the order in which `runStages` runs them.

`runStages` feeds a stage when the one before it has come to its end. In a flow the stages write and
are fed byte by byte, and nobody says who is next. The answer is the same for every order, since a
call answers only when all that has been written has been carried, and the order of `runStages` is
one of them. A call that is cancelled before anything has happened leaves stages that nothing is
carried to, and so does `runStages`.
-/
namespace CommandShell.Flow

/-- All that there is by now for a stage to read. -/
def supplied (f : Flow) : Nat → Bytes
  | 0 => f.text
  | i + 1 => f.offered (.stage i .output)

/-- All that has been carried to a stage by now. -/
def fedWith (f : Flow) (i : Nat) : Bytes :=
  (f.carriers.find? fun c => c.target == .input i).elim [] Carrier.carried

/-- Every process that has ended has replied by its function to the bytes that there were for it. -/
def Obeys (f : Flow) (fs : List Behaviour) (bytes : Nat → Bytes) : Prop :=
  ∀ (i : Nat) p behaviour code, f.processes[i]? = some p → fs[i]? = some behaviour →
    p.exit = some code → p.written .output = (behaviour (bytes i)).output ∧
      p.written .error = (behaviour (bytes i)).error ∧ code = (behaviour (bytes i)).code

variable {text : Option Bytes} {last : Nat} {past : List Action} {fs : List Behaviour} {f g : Flow}

theorem compose_getElem?_zero {behaviour : Behaviour} (known : fs[0]? = some behaviour)
    (input : Bytes) : (compose fs input)[0]? = some (behaviour input) := by
  cases fs with
  | nil => cases known
  | cons => exact congrArg (fun b : Behaviour => some (b input)) (Option.some.inj known)

/-- A reply is composed of the one before it. -/
theorem compose_getElem?_succ (fs : List Behaviour) (input : Bytes) {i : Nat}
    {behaviour : Behaviour} {reply : Reply} (next : fs[i + 1]? = some behaviour)
    (here : (compose fs input)[i]? = some reply) :
    (compose fs input)[i + 1]? = some (behaviour reply.output) := by
  induction fs generalizing input i with
  | nil => cases next
  | cons f rest ih =>
      cases i with
      | zero =>
          cases here
          cases rest with
          | nil => cases next
          | cons g rest =>
              cases next
              rfl
      | succ i => exact ih _ next here

/-- If all processes have ended, each of them has given the reply that is composed. -/
theorem compose_of_obeys (obeys : f.Obeys fs f.supplied) (ended : ∀ p ∈ f.processes, p.exit.isSome)
    (length : fs.length = f.processes.length) {i : Nat} {behaviour : Behaviour}
    (found : fs[i]? = some behaviour) :
    (compose fs f.text)[i]? = some (behaviour (f.supplied i)) := by
  induction i generalizing behaviour with
  | zero => exact compose_getElem?_zero found f.text
  | succ i ih =>
      have bound := (List.getElem?_eq_some_iff.1 found).1
      obtain ⟨before, found'⟩ : ∃ before, fs[i]? = some before :=
        ⟨_, List.getElem?_eq_getElem (Nat.lt_of_succ_lt bound)⟩
      obtain ⟨p, there⟩ : ∃ p, f.processes[i]? = some p :=
        ⟨_, List.getElem?_eq_getElem (length ▸ Nat.lt_of_succ_lt bound)⟩
      obtain ⟨code, exited⟩ := Option.isSome_iff_exists.1 (ended p (List.mem_of_getElem? there))
      obtain ⟨written, -⟩ := obeys i p before code there found' exited
      have supplied : f.supplied (i + 1) = (before (f.supplied i)).output := by
        rw [Flow.supplied, offered, there]
        exact written
      rw [supplied]
      exact compose_getElem?_succ fs f.text found (ih found')

theorem text_run (run : f.Run past g) : g.text = f.text := by
  induction run with
  | start => rfl
  | step _ step ih => cases step <;> exact ih

/-- Whatever the order in which processes that reply by functions write, are fed and end, a call
that answers answers with the last reply that is composed. -/
theorem answer_of_obeys (run : (start text last).Run past f) (answered : f.Step .answer g)
    (length : fs.length = last + 1) (obeys : f.Obeys fs f.supplied) :
    ∃ reply, (compose fs (text.getD [])).getLast? = some reply ∧
      g.call = .returned (Result.ofExit reply.code (Drain.captured reply.output)
        (Drain.captured reply.error)) := by
  obtain ⟨⟨p, code, found, exited, call⟩, -⟩ := answer_of_run run answered
  have stages : f.processes.length = last + 1 := by
    rw [length_processes_run run, start, List.length_replicate]
  have ended : ∀ q ∈ f.processes, q.exit.isSome := by
    cases answered with
    | answer _ reported => exact fun q hq => (sound_run run).reported q hq (reported q hq)
  obtain ⟨behaviour, known⟩ : ∃ behaviour, fs[last]? = some behaviour :=
    ⟨_, List.getElem?_eq_getElem (by omega)⟩
  have composed := compose_of_obeys obeys ended (length.trans stages.symm) known
  obtain ⟨output, error, same⟩ := obeys last p behaviour code found known exited
  refine ⟨behaviour (f.supplied last), ?_, ?_⟩
  · rw [List.getLast?_eq_getElem?, State.compose_length, length, Nat.add_sub_cancel]
    rw [text_run run] at composed
    exact composed
  · rw [call, offered, offered, found, Option.elim_some, Option.elim_some, output, error, same]

section Order

/-- A process that has given its reply, and whose end has been told. -/
def Process.gone (reply : Reply) : Process where
  written
    | .output => reply.output
    | .error => reply.error
  closed _ := true
  exit := some reply.code
  reported := true

/-- What a process does to give its reply. -/
def replying (reply : Reply) : List Move :=
  [.write .output reply.output, .write .error reply.error, .close .output, .close .error,
    .exit reply.code, .report]

theorem foldlM_replying (reply : Reply) :
    (replying reply).foldlM Process.after? {} = some (Process.gone reply) := by
  simp only [replying, Process.gone, List.foldlM_cons, List.foldlM_nil, Process.after?,
    Process.wrote, Option.bind_eq_bind, Option.bind_some, Bool.false_eq_true, if_false,
    Option.isSome_none, Option.isSome_some, if_true, Option.pure_def, Option.some.injEq,
    Process.mk.injEq, and_true]
  constructor <;> funext channel <;> cases channel <;> simp

theorem run_moves {moves : List Move} {i : Nat} {p q : Process} (found : f.processes[i]? = some p)
    (moved : moves.foldlM Process.after? p = some q) :
    f.Run (moves.map (.move i)) { f with processes := f.processes.set i q } := by
  induction moves generalizing f p with
  | nil =>
      cases moved
      obtain ⟨bound, rfl⟩ := List.getElem?_eq_some_iff.1 found
      rw [List.set_getElem_self]
      exact .start
  | cons move rest ih =>
      rw [List.foldlM_cons, Option.bind_eq_bind, Option.bind_eq_some_iff] at moved
      obtain ⟨next, here, later⟩ := moved
      have bound := (List.getElem?_eq_some_iff.1 found).1
      have again := ih (f := { f with processes := f.processes.set i next })
        (List.getElem?_set_self bound) later
      rw [List.set_set] at again
      exact (Run.step .start (.move found here)).append again

/-- Processes that have done nothing may give their replies one after the other. -/
theorem run_replying (replies : List Reply) {pre : List Process}
    (new : f.processes = pre ++ List.replicate replies.length ({} : Process)) :
    ∃ past, f.Run past { f with processes := pre ++ replies.map .gone } := by
  induction replies generalizing f pre with
  | nil =>
      have same : f.processes = pre := by simpa using new
      refine ⟨[], ?_⟩
      rw [List.map_nil, List.append_nil, ← same]
      exact .start
  | cons reply rest ih =>
      rw [List.length_cons, List.replicate_succ] at new
      have found : f.processes[pre.length]? = some {} := by simp [new]
      have set : f.processes.set pre.length (.gone reply) =
          (pre ++ [.gone reply]) ++ List.replicate rest.length ({} : Process) := by simp [new]
      obtain ⟨past, later⟩ := ih (f := { f with processes := f.processes.set _ (.gone reply) }) set
      rw [← List.append_cons] at later
      exact ⟨_, (run_moves found (foldlM_replying reply)).append later⟩

/-- Tasks that have carried nothing may carry all that there is one after the other, if it is taken
and there will be no more. -/
theorem run_carrying (rest : List Carrier) {pre : List Carrier} (carriers : f.carriers = pre ++ rest)
    (new : ∀ c ∈ rest, c.progress = .running ∧ c.carried = [])
    (ready : ∀ c ∈ rest, f.takes c.target = true ∧ f.exhausted c.source = true) :
    ∃ past, f.Run past { f with
      carriers := pre ++ rest.map fun c =>
        { c with carried := f.offered c.source, progress := .ended } } := by
  induction rest generalizing f pre with
  | nil =>
      have same : f.carriers = pre := by simpa using carriers
      refine ⟨[], ?_⟩
      rw [List.map_nil, List.append_nil, ← same]
      exact .start
  | cons c rest ih =>
      obtain ⟨⟨running, nothing⟩, new⟩ := List.forall_mem_cons.1 new
      obtain ⟨⟨takes, exhausted⟩, ready⟩ := List.forall_mem_cons.1 ready
      have found : f.carriers[pre.length]? = some c := by simp [carriers]
      have within : c.carried ++ f.offered c.source <+: f.offered c.source := by simp [nothing]
      let full : Carrier := { c with carried := f.offered c.source, progress := .ended }
      have carried := Run.step .start (.carry found running takes within)
      have bound := (List.getElem?_eq_some_iff.1 found).1
      have spent : f.Spent { c with carried := c.carried ++ f.offered c.source } :=
        .inr ⟨exhausted, by simp [nothing]⟩
      have ended := carried.step (.finish (List.getElem?_set_self bound) running spent)
      have set : f.carriers.set pre.length full = (pre ++ [full]) ++ rest := by simp [carriers]
      obtain ⟨past, later⟩ := ih (f := { f with carriers := f.carriers.set pre.length full }) set
        new ready
      rw [← List.append_cons] at later
      simp only [List.set_set, nothing, List.nil_append] at ended
      exact ⟨_, ended.append later⟩

theorem offered_replied {replies : List Reply} (processes : f.processes = replies.map .gone)
    {i : Nat} {reply : Reply} (found : replies[i]? = some reply) :
    f.offered (.stage i .output) = reply.output := by
  rw [offered, processes, List.getElem?_map, found]
  rfl

theorem wiring_ready {fed : Bool} {replies : List Reply} (length : replies.length = last + 1)
    (processes : f.processes = replies.map .gone) {c : Carrier} (member : c ∈ wiring fed last) :
    f.takes c.target = true ∧ f.exhausted c.source = true := by
  have open_inputs {i : Nat} (below : i < last + 1) : f.takes (.input i) = true := by
    simp [takes, processes, length, below, Process.gone]
  have closed (source : Source) : f.exhausted source = true := by
    cases source with
    | text => rfl
    | stage i channel =>
        rw [exhausted, processes, List.getElem?_map]
        cases replies[i]? <;> rfl
  refine ⟨?_, closed _⟩
  simp only [wiring, List.mem_append, List.mem_ite_nil_right, List.mem_flatMap, List.mem_cons,
    List.mem_range, List.not_mem_nil, or_false] at member
  rcases member with (⟨-, rfl⟩ | ⟨i, below, rfl | rfl⟩) | rfl | rfl
  · exact open_inputs (Nat.succ_pos last)
  · exact open_inputs (Nat.succ_lt_succ below)
  all_goals rfl

/-- Processes that have given the replies that are composed have replied by the functions. -/
theorem obeys_of_compose (processes : f.processes = (compose fs f.text).map .gone) :
    f.Obeys fs f.supplied := by
  have replied {i : Nat} {behaviour : Behaviour} (known : fs[i]? = some behaviour) :
      (compose fs f.text)[i]? = some (behaviour (f.supplied i)) := by
    cases i with
    | zero => exact compose_getElem?_zero known f.text
    | succ i =>
        have bound := (List.getElem?_eq_some_iff.1 known).1
        obtain ⟨before, there⟩ : ∃ before, (compose fs f.text)[i]? = some before :=
          ⟨_, List.getElem?_eq_getElem (by rw [State.compose_length]; omega)⟩
        rw [supplied, offered_replied processes there]
        exact compose_getElem?_succ fs f.text known there
  intro i p behaviour code found known exited
  rw [processes, List.getElem?_map, replied known] at found
  cases found
  cases exited
  exact ⟨rfl, rfl, rfl⟩

/-- The order of `runStages` is one of those in which stages that reply by functions may come to an
answer: each of them gives its reply after the one before it. -/
theorem exists_answer (text : Option Bytes) (length : fs.length = last + 1) :
    ∃ past f g, (start text last).Run past f ∧ f.Step .answer g ∧ f.Obeys fs f.supplied := by
  let composed := compose fs (text.getD [])
  have replies : composed.length = last + 1 := (State.compose_length fs _).trans length
  have new : (start text last).processes = [] ++ List.replicate composed.length ({} : Process) := by
    rw [replies, start, List.nil_append]
  obtain ⟨past, first⟩ := run_replying composed new
  let replied : Flow := { start text last with processes := composed.map .gone }
  have wired : replied.carriers = [] ++ wiring text.isSome last := rfl
  obtain ⟨later, second⟩ := run_carrying (wiring text.isSome last) wired
    (fun c hc => ⟨(wiring_new hc).1, (wiring_new hc).2.1⟩) (fun c hc => wiring_ready replies rfl hc)
  refine ⟨_, _, _, first.append second, .answer rfl ?_ ?_ ?_, ?_⟩
  · intro p hp
    obtain ⟨reply, -, rfl⟩ := List.mem_map.1 hp
    rfl
  · intro c hc _
    obtain ⟨d, -, rfl⟩ := List.mem_map.1 hc
    simp
  · intro c hc _
    obtain ⟨d, -, rfl⟩ := List.mem_map.1 hc
    rfl
  · exact obeys_of_compose rfl

end Order

/-- Nothing is ever carried to a stage once the call has been cancelled at the start. -/
theorem fedWith_of_cancelled (run : (start text last).cancelled.Run past g) (i : Nat) :
    g.fedWith i = [] := by
  unfold fedWith
  cases feeder : g.carriers.find? _ with
  | none => rfl
  | some c =>
      have target : c.target = .input i := beq_iff_eq.1 (List.find?_some feeder :)
      obtain ⟨k, found⟩ := List.getElem?_of_mem (List.mem_of_find?_eq_some feeder)
      have bound := (List.getElem?_eq_some_iff.1 found).1
      rw [length_carriers_run run, cancelled, List.length_map] at bound
      obtain ⟨d, there⟩ : ∃ d, (start text last).carriers[k]? = some d :=
        ⟨_, List.getElem?_eq_getElem bound⟩
      obtain ⟨-, nothing, owned⟩ := wiring_new (List.mem_of_getElem? there)
      have target' : d.target = .input i := by
        have dropped : (start text last).cancelled.carriers[k]? = some d.dropped := by
          rw [cancelled, List.getElem?_map, there, Option.map_some]
        obtain ⟨e, found', route⟩ := route_of_run run dropped
        rw [found] at found'
        cases found'
        rw [route_dropped] at route
        exact (congrArg (·.2.1) route).symm.trans target
      obtain ⟨same, -⟩ := feeder_of_cancelled run there (owned.2 ⟨i, target'⟩)
      rw [found] at same
      cases same
      exact (carried_dropped d).trans nothing

section Machine
variable {s : State} {calm : Files → Prop} {stages : List Stage} (fresh : s.Fresh)
  (here : calm s.machine.files) (performs : List.Forall₂ (s.Performs calm) stages fs)
include fresh here performs

/-- In whatever order stages are run, the answer is that of `runStages`. -/
theorem answer_eq_runStages {input : Text} (some_stage : stages.length = last + 1)
    (fed : text.getD [] = Text.encode input) (run : (start text last).Run past f)
    (answered : f.Step .answer g) (obeys : f.Obeys fs f.supplied) :
    g.call = .returned (s.runStages stages input false).2 := by
  have length : fs.length = last + 1 := performs.length_eq ▸ some_stage
  have nonempty : stages ≠ [] := List.ne_nil_of_length_eq_add_one some_stage
  obtain ⟨reply, final, call⟩ := answer_of_obeys run answered length obeys
  rw [fed] at final
  obtain ⟨files, fed, pids, gives, -, awaits⟩ :=
    State.runStages_of_performs fresh here nonempty performs input false
  rw [replies_false] at gives
  obtain ⟨time, -, waited⟩ := State.await_running fresh pids gives files stages
    ((fed.map Child.pid).getLastD 0)
  obtain ⟨reply', final', answer⟩ := State.resultOf_running fresh pids gives nonempty files time
  obtain rfl : reply = reply' := Option.some.inj (final.symm.trans final')
  rw [call, awaits, waited, answer]

/-- Stages whose call has been cancelled at the start have been fed by `runStages` with what any
flow feeds them with: each process that ends in a flow has written there what its child writes. -/
theorem written_of_cancelled (input : Text) (some_stage : stages.length = last + 1)
    (run : (start text last).cancelled.Run past g) (obeys : g.Obeys fs g.fedWith) :
    (start text last).cancelled.call = .returned (s.runStages stages input true).2 ∧
    ∀ (i : Nat) p code, g.processes[i]? = some p → p.exit = some code →
      ∃ c, (s.runStages stages input true).1.machine.child? (s.machine.nextPid + i) = some c ∧
        ∀ channel, c.run.all channel = p.written channel := by
  have length : fs.length = last + 1 := performs.length_eq ▸ some_stage
  have nonempty : stages ≠ [] := List.ne_nil_of_length_eq_add_one some_stage
  obtain ⟨files, fed, pids, gives, -, awaits⟩ :=
    State.runStages_of_performs fresh here nonempty performs input true
  have ran : s.runStages stages input true =
      (s.running files fed stages, ShellError.cancelled.result) := awaits
  rw [if_pos rfl, replies_true] at gives
  rw [ran]
  refine ⟨rfl, fun i p code found exited => ?_⟩
  have bound := (List.getElem?_eq_some_iff.1 found).1
  rw [length_processes_run run, cancelled, start, List.length_replicate, ← length] at bound
  obtain ⟨behaviour, known⟩ : ∃ behaviour, fs[i]? = some behaviour :=
    ⟨_, List.getElem?_eq_getElem bound⟩
  obtain ⟨output, error, -⟩ := obeys i p behaviour code found known exited
  rw [fedWith_of_cancelled run] at output error
  have child_bound : i < fed.length := by rwa [gives.length_eq, List.length_map]
  obtain ⟨c, child⟩ : ∃ c, fed[i]? = some c := ⟨_, List.getElem?_eq_getElem child_bound⟩
  have given := State.gives_of_getElem? gives child (by rw [List.getElem?_map, known]; rfl)
  have pid : c.pid = s.machine.nextPid + i := State.pid_of_range' pids child
  refine ⟨c, pid ▸ State.child?_running fresh pids files stages (List.mem_of_getElem? child), ?_⟩
  rintro (_ | _)
  · exact given.run.output.trans output.symm
  · exact given.run.error.trans error.symm

end Machine

end CommandShell.Flow
