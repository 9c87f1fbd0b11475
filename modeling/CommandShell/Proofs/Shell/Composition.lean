import CommandShell.Proofs.Shell.Stages
import Mathlib.Data.List.Forall2

/-!
What the stages of a pipeline write, when each of them is a function of what it reads.

The machine feeds the stages in order, each with the whole output of the one before. So if every
process replies to its input by a function, all of them together reply by the composition of these,
and whoever waits for them is told of the last reply.
-/
namespace CommandShell

/-- What a stage replies to the bytes that it is fed with. -/
abbrev Behaviour := Bytes → Reply

/-- The replies of some stages, each fed with the output of the one before. -/
def compose : List Behaviour → Bytes → List Reply
  | [], _ => []
  | f :: rest, input => f input :: compose rest (f input).output

/-- The replies of some stages where the pipes between them may be cut: then each of them but the
first one is fed with nothing. -/
def replies (cut : Bool) : List Behaviour → Bytes → List Reply
  | [], _ => []
  | f :: rest, input => f input :: replies cut rest (if cut then [] else (f input).output)

theorem replies_false (fs : List Behaviour) (input : Bytes) :
    replies false fs input = compose fs input := by
  induction fs generalizing input with
  | nil => rfl
  | cons f rest ih => exact congrArg (f input :: ·) (ih _)

theorem replies_true (fs : List Behaviour) : replies true fs [] = fs.map fun f => f [] := by
  induction fs with
  | nil => rfl
  | cons f rest ih => exact congrArg (f [] :: ·) ih

/-- A run comes to its end by itself, and by then has written a reply. -/
structure Run.Shows (run : Run) (reply : Reply) : Prop where
  chunk : run.chunk = []
  output : run.all .output = reply.output
  error : run.all .error = reply.error
  ending : ∃ time status, run.ending = some (time, status) ∧ status.code = reply.code ∧
    ∀ w ∈ run.written, w.time ≤ time

theorem Reply.at_shows (r : Reply) (time : Nat) : (r.at time).Shows r where
  chunk := rfl
  output := by simp [Reply.at, Run.all]
  error := by simp [Reply.at, Run.all]
  ending := ⟨time + 1, .exited r.code, rfl, rfl, by simp [Reply.at]⟩

/-- A program that reads its input to the end replies to each one that has an end. -/
theorem Program.draining_shows (reply : Call → Reply) {c : Call} (finite : c.input.chunk = []) :
    (Program.draining reply c).run.Shows (reply c) ∧
      (Program.draining reply c).files = c.files := by
  rw [Program.draining, if_neg (by simp [Supply.isEndless, finite])]
  exact ⟨Reply.at_shows _ _, rfl⟩

/-- What a process does that is fed with an input, where there are some files. -/
def Child.outcome (c : Child) (input : Supply) (files : Files) : Outcome :=
  c.image.run ⟨c.image.name, c.image.arguments, c.vars, c.directory, input, c.pid, files⟩

/-- A process that waits for its input replies to each one that ends by a function of it, whatever
the files are as long as they are `calm`, which they then still are. -/
structure Child.Performs (calm : Files → Prop) (c : Child) (f : Behaviour) : Prop where
  alive : c.killed = none
  unpiped : c.piped = false
  shows : ∀ input files, input.chunk = [] → calm files →
    (c.outcome input files).run.Shows (f input.bytes) ∧ calm (c.outcome input files).files

/-- A process that has been left alone has given a reply. -/
structure Child.Gives (c : Child) (reply : Reply) : Prop where
  run : c.run.Shows reply
  alive : c.killed = none

theorem Child.Gives.ending {c : Child} {reply : Reply} (h : c.Gives reply) :
    ∃ time status, c.ending? = some (time, status) ∧ status.code = reply.code := by
  obtain ⟨time, status, ending, code, -⟩ := h.run.ending
  exact ⟨c.started + time, status, by simp [ending?, ending, h.alive], code⟩

/-- What a process that ends by itself has written when it ends is all that it ever writes. -/
theorem Child.Gives.stream {c : Child} {reply : Reply} (h : c.Gives reply) (channel : Channel) :
    c.stream channel = c.run.all channel := by
  obtain ⟨time, status, ending, -, early⟩ := h.run.ending
  have ends : c.ending? = some (c.started + time, status) := by
    simp [ending?, ending, h.alive]
  simp only [Child.stream, ends, Nat.add_sub_cancel_left, Run.upTo, Run.all]
  congr 1
  exact List.filter_congr fun w member => by simp [early w member]

/-- Of some processes all but the last write to another process. -/
def Piped : List Child → Prop
  | [] => True
  | [c] => c.piped = false
  | c :: rest => c.piped = true ∧ Piped rest

namespace Machine

section Table
variable {m : Machine} {pre rest : List Child} {c : Child}
  (table : m.children = pre ++ c :: rest) (before : ∀ d ∈ pre, d.pid ≠ c.pid)
include table before

theorem child?_of_table : m.child? c.pid = some c := by
  rw [child?, table, List.find?_append, List.find?_eq_none.2 fun d hd => by simpa using before d hd]
  simp

theorem update_of_table (after : ∀ d ∈ rest, d.pid ≠ c.pid) (change : Child → Child) :
    m.update c.pid change = { m with children := pre ++ change c :: rest } := by
  have same (l : List Child) (others : ∀ d ∈ l, d.pid ≠ c.pid) :
      l.map (fun d => if d.pid = c.pid then change d else d) = l :=
    (List.map_congr_left fun d hd => if_neg (others d hd)).trans (List.map_id l)
  rw [update, table, List.map_append, List.map_cons, same pre before, same rest after, if_pos rfl]

theorem feed_of_table (after : ∀ d ∈ rest, d.pid ≠ c.pid) (input : Supply) :
    m.feed c.pid input =
      { m with
        files := (c.outcome input m.files).files
        children := pre ++ { c with run := (c.outcome input m.files).run } :: rest } := by
  simp only [feed, child?_of_table table before]
  let later : Machine := { m with files := (c.outcome input m.files).files }
  exact update_of_table (m := later) table before after _

/-- A process is fed, and whatever it writes is to be read by another one. -/
theorem feed_piped_of_table (after : ∀ d ∈ rest, d.pid ≠ c.pid) (input : Supply) :
    (m.feed c.pid input).update c.pid (fun c => { c with piped := true }) =
      { m with
        files := (c.outcome input m.files).files
        children :=
          pre ++ { c with run := (c.outcome input m.files).run, piped := true } :: rest } := by
  rw [feed_of_table table before after]
  let written : Child := { c with run := (c.outcome input m.files).run }
  exact update_of_table (c := written) rfl before after _

theorem supplyOf_of_table : m.supplyOf c.pid = c.run.supply := by
  rw [supplyOf, child?_of_table table before, Option.elim_some]

end Table

/-- A process of those at the end of the table is found under its pid, if that is its own. -/
theorem child?_of_mem {m : Machine} {pre new : List Child} (table : m.children = pre ++ new)
    (distinct : (new.map Child.pid).Nodup) (before : ∀ d ∈ pre, d.pid ∉ new.map Child.pid)
    {c : Child} (member : c ∈ new) : m.child? c.pid = some c := by
  obtain ⟨l, r, rfl⟩ := List.append_of_mem member
  have here : m.children = (pre ++ l) ++ c :: r := by rw [table, List.append_assoc]
  refine child?_of_table here fun d hd same => ?_
  rcases List.mem_append.1 hd with old | early
  · exact before d old (same ▸ List.mem_map_of_mem member)
  · rw [List.map_append, List.nodup_append] at distinct
    exact distinct.2.2 d.pid (List.mem_map_of_mem early) c.pid (by simp) same

/-- Processes that reply by functions are fed so that they reply by the composition of these, or
each by itself if their pipes are cut. -/
theorem feedChain_replies (cut : Bool) {calm : Files → Prop} {new : List Child}
    {fs : List Behaviour} (performs : List.Forall₂ (Child.Performs calm) new fs) {m : Machine}
    {pre : List Child} (table : m.children = pre ++ new) (distinct : (new.map Child.pid).Nodup)
    (before : ∀ d ∈ pre, d.pid ∉ new.map Child.pid) (here : calm m.files)
    {input : Supply} (finite : input.chunk = []) :
    ∃ files fed, m.feedChain cut input (new.map Child.pid) =
        { m with files, children := pre ++ fed } ∧
      fed.map Child.pid = new.map Child.pid ∧
      List.Forall₂ Child.Gives fed (replies cut fs input.bytes) ∧ Piped fed := by
  induction performs generalizing m pre input with
  | nil => exact ⟨m.files, [], by rw [← table]; rfl, rfl, .nil, trivial⟩
  | @cons c f rest fs performs later ih =>
      obtain ⟨apart, distinct⟩ := List.nodup_cons.1 distinct
      have others : ∀ d ∈ rest, d.pid ≠ c.pid :=
        fun d hd same => apart (same ▸ List.mem_map_of_mem hd)
      have before' : ∀ d ∈ pre, d.pid ≠ c.pid :=
        fun d hd same => before d hd (same ▸ List.mem_cons_self)
      obtain ⟨shows, calm⟩ := performs.shows input m.files finite here
      let outcome := c.outcome input m.files
      cases later with
      | nil =>
          have fed := feed_of_table table before' others input
          refine ⟨outcome.files, [{ c with run := outcome.run }], fed, rfl, ?_, performs.unpiped⟩
          exact .cons ⟨shows, performs.alive⟩ .nil
      | @cons d g rest gs performs' later =>
          let fedOne : Child := { c with run := outcome.run, piped := true }
          let m' : Machine :=
            { m with files := outcome.files, children := pre ++ fedOne :: d :: rest }
          have first := feed_piped_of_table table before' others input
          have supply : m'.supplyOf c.pid = outcome.run.supply :=
            supplyOf_of_table (c := fedOne) rfl before'
          have table' : m'.children = (pre ++ [fedOne]) ++ d :: rest := List.append_cons ..
          have fresh : ∀ e ∈ pre ++ [fedOne], e.pid ∉ (d :: rest).map Child.pid := by
            intro e he same
            rcases List.mem_append.1 he with old | new
            · exact before e old (List.mem_cons_of_mem _ same)
            · rw [List.mem_singleton.1 new] at same
              exact apart same
          have finite' : (if cut then {} else outcome.run.supply).chunk = [] := by
            cases cut <;> [exact shows.chunk; rfl]
          have bytes : (if cut then {} else outcome.run.supply).bytes =
              if cut then [] else (f input.bytes).output := by
            cases cut <;> [exact shows.output; rfl]
          obtain ⟨files, more, chain, pids, gives, piped⟩ :=
            ih table' distinct fresh calm finite'
          refine ⟨files, fedOne :: more, ?_, ?_, ?_, ?_⟩
          · rw [List.map_cons, List.map_cons, feedChain, first, supply]
            simpa [m'] using chain
          · rw [List.map_cons, List.map_cons, pids]
          · rw [bytes] at gives
            exact .cons ⟨shows, performs.alive⟩ gives
          · cases more with
            | nil => cases pids
            | cons e more => exact ⟨rfl, piped⟩

theorem update_of_fixed {m : Machine} {pid : Pid} {change : Child → Child}
    (fixed : ∀ c ∈ m.children, c.pid = pid → change c = c) : m.update pid change = m := by
  have same : m.children.map (fun c => if c.pid = pid then change c else c) = m.children := by
    refine (List.map_congr_left fun c hc => ?_).trans (List.map_id m.children)
    split
    · next own => exact fixed c hc own
    · rfl
  rw [update, same]

/-- No pipe breaks where every process comes to its end by itself. -/
theorem breakPipes_of_ended {m : Machine} {pids : List Pid}
    (ended : ∀ c ∈ m.children, c.pid ∈ pids → c.run.ending.isSome = true) :
    m.breakPipes pids = m := by
  induction pids with
  | nil => rfl
  | cons writer rest ih =>
      cases rest with
      | nil => rfl
      | cons reader rest =>
          rw [breakPipes, ih fun c hc later => ended c hc (List.mem_cons_of_mem _ later)]
          unfold breakPipe
          split
          · rfl
          · split
            · rfl
            · refine update_of_fixed fun c hc own => if_neg ?_
              have some_end := ended c hc (own ▸ List.mem_cons_self)
              simp [Option.isNone_eq_false_iff.2 some_end]

/-- There is a time by which some processes have ended if each of them ends. -/
theorem exists_lastEnding {m : Machine} {pids : List Pid}
    (ends : ∀ pid ∈ pids, ∃ time status, (m.child? pid).bind Child.ending? = some (time, status)) :
    ∃ last, m.lastEnding? pids = some last ∧
      ∀ pid ∈ pids, ∀ time status, (m.child? pid).bind Child.ending? = some (time, status) →
        time ≤ last := by
  induction pids with
  | nil => exact ⟨m.clock, rfl, nofun⟩
  | cons pid rest ih =>
      obtain ⟨⟨time, status, here⟩, later⟩ := List.forall_mem_cons.1 ends
      obtain ⟨last, found, within⟩ := ih later
      refine ⟨max time last, by rw [lastEnding?, here, found], ?_⟩
      refine List.forall_mem_cons.2 ⟨fun t st same => ?_, fun p hp t st same => ?_⟩
      · rw [here] at same
        cases same
        exact Nat.le_max_left _ _
      · exact Nat.le_trans (within p hp t st same) (Nat.le_max_right _ _)

end Machine

namespace State

/-- A stage can be started, and its process then replies by a function. -/
def Performs (s : State) (calm : Files → Prop) (stage : Stage) (f : Behaviour) : Prop :=
  ∃ path image, s.resolveCommand stage.command = some path ∧
    s.machine.spawn (s.launch path stage) =
      .ok (s.machine.populate [s.machine.born (s.launch path stage) image], s.machine.nextPid) ∧
    ∀ pid, Child.Performs calm { s.machine.born (s.launch path stage) image with pid } f

/-- What is given out next, pids and tokens, has not been given out before. -/
structure Fresh (s : State) : Prop where
  children : ∀ c ∈ s.machine.children, c.pid < s.machine.nextPid
  supervisors : ∀ t ∈ s.supervision.supervisors, t.pid < s.machine.nextPid
  tokens : ∀ token ∈ s.supervision.registry.cancelled, token < s.supervision.nextToken

theorem fresh_start (config : Config) (inherited : List (Text × Text)) {m : Machine}
    (empty : m.children = []) : (State.start config inherited m).Fresh :=
  ⟨by simp [State.start, empty], nofun, nofun⟩

theorem Fresh.apart {s : State} (fresh : s.Fresh) {pids : List Pid} {n : Nat}
    (given : pids = List.range' s.machine.nextPid n) : ∀ d ∈ s.machine.children, d.pid ∉ pids := by
  intro d hd member
  rw [given, List.mem_range'_1] at member
  exact absurd (fresh.children d hd) (Nat.not_lt.2 member.1)

section Start
variable {s : State} {calm : Files → Prop}

theorem begin_of_performs {stage : Stage} {f : Behaviour} (h : s.Performs calm stage f)
    (new : List Child) :
    ∃ c : Child, c.pid = s.machine.nextPid + new.length ∧
      (s.populate new).begin stage.command stage.arguments =
        .ok (s.populate (new ++ [c]), c.pid) ∧
      c.Performs calm f := by
  obtain ⟨path, image, found, spawned, performs⟩ := h
  rcases s.machine.spawn_cases (s.launch path stage) with ⟨cause, fails⟩ | ⟨other, runs⟩
  · have alone := fails []
    rw [Machine.populate_nil, spawned] at alone
    cases alone
  · have alone := runs []
    rw [Machine.populate_nil, spawned] at alone
    simp only [Machine.populate, Machine.born, Except.ok.injEq, Prod.mk.injEq, Machine.mk.injEq,
      List.append_cancel_left_eq, List.cons.injEq, Child.mk.injEq, true_and, and_true] at alone
    obtain ⟨-, rfl⟩ := alone
    refine ⟨{ s.machine.born (s.launch path stage) image with
      pid := s.machine.nextPid + new.length }, rfl, ?_, performs _⟩
    rw [begin_populate, found]
    dsimp only
    rw [runs, Machine.populate_populate]
    rfl

/-- A stage that can be started performs what the program does that is found for it. -/
theorem performs_of_find {stage : Stage} {f : Behaviour} {path : Text} (image : Program.Image)
    (found : s.resolveCommand stage.command = some path)
    (spawned : (s.machine.spawn (s.launch path stage)).isOk = true)
    (program : Program.find path ⟨path, (s.launch path stage).arguments, (s.launch path stage).vars,
      (s.launch path stage).directory, {}, s.machine.nextPid, s.machine.files⟩ = .ok image)
    (performs : ∀ pid,
      Child.Performs calm { s.machine.born (s.launch path stage) image with pid } f) :
    s.Performs calm stage f := by
  refine ⟨path, image, found, ?_, performs⟩
  unfold Machine.spawn at spawned ⊢
  split at spawned
  · cases spawned
  · next plain =>
    rw [if_neg plain]
    split at spawned
    · cases spawned
    · dsimp only
      rw [show (s.launch path stage).path = path from rfl, program]
      rfl
    · cases spawned

theorem beginAll_of_performs {stages : List Stage} {fs : List Behaviour}
    (performs : List.Forall₂ (s.Performs calm) stages fs) :
    ∃ new : List Child,
      new.map Child.pid = List.range' s.machine.nextPid stages.length ∧
      s.beginAll [] stages = .ok (s.populate new, new.map Child.pid) ∧
      List.Forall₂ (Child.Performs calm) new fs := by
  obtain ⟨new, pids, all, each⟩ := beginAll_of_each (R := s.Performs calm)
    (fun _ _ performs new => begin_of_performs performs new) performs [] []
  rw [populate_nil] at all
  exact ⟨new, pids, all, each⟩

end Start

section Run
variable {s : State}

theorem machine_superviseAll (s : State) (pids : List Pid) (stages : List Stage) :
    (s.superviseAll pids stages).machine = s.machine := by
  have all (items : List (Pid × Stage)) (s : State) :
      (items.foldl (fun s item => s.supervise item.1 item.2.command .running) s).machine =
        s.machine := by
    induction items generalizing s with
    | nil => rfl
    | cons item rest ih => exact ih _
  exact all _ s

/-- The state in which some stages run that have been fed and are supervised. -/
def running (s : State) (files : Files) (fed : List Child) (stages : List Stage) : State :=
  { s.populate fed with machine := { (s.populate fed).machine with files } }.superviseAll
    (fed.map Child.pid) stages

theorem gives_of_getElem? {fed : List Child} {replies : List Reply}
    (gives : List.Forall₂ Child.Gives fed replies) {i : Nat} {c : Child} {reply : Reply}
    (hc : fed[i]? = some c) (hr : replies[i]? = some reply) : c.Gives reply := by
  obtain ⟨bound, rfl⟩ := List.getElem?_eq_some_iff.1 hc
  obtain ⟨bound', rfl⟩ := List.getElem?_eq_some_iff.1 hr
  exact gives.get bound bound'

theorem gives_getLast? {fed : List Child} {replies : List Reply}
    (gives : List.Forall₂ Child.Gives fed replies) (some_child : fed ≠ []) :
    ∃ c last, fed.getLast? = some c ∧ replies.getLast? = some last ∧ c.Gives last := by
  have back := List.forall₂_reverse_iff.2 gives
  rw [← List.head?_reverse, ← List.head?_reverse]
  cases reversed : fed.reverse with
  | nil => exact absurd (List.reverse_eq_nil_iff.1 reversed) some_child
  | cons c rest =>
      rw [reversed] at back
      obtain ⟨last, others, given, -, same⟩ := List.forall₂_cons_left_iff.1 back
      exact ⟨c, last, rfl, by rw [same]; rfl, given⟩

theorem gives_of_mem {fed : List Child} {replies : List Reply}
    (gives : List.Forall₂ Child.Gives fed replies) {c : Child} (member : c ∈ fed) :
    ∃ reply, c.Gives reply := by
  obtain ⟨i, bound, rfl⟩ := List.getElem_of_mem member
  exact ⟨_, gives.get bound (gives.length_eq ▸ bound)⟩

theorem compose_length (fs : List Behaviour) (input : Bytes) :
    (compose fs input).length = fs.length := by
  induction fs generalizing input with
  | nil => rfl
  | cons f rest ih => simp [compose, ih]

theorem machine_running (s : State) (files : Files) (fed : List Child) (stages : List Stage) :
    (s.running files fed stages).machine = { (s.populate fed).machine with files } :=
  machine_superviseAll _ _ _

theorem pid_of_range' {fed : List Child} {first : Pid} {n : Nat}
    (pids : fed.map Child.pid = List.range' first n) {i : Nat} {c : Child}
    (found : fed[i]? = some c) : c.pid = first + i := by
  have length : fed.length = n := by simpa using congrArg List.length pids
  have bound := (List.getElem?_eq_some_iff.1 found).1
  have same := congrArg (·[i]?) pids
  simpa [found, List.getElem?_range' (length ▸ bound)] using same

/-- A stage that runs is found under its pid. -/
theorem child?_running (fresh : s.Fresh) {n : Nat} {fed : List Child}
    (pids : fed.map Child.pid = List.range' s.machine.nextPid n) (files : Files)
    (stages : List Stage) {c : Child} (member : c ∈ fed) :
    (s.running files fed stages).machine.child? c.pid = some c := by
  rw [machine_running]
  exact Machine.child?_of_mem rfl (pids ▸ List.nodup_range') (fresh.apart pids) member

/-- Stages that reply by functions come to run, with replies that are the composition of these or,
if nobody waits for them, those to nothing. -/
theorem runStages_of_performs {calm : Files → Prop} {stages : List Stage} {fs : List Behaviour}
    (fresh : s.Fresh) (here : calm s.machine.files) (some_stage : stages ≠ [])
    (performs : List.Forall₂ (s.Performs calm) stages fs) (input : Text) (cancelled : Bool) :
    ∃ files fed, fed.map Child.pid = List.range' s.machine.nextPid stages.length ∧
      List.Forall₂ Child.Gives fed
        (replies cancelled fs (if cancelled then [] else Text.encode input)) ∧
      Piped fed ∧
      s.runStages stages input cancelled = (s.running files fed stages).await (fed.map Child.pid)
        ((fed.map Child.pid).getLastD 0) cancelled := by
  obtain ⟨new, pids, began, performs'⟩ := beginAll_of_performs performs
  let supply : Supply := if cancelled then {} else { bytes := Text.encode input }
  have finite : supply.chunk = [] := by cases cancelled <;> rfl
  have bytes : supply.bytes = if cancelled then [] else Text.encode input := by
    cases cancelled <;> rfl
  obtain ⟨files, fed, chain, same, gives, piped⟩ := Machine.feedChain_replies cancelled performs'
    (m := (s.populate new).machine) rfl (pids ▸ List.nodup_range') (fresh.apart pids) here finite
  rw [bytes] at gives
  rw [← same] at pids
  have length : fed.length = new.length := by simpa using congrArg List.length same
  have chained : (s.populate new).machine.feedChain cancelled supply (new.map Child.pid) =
      (s.running files fed stages).machine := by
    rw [chain, machine_running]
    simp [populate, Machine.populate, length]
  have unbroken : (s.running files fed stages).machine.breakPipes (fed.map Child.pid) =
      (s.running files fed stages).machine := by
    refine Machine.breakPipes_of_ended fun c hc own => ?_
    rw [machine_running] at hc
    rcases List.mem_append.1 hc with old | new
    · exact absurd own (fresh.apart pids c old)
    · obtain ⟨reply, gives⟩ := gives_of_mem gives new
      obtain ⟨time, status, ending, -⟩ := gives.run.ending
      rw [ending]
      rfl
  refine ⟨files, fed, pids, gives, piped, ?_⟩
  rw [runStages, if_neg (by simpa using some_stage), began]
  dsimp only
  rw [chained, ← same, unbroken, machine_running]
  rfl

/-- To wait for stages that give replies lets time pass until the last of them has ended. -/
theorem await_running (fresh : s.Fresh) {n : Nat} {fed : List Child} {replies : List Reply}
    (pids : fed.map Child.pid = List.range' s.machine.nextPid n)
    (gives : List.Forall₂ Child.Gives fed replies) (files : Files) (stages : List Stage)
    (last : Pid) :
    ∃ time, (∀ c ∈ fed, ∀ t status, c.ending? = some (t, status) → t ≤ time) ∧
      (s.running files fed stages).await (fed.map Child.pid) last false =
        (((s.running files fed stages).advance time).settle,
          ((s.running files fed stages).advance time).resultOf last) := by
  have there {c : Child} (member : c ∈ fed) := child?_running fresh pids files stages member
  have ends : ∀ pid ∈ fed.map Child.pid, ∃ time status,
      ((s.running files fed stages).machine.child? pid).bind Child.ending? =
        some (time, status) := by
    intro pid member
    obtain ⟨c, hc, rfl⟩ := List.mem_map.1 member
    obtain ⟨reply, gives⟩ := gives_of_mem gives hc
    obtain ⟨time, status, ending, -⟩ := gives.ending
    exact ⟨time, status, by rw [there hc, Option.bind_some, ending]⟩
  obtain ⟨time, latest, within⟩ := Machine.exists_lastEnding ends
  refine ⟨time, fun c hc t status ending => ?_, by simp only [await, latest]⟩
  exact within c.pid (List.mem_map_of_mem hc) t status (by rw [there hc, Option.bind_some, ending])

/-- The answer for some stages that have run is taken from the reply of the last one. -/
theorem resultOf_running (fresh : s.Fresh) {stages : List Stage} {fed : List Child}
    {replies : List Reply} (pids : fed.map Child.pid = List.range' s.machine.nextPid stages.length)
    (gives : List.Forall₂ Child.Gives fed replies) (some_stage : stages ≠ []) (files : Files)
    (time : Nat) :
    ∃ last, replies.getLast? = some last ∧
      ((s.running files fed stages).advance time).resultOf ((fed.map Child.pid).getLastD 0) =
        Result.ofExit last.code (Drain.captured last.output) (Drain.captured last.error) := by
  have some_child : fed ≠ [] := by
    rintro rfl
    cases stages with
    | nil => exact some_stage rfl
    | cons => cases pids
  obtain ⟨c, last, final, final', given⟩ := gives_getLast? gives some_child
  have there : ((s.running files fed stages).advance time).machine.child? c.pid = some c :=
    child?_running fresh pids files stages (List.mem_of_getLast? final)
  obtain ⟨t, status, ending, code⟩ := given.ending
  have waited : (fed.map Child.pid).getLastD 0 = c.pid := by
    rw [List.getLastD_eq_getLast?, List.getLast?_map, final]
    rfl
  refine ⟨last, final', ?_⟩
  rw [resultOf, waited, there]
  simp only [ending, Option.elim_some, code, given.stream, given.run.output, given.run.error]

end Run

end State

end CommandShell
