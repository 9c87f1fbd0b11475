import CommandShell.Proofs.Process.Calls
import CommandShell.Proofs.Process.Killing
import CommandShell.Proofs.Shell.Composition

/-!
What the listeners are told of the stages of a pipeline.

Supervisors settle one after the other. Each tells the lines of its own process and takes that from
the table, and no other one comes near it. So of a stage that has ended the listeners are told
exactly what it has written, once: its error lines, and its output lines if it is the last.
-/
namespace CommandShell

/-- Whether an event is a line that a process has written. -/
def Event.isLineOf (pid : Pid) : Event → Bool
  | outputLine p _ | errorLine p _ => p == pid
  | jobCompleted _ _ => false

namespace Supervision

/-- The lines that a process has been told to have written. -/
def linesOf (s : Supervision) (pid : Pid) : List Event := s.events.filter (Event.isLineOf pid)

variable {s s' : Supervision} {n : Serial}

theorem linesOf_advance (step : s.Advance n s') (pid : Pid) : s'.linesOf pid = s.linesOf pid := by
  rcases events_advance step with same | ⟨t, -, -, code, events⟩
  · rw [linesOf, same, linesOf]
  · rw [linesOf, events, List.filter_append, linesOf]
    exact List.append_nil _

theorem linesOf_conclude (s : Supervision) (n : Serial) (pid : Pid) :
    (s.conclude n).linesOf pid = s.linesOf pid :=
  (linesOf_advance (advance_announce _ n) pid).trans <|
    (linesOf_advance (advance_release _ n) pid).trans <|
      linesOf_advance (advance_record s n) pid

theorem cancelled_conclude (s : Supervision) (n : Serial) :
    (s.conclude n).registry.cancelled = s.registry.cancelled :=
  (cancelled_advance (advance_announce _ n)).trans <|
    (cancelled_advance (advance_release _ n)).trans <| cancelled_advance (advance_record s n)

end Supervision

namespace Machine

theorem child?_update (m : Machine) (change : Child → Child) (own : ∀ c, (change c).pid = c.pid)
    (pid other : Pid) :
    (m.update pid change).child? other =
      (m.child? other).map fun c => if c.pid = pid then change c else c := by
  have pids : (fun c : Child => c.pid == other) ∘ (fun c => if c.pid = pid then change c else c) =
      fun c => c.pid == other := by
    funext c
    simp only [Function.comp_apply]
    split
    · rw [own]
    · rfl
  rw [child?, update, List.find?_map, pids]
  rfl

theorem child?_kill_of_ne (m : Machine) {pid other : Pid} (h : other ≠ pid) :
    (m.kill pid).1.child? other = m.child? other := by
  unfold kill
  split
  · rfl
  · refine (child?_update m (fun c => { c with killed := some (c.killed.getD m.clock) })
      (fun _ => rfl) pid other).trans ?_
    cases found : m.child? other with
    | none => rfl
    | some c =>
        have own : c.pid = other := beq_iff_eq.1 (List.find?_some found :)
        rw [Option.map_some, if_neg (own ▸ h)]

theorem child?_reap_of_ne (m : Machine) {pid other : Pid} (h : other ≠ pid) :
    (m.reap pid).child? other = m.child? other := by
  rw [child?, reap, List.find?_filter]
  refine congrArg (List.find? · m.children) (funext fun c => ?_)
  by_cases own : c.pid = other <;> simp [own, h]

end Machine

namespace State

/-- Nothing that concerns a process has changed. -/
structure Undisturbed (s s' : State) (pid : Pid) : Prop where
  lines : s'.supervision.linesOf pid = s.supervision.linesOf pid
  child : s'.machine.child? pid = s.machine.child? pid
  clock : s'.machine.clock = s.machine.clock
  cancelled : s'.supervision.registry.cancelled = s.supervision.registry.cancelled

section Settle
variable {s : State} {t : Supervisor} {pid : Pid}

theorem Undisturbed.refl (s : State) (pid : Pid) : s.Undisturbed s pid := ⟨rfl, rfl, rfl, rfl⟩

theorem Undisturbed.trans {s' s'' : State} (first : s.Undisturbed s' pid)
    (second : s'.Undisturbed s'' pid) : s.Undisturbed s'' pid :=
  ⟨second.lines.trans first.lines, second.child.trans first.child,
    second.clock.trans first.clock, second.cancelled.trans first.cancelled⟩

theorem lineEvents_isLineOf (c : Child) : ∀ event ∈ lineEvents c, event.isLineOf c.pid = true := by
  intro event member
  simp only [lineEvents, List.mem_append, List.mem_map] at member
  rcases member with ⟨line, -, rfl⟩ | ⟨line, -, rfl⟩ <;> exact beq_self_eq_true c.pid

theorem lineEvents_other (c : Child) (other : c.pid ≠ pid) :
    (lineEvents c).filter (Event.isLineOf pid) = [] := by
  rw [List.filter_eq_nil_iff]
  intro event member line
  simp only [lineEvents, List.mem_append, List.mem_map] at member
  rcases member with ⟨text, -, rfl⟩ | ⟨text, -, rfl⟩ <;> exact other (beq_iff_eq.1 line)

/-- To conclude a process tells its lines, and nothing else of any process. -/
theorem linesOf_conclude (s : State) (serial : Serial) (c : Child) (seen : Supervision) :
    (s.conclude serial c seen).supervision.linesOf pid =
      seen.linesOf pid ++ (lineEvents c).filter (Event.isLineOf pid) := by
  rw [conclude, Supervision.linesOf_conclude, Supervision.linesOf, Supervision.emitAll,
    List.filter_append]
  rfl

theorem undisturbed_conclude {c : Child} (other : c.pid ≠ pid) (serial : Serial)
    {seen : Supervision} (lines : seen.linesOf pid = s.supervision.linesOf pid)
    (cancelled : seen.registry.cancelled = s.supervision.registry.cancelled) :
    s.Undisturbed (s.conclude serial c seen) pid where
  lines := by rw [linesOf_conclude, lineEvents_other c other, List.append_nil, lines]
  child := Machine.child?_reap_of_ne s.machine (Ne.symm other)
  clock := rfl
  cancelled := (Supervision.cancelled_conclude _ serial).trans cancelled

theorem pid_of_child? {m : Machine} {c : Child} (found : m.child? pid = some c) : c.pid = pid :=
  beq_iff_eq.1 (List.find?_some found :)

/-- What concerns one process is left alone by the supervisor of another one. -/
theorem undisturbed_settleOne (other : t.pid ≠ pid) : s.Undisturbed (s.settleOne t) pid := by
  have heeded := Supervision.advance_heed s.supervision t.serial
  unfold settleOne
  split
  · exact .refl s pid
  split
  · have killed : s.Undisturbed { s with machine := (s.machine.kill t.pid).1 } pid :=
      ⟨rfl, Machine.child?_kill_of_ne s.machine (Ne.symm other), by
        unfold Machine.kill
        split <;> rfl, rfl⟩
    dsimp only
    split
    · next c status found ended =>
      have seen := Supervision.advance_seeEnd (s.supervision.heed t.serial) t.serial status.code
      refine killed.trans (undisturbed_conclude (pid_of_child? found ▸ other) t.serial ?_ ?_)
      · rw [Supervision.linesOf_advance seen, Supervision.linesOf_advance heeded]
      · rw [Supervision.cancelled_advance seen, Supervision.cancelled_advance heeded]
    · exact killed
  · split
    · next c status found ended =>
      have seen := Supervision.advance_seeEnd s.supervision t.serial status.code
      exact undisturbed_conclude (pid_of_child? found ▸ other) t.serial
        (Supervision.linesOf_advance seen pid) (Supervision.cancelled_advance seen)
    · exact .refl s pid

theorem undisturbed_foldl {supervisors : List Supervisor}
    (others : ∀ u ∈ supervisors, u.pid ≠ pid) :
    s.Undisturbed (supervisors.foldl settleOne s) pid := by
  induction supervisors generalizing s with
  | nil => exact .refl s pid
  | cons u rest ih =>
      obtain ⟨here, later⟩ := List.forall_mem_cons.1 others
      exact (undisturbed_settleOne here).trans (ih later)

/-- A supervisor whose process has ended by itself tells what that has written. -/
theorem linesOf_settleOne {c : Child} {time : Nat} {status : Status} (waiting : t.phase = .waiting)
    (uncancelled : t.token ∉ s.supervision.registry.cancelled)
    (there : s.machine.child? t.pid = some c) (ends : c.ending? = some (time, status))
    (ended : time ≤ s.machine.clock) :
    (s.settleOne t).supervision.linesOf t.pid = s.supervision.linesOf t.pid ++ lineEvents c := by
  have known : s.machine.status? t.pid = some status := by
    rw [Machine.status?, there, Option.bind_some, ends]
    exact if_pos ended
  have open_token : s.supervision.registry.isCancelled t.token = false :=
    Bool.eq_false_iff.2 fun asked => uncancelled ((Registry.isCancelled_iff _ _).1 asked)
  have own : (lineEvents c).filter (Event.isLineOf t.pid) = lineEvents c :=
    List.filter_eq_self.2 (pid_of_child? there ▸ lineEvents_isLineOf c)
  have seen := Supervision.advance_seeEnd s.supervision t.serial status.code
  rw [settleOne, if_neg (by simp [waiting]), if_neg (by simp [open_token]), there, known]
  dsimp only
  rw [linesOf_conclude, own, Supervision.linesOf_advance seen]

/-- Of a process that has ended, whose supervisor is the only one for its pid and waits for it, the
listeners are told exactly what it has written. -/
theorem linesOf_settle {before after : List Supervisor} {c : Child} {time : Nat} {status : Status}
    (split : s.supervision.supervisors = before ++ t :: after)
    (alone : ∀ u ∈ before ++ after, u.pid ≠ t.pid) (waiting : t.phase = .waiting)
    (uncancelled : t.token ∉ s.supervision.registry.cancelled)
    (there : s.machine.child? t.pid = some c) (ends : c.ending? = some (time, status))
    (ended : time ≤ s.machine.clock) :
    s.settle.supervision.linesOf t.pid = s.supervision.linesOf t.pid ++ lineEvents c := by
  obtain ⟨early, late⟩ := List.forall_mem_append.1 alone
  have first := undisturbed_foldl (s := s) early
  have turn := linesOf_settleOne (s := before.foldl settleOne s) waiting
    (first.cancelled ▸ uncancelled) (first.child.trans there) ends (first.clock ▸ ended)
  rw [settle, split, List.foldl_append, List.foldl_cons, (undisturbed_foldl late).lines, turn,
    first.lines]

end Settle

section Stages
variable {s : State}

/-- Every stage gets a supervisor that waits for it, with a token that has not been given out. -/
theorem supervision_superviseAll (s : State) {pids : List Pid} {stages : List Stage}
    (lengths : pids.length = stages.length) :
    ∃ more : List Supervisor,
      (s.superviseAll pids stages).supervision.supervisors = s.supervision.supervisors ++ more ∧
      more.map Supervisor.pid = pids ∧
      (∀ t ∈ more, t.phase = .waiting ∧ s.supervision.nextToken ≤ t.token) ∧
      (s.superviseAll pids stages).supervision.registry.cancelled =
        s.supervision.registry.cancelled ∧
      (s.superviseAll pids stages).supervision.events = s.supervision.events := by
  have all (items : List (Pid × Stage)) (s : State) :
      let after := items.foldl (fun s item => s.supervise item.1 item.2.command .running) s
      ∃ more : List Supervisor,
        after.supervision.supervisors = s.supervision.supervisors ++ more ∧
        more.map Supervisor.pid = items.map Prod.fst ∧
        (∀ t ∈ more, t.phase = .waiting ∧ s.supervision.nextToken ≤ t.token) ∧
        after.supervision.registry.cancelled = s.supervision.registry.cancelled ∧
        after.supervision.events = s.supervision.events := by
    induction items generalizing s with
    | nil => exact ⟨[], (List.append_nil _).symm, rfl, nofun, rfl, rfl⟩
    | cons item rest ih =>
        obtain ⟨more, supervisors, pids, new, cancelled, events⟩ :=
          ih (s.supervise item.1 item.2.command .running)
        let first : Supervisor :=
          ⟨item.1, s.supervision.registry.nextSerial, s.supervision.nextToken, .running, .waiting⟩
        refine ⟨first :: more, ?_, ?_, ?_, ?_, events⟩
        · rw [List.foldl_cons, supervisors]
          simp [supervise, Supervision.start, first]
        · rw [List.map_cons, pids, List.map_cons]
        · refine List.forall_mem_cons.2 ⟨⟨rfl, Nat.le_refl _⟩, fun t ht => ?_⟩
          exact (new t ht).imp_right Nat.le_of_succ_le
        · rw [List.foldl_cons, cancelled]
          exact Registry.cancelled_insert _ _ _ _ _
  obtain ⟨more, supervisors, same, rest⟩ := all (pids.zip stages) s
  rw [List.map_fst_zip (Nat.le_of_eq lengths)] at same
  exact ⟨more, supervisors, same, rest⟩

/-- When some stages have run, the listeners have been told of each what it has written. -/
theorem linesOf_running (fresh : s.Fresh) {stages : List Stage} {fed : List Child}
    (pids : fed.map Child.pid = List.range' s.machine.nextPid stages.length) (files : Files)
    {time : Nat} {c : Child} (member : c ∈ fed) {t : Nat} {status : Status}
    (ends : c.ending? = some (t, status)) (ended : t ≤ time) :
    ((s.running files fed stages).advance time).settle.supervision.linesOf c.pid =
      s.supervision.linesOf c.pid ++ lineEvents c := by
  have lengths : (fed.map Child.pid).length = stages.length := by rw [pids, List.length_range']
  obtain ⟨more, supervisors, same, new, cancelled, events⟩ := supervision_superviseAll
    { s.populate fed with machine := { (s.populate fed).machine with files } } lengths
  have there : ((s.running files fed stages).advance time).machine.child? c.pid = some c :=
    child?_running fresh pids files stages member
  -- The supervisor of the stage is the only one for its pid.
  obtain ⟨u, hu, own⟩ := List.mem_map.1 (same ▸ List.mem_map_of_mem member :)
  obtain ⟨l, r, rfl⟩ := List.append_of_mem hu
  have distinct : ((l ++ u :: r).map Supervisor.pid).Nodup := by
    rw [same, pids]
    exact List.nodup_range'
  have given : s.machine.nextPid ≤ c.pid := by
    have := List.mem_map_of_mem (f := Child.pid) member
    rw [pids, List.mem_range'_1] at this
    exact this.1
  have alone : ∀ v ∈ (s.supervision.supervisors ++ l) ++ r, v.pid ≠ u.pid := by
    intro v hv equal
    rw [List.map_append, List.map_cons, List.nodup_middle, List.nodup_cons,
      List.mem_append] at distinct
    rcases List.mem_append.1 hv with hv | hv
    · rcases List.mem_append.1 hv with old | early
      · exact absurd (fresh.supervisors v old) (Nat.not_lt.2 (equal ▸ own ▸ given))
      · exact distinct.1 (.inl (equal ▸ List.mem_map_of_mem early))
    · exact distinct.1 (.inr (equal ▸ List.mem_map_of_mem hv))
  obtain ⟨waiting, token⟩ := new u hu
  rw [← own] at there ⊢
  have split : ((s.running files fed stages).advance time).supervision.supervisors =
      (s.supervision.supervisors ++ l) ++ u :: r :=
    supervisors.trans (List.append_assoc _ _ _).symm
  refine (linesOf_settle split alone waiting ?_ there ends ?_).trans ?_
  · intro asked
    exact absurd (fresh.tokens u.token (cancelled ▸ asked)) (Nat.not_lt.2 token)
  · exact Nat.le_trans ended (Nat.le_max_right _ _)
  · exact congrArg (fun told => told.filter (Event.isLineOf u.pid) ++ lineEvents c) events

theorem piped_of_getElem? {fed : List Child} (h : Piped fed) {i : Nat} {c : Child}
    (found : fed[i]? = some c) : c.piped = decide (i + 1 < fed.length) := by
  induction fed generalizing i with
  | nil => cases found
  | cons d rest ih =>
      cases rest with
      | nil =>
          cases i with
          | zero =>
              cases found
              exact h
          | succ => cases found
      | cons e rest =>
          cases i with
          | zero =>
              cases found
              simp [h.1]
          | succ i =>
              rw [ih h.2 found]
              simp

/-- The lines that a stage writes, the last one or another. -/
def replyLines (pid : Pid) (last : Bool) (reply : Reply) : List Event :=
  (if last then (Drain.lines reply.output).map (Event.outputLine pid) else []) ++
    (Drain.lines reply.error).map (Event.errorLine pid)

theorem lineEvents_of_gives {c : Child} {reply : Reply} (given : c.Gives reply) :
    lineEvents c = replyLines c.pid (!c.piped) reply := by
  rw [lineEvents, replyLines, given.stream, given.stream, given.run.output, given.run.error]
  cases c.piped <;> rfl

/-- Some stages have run, and it has come to the composition of the functions by which they reply:
the answer is the last reply, and the listeners have been told the error lines of every stage and
the output lines of the last one. -/
structure Composes (s : State) (fs : List Behaviour) (input : Text) (after : State × Result) :
    Prop where
  answer : ∃ last, (compose fs (Text.encode input)).getLast? = some last ∧
    after.2 = Result.ofExit last.code (Drain.captured last.output) (Drain.captured last.error)
  lines : ∀ (i : Nat) reply, (compose fs (Text.encode input))[i]? = some reply →
    after.1.supervision.linesOf (s.machine.nextPid + i) =
      s.supervision.linesOf (s.machine.nextPid + i) ++
        replyLines (s.machine.nextPid + i) (i + 1 = fs.length) reply

theorem runStages_composes {calm : Files → Prop} {stages : List Stage} {fs : List Behaviour}
    (fresh : s.Fresh) (here : calm s.machine.files) (some_stage : stages ≠ [])
    (performs : List.Forall₂ (s.Performs calm) stages fs) (input : Text) :
    s.Composes fs input (s.runStages stages input false) := by
  obtain ⟨files, fed, pids, gives, piped, awaits⟩ :=
    runStages_of_performs fresh here some_stage performs input false
  rw [replies_false] at gives
  obtain ⟨time, ended, runs⟩ := await_running fresh pids gives files stages
    ((fed.map Child.pid).getLastD 0)
  rw [← awaits] at runs
  obtain ⟨last, final, answer⟩ := resultOf_running fresh pids gives some_stage files time
  refine ⟨⟨last, final, by rw [runs, answer]⟩, fun i reply replied => ?_⟩
  have length : fed.length = fs.length := gives.length_eq.trans (compose_length fs _)
  have bound : i < fed.length := gives.length_eq ▸ (List.getElem?_eq_some_iff.1 replied).1
  obtain ⟨c, found⟩ : ∃ c, fed[i]? = some c := ⟨_, List.getElem?_eq_getElem bound⟩
  have pid : c.pid = s.machine.nextPid + i := pid_of_range' pids found
  have position : (!decide (i + 1 < fed.length)) = decide (i + 1 = fs.length) := by
    rw [← decide_not, decide_eq_decide]
    omega
  have given := gives_of_getElem? gives found replied
  obtain ⟨t, status, ending, -⟩ := given.ending
  have member := List.mem_of_getElem? found
  have told := linesOf_running fresh pids files member ending (ended c member t status ending)
  rw [lineEvents_of_gives given, piped_of_getElem? piped found, position] at told
  rw [runs, ← pid, told]

end Stages

end State

end CommandShell
