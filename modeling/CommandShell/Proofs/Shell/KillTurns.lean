import CommandShell.Builtin.Job
import CommandShell.Machine.Standard
import CommandShell.Proofs.Process.Maps

/-!
What becomes of the operands of the command that ends processes.

The operands are taken one after the other, and each finds the registry that those before it have
left: a pid that is given twice is tracked at its first turn at most. What the operating system does
and answers is left open. It is a kernel, and the command of a shell has that of its machine.
-/
namespace CommandShell

/-- What an operating system makes of the request to kill the process with a pid, and whether it
reports that it has killed it. -/
abbrev Kernel := Machine → Pid → Machine × Bool

namespace Registry

/-- A registry without what was tracked under a pid, whose end has been requested. -/
structure Loses (r : Registry) (pid : Pid) (x : Tracked) (r' : Registry) : Prop where
  formed : r'.WellFormed
  nextSerial : r'.nextSerial = r.nextSerial
  tracked? : ∀ p, r'.tracked? p = if p = pid then none else r.tracked? p
  cancelled : r'.cancelled = x.entry.token :: r.cancelled

variable {r : Registry} (h : r.WellFormed) {pid : Pid}
include h

theorem kill_of_tracked {x : Tracked} (found : r.tracked? pid = some x) :
    ∃ r', r.kill pid = (r', true) ∧ r.Loses pid x r' := by
  have hit : (r.kill pid).2 = true := by rw [hit_kill h, found, Option.isSome_some]
  refine ⟨(r.kill pid).1, Prod.ext rfl hit, wellFormed_kill h pid, nextSerial_kill r pid,
    tracked?_kill h pid, ?_⟩
  rw [cancelled_kill h, found]
  rfl

theorem kill_of_untracked (missing : r.tracked? pid = none) : r.kill pid = (r, false) := by
  rcases h.places pid with ⟨hr, hb⟩ | ⟨entry, hr, hb⟩ | ⟨entry, hr, hb⟩
  · simp [kill, hr, hb]
  · simp [tracked?, hr] at missing
  · simp [tracked?, hr, hb] at missing

end Registry

namespace State

/-- Requests the end of a process: a tracked one, or else any that a kernel knows. Zero and numbers
that are no pid are not handed to it. -/
def killBy (kernel : Kernel) (s : State) (pid : Pid) : State × Bool :=
  match s.supervision.kill pid with
  | (supervision, true) => ({ s with supervision }, true)
  | (_, false) =>
    if pid = 0 ∨ Machine.maxPid < pid then (s, false)
    else
      let (machine, hit) := kernel s.machine pid
      ({ s with machine }, hit)

theorem killBy_kill (s : State) (pid : Pid) : s.killBy Machine.kill pid = s.kill pid := by
  unfold killBy kill Machine.killAny
  rcases s.supervision.kill pid with ⟨supervision, hit | hit⟩
  · simp only [Bool.or_eq_true, decide_eq_true_eq]
    split <;> rfl
  · rfl

/-- The state with another registry. -/
def withRegistry (s : State) (registry : Registry) : State :=
  { s with supervision := { s.supervision with registry } }

section KillBy
variable (kernel : Kernel) {s : State} (formed : s.supervision.registry.WellFormed) {pid : Pid}
include formed

theorem killBy_of_tracked {x : Tracked} (found : s.supervision.registry.tracked? pid = some x) :
    ∃ r, s.killBy kernel pid = (s.withRegistry r, true) ∧
      s.supervision.registry.Loses pid x r := by
  obtain ⟨r, killed, loses⟩ := Registry.kill_of_tracked formed found
  refine ⟨r, ?_, loses⟩
  rw [killBy, Supervision.kill, killed]
  rfl

theorem killBy_of_untracked (missing : s.supervision.registry.tracked? pid = none) :
    s.killBy kernel pid =
      if pid = 0 ∨ Machine.maxPid < pid then (s, false)
      else ({ s with machine := (kernel s.machine pid).1 }, (kernel s.machine pid).2) := by
  rw [killBy, Supervision.kill, Registry.kill_of_untracked formed missing]

end KillBy

end State

namespace Builtin

/-- The pid that an operand names, if it is a numeral of 32 bits. -/
def pid? (word : Text) : Option Pid := (Text.readNat 4294967295 word).toOption

/-- Ends the process that a word names. -/
def killOne (kernel : Kernel) (s : State) (word : Text) : State × KillOutcome :=
  match pid? word with
  | none => (s, .notPid word)
  | some pid =>
    let (s, hit) := s.killBy kernel pid
    (s, if hit then .killed pid else .noProcess pid)

/-- Ends the processes that some words name, one after the other. -/
def killEachBy (kernel : Kernel) (s : State) : List Text → State × List KillOutcome
  | [] => (s, [])
  | word :: rest =>
    let (s, outcome) := killOne kernel s word
    let (s, outcomes) := killEachBy kernel s rest
    (s, outcome :: outcomes)

/-- The command that ends processes, with a kernel. -/
def killBy (kernel : Kernel) (name : Text) : Builtin :=
  ofSignature name "Terminate processes by PID" "terminate one or more processes."
    (Signature.many "pids") fun words s =>
      if words.isEmpty then refuse s killUsage
      else
        let (s, outcomes) := killEachBy kernel s words
        reply s (killReport outcomes)

theorem killEachBy_kill (s : State) (words : List Text) :
    killEachBy Machine.kill s words = killEach s words := by
  induction words generalizing s with
  | nil => rfl
  | cons word rest ih =>
      rw [killEachBy, killEach, killOne, pid?]
      cases Text.readNat 4294967295 word with
      | error cause => simp only [Except.toOption, ih]
      | ok pid => simp only [Except.toOption, State.killBy_kill, ih]

theorem killBy_kill (name : Text) : killBy Machine.kill name = kill name := by
  unfold killBy kill
  simp only [killEachBy_kill]

/-- The turn of a word: what it leads to in the state that it finds, and the state that it
leaves. -/
inductive Turn (kernel : Kernel) (word : Text) (s : State) : KillOutcome → State → Prop
  | unreadable : pid? word = none → Turn kernel word s (.notPid word) s
  | tracked {pid x r} : pid? word = some pid → s.supervision.registry.tracked? pid = some x →
      s.supervision.registry.Loses pid x r → Turn kernel word s (.killed pid) (s.withRegistry r)
  /-- The kernel is asked, and answers. -/
  | asked {pid m hit} : pid? word = some pid → s.supervision.registry.tracked? pid = none →
      1 ≤ pid → pid ≤ Machine.maxPid → kernel s.machine pid = (m, hit) →
      Turn kernel word s (if hit then .killed pid else .noProcess pid) { s with machine := m }
  | beyond {pid} : pid? word = some pid → s.supervision.registry.tracked? pid = none →
      pid = 0 ∨ Machine.maxPid < pid → Turn kernel word s (.noProcess pid) s

namespace Turn
variable {kernel : Kernel} {word : Text} {s s' : State} {outcome : KillOutcome}

theorem formed (turn : Turn kernel word s outcome s') (h : s.supervision.registry.WellFormed) :
    s'.supervision.registry.WellFormed := by
  cases turn with
  | tracked _ _ loses => exact loses.formed
  | unreadable | asked | beyond => exact h

/-- A turn leaves what is tracked under other pids as it is. -/
theorem spares (turn : Turn kernel word s outcome s') {pid : Pid} (other : pid? word ≠ some pid) :
    s'.supervision.registry.tracked? pid = s.supervision.registry.tracked? pid := by
  cases turn with
  | tracked read _ loses =>
      refine (loses.tracked? pid).trans (if_neg ?_)
      rintro rfl
      exact other read
  | unreadable | asked | beyond => rfl

theorem killed_iff (turn : Turn kernel word s outcome s') :
    (∃ pid, outcome = .killed pid) ↔ ∃ pid, pid? word = some pid ∧
      ((∃ x, s.supervision.registry.tracked? pid = some x) ∨
        s.supervision.registry.tracked? pid = none ∧ 1 ≤ pid ∧ pid ≤ Machine.maxPid ∧
          (kernel s.machine pid).2 = true) := by
  cases turn with
  | unreadable read => simp [read]
  | tracked read found => simp [read, found]
  | @asked pid m hit read missing low high answer =>
      cases hit <;> simp [read, missing, low, high, answer]
  | beyond read missing range =>
      rcases range with rfl | high
      · simp [read, missing]
      · simp [read, missing, Nat.not_le_of_lt high]

end Turn

/-- The pid that a kernel is asked to kill at the turn of a word. -/
def request? (s : State) (word : Text) : Option Pid :=
  (pid? word).filter fun pid =>
    (s.supervision.registry.tracked? pid).isNone && 1 ≤ pid && pid ≤ Machine.maxPid

/-- The pids that a kernel is asked to kill for some words, one after the other. -/
def requests (kernel : Kernel) (s : State) : List Text → List Pid
  | [] => []
  | word :: rest => (request? s word).toList ++ requests kernel (killOne kernel s word).1 rest

theorem request?_eq_some_iff {s : State} {word : Text} {pid : Pid} :
    request? s word = some pid ↔ pid? word = some pid ∧
      s.supervision.registry.tracked? pid = none ∧ 1 ≤ pid ∧ pid ≤ Machine.maxPid := by
  simp only [request?, Option.filter_eq_some_iff, Bool.and_eq_true, Option.isNone_iff_eq_none,
    decide_eq_true_eq, and_assoc]

/-- Only the kernel changes the machine. -/
theorem Turn.machine {kernel : Kernel} {word : Text} {s s' : State} {outcome : KillOutcome}
    (turn : Turn kernel word s outcome s') :
    s'.machine =
      (request? s word).toList.foldl (fun m pid => (kernel m pid).1) s.machine := by
  cases turn with
  | unreadable read => simp [request?, read]
  | tracked read found => simp [request?, read, found, Option.filter, State.withRegistry]
  | asked read missing low high answer =>
      rw [request?_eq_some_iff.2 ⟨read, missing, low, high⟩, Option.toList_some, List.foldl_cons,
        answer]
      rfl
  | beyond read missing range =>
      rcases range with rfl | high
      · simp [request?, read, Option.filter]
      · simp [request?, read, Option.filter, Nat.not_le_of_lt high]

section Turns
variable (kernel : Kernel)

theorem killEachBy_append (s : State) (xs ys : List Text) :
    killEachBy kernel s (xs ++ ys) =
      ((killEachBy kernel (killEachBy kernel s xs).1 ys).1,
        (killEachBy kernel s xs).2 ++ (killEachBy kernel (killEachBy kernel s xs).1 ys).2) := by
  induction xs generalizing s with
  | nil => rfl
  | cons word rest ih => simp only [List.cons_append, killEachBy, ih]

theorem length_killEachBy (s : State) (words : List Text) :
    (killEachBy kernel s words).2.length = words.length := by
  induction words generalizing s with
  | nil => rfl
  | cons word rest ih => exact congrArg (· + 1) (ih _)

theorem mem_requests_iff (s : State) (words : List Text) (pid : Pid) :
    pid ∈ requests kernel s words ↔ ∃ earlier word later, words = earlier ++ word :: later ∧
      request? (killEachBy kernel s earlier).1 word = some pid := by
  induction words generalizing s with
  | nil => simp [requests]
  | cons first rest ih =>
      rw [requests, List.mem_append, Option.mem_toList, ih]
      constructor
      · rintro (here | ⟨earlier, word, later, rfl, there⟩)
        · exact ⟨[], first, rest, rfl, here⟩
        · exact ⟨first :: earlier, word, later, rfl, there⟩
      · rintro ⟨_ | ⟨_, earlier⟩, word, later, split, asked⟩
        · cases split
          exact .inl asked
        · cases split
          exact .inr ⟨earlier, word, later, rfl, asked⟩

variable {s : State} (formed : s.supervision.registry.WellFormed)
include formed

theorem turn_killOne (word : Text) :
    Turn kernel word s (killOne kernel s word).2 (killOne kernel s word).1 := by
  unfold killOne
  cases read : pid? word with
  | none => exact .unreadable read
  | some pid =>
      dsimp only
      cases found : s.supervision.registry.tracked? pid with
      | some x =>
          obtain ⟨r, killed, loses⟩ := State.killBy_of_tracked kernel formed found
          rw [killed]
          exact .tracked read found loses
      | none =>
          rw [State.killBy_of_untracked kernel formed found]
          split
          · next beyond => exact .beyond read found beyond
          · next within =>
            obtain ⟨positive, small⟩ := not_or.1 within
            exact .asked read found (Nat.one_le_iff_ne_zero.2 positive) (Nat.le_of_not_lt small) rfl

theorem formed_killEachBy (words : List Text) :
    (killEachBy kernel s words).1.supervision.registry.WellFormed := by
  induction words generalizing s with
  | nil => exact formed
  | cons word rest ih => exact ih ((turn_killOne kernel formed word).formed formed)

/-- Every word has its turn, in the state that those before it have left. -/
theorem turn_killEachBy (earlier : List Text) (word : Text) (later : List Text) :
    ∃ outcome, (killEachBy kernel s (earlier ++ word :: later)).2[earlier.length]? = some outcome ∧
      Turn kernel word (killEachBy kernel s earlier).1 outcome
        (killEachBy kernel s (earlier ++ [word])).1 := by
  have turn := turn_killOne kernel (formed_killEachBy kernel formed earlier) word
  refine ⟨(killOne kernel (killEachBy kernel s earlier).1 word).2, ?_, ?_⟩
  · rw [killEachBy_append, killEachBy,
      List.getElem?_append_right (Nat.le_of_eq (length_killEachBy kernel s earlier)),
      length_killEachBy, Nat.sub_self]
    rfl
  · rw [killEachBy_append]
    exact turn

theorem spares_killEachBy {words : List Text} {pid : Pid}
    (other : ∀ word ∈ words, pid? word ≠ some pid) :
    (killEachBy kernel s words).1.supervision.registry.tracked? pid =
      s.supervision.registry.tracked? pid := by
  induction words generalizing s with
  | nil => rfl
  | cons word rest ih =>
      have turn := turn_killOne kernel formed word
      obtain ⟨first, later⟩ := List.forall_mem_cons.1 other
      exact (ih (turn.formed formed) later).trans (turn.spares first)

theorem machine_killEachBy (words : List Text) :
    (killEachBy kernel s words).1.machine =
      (requests kernel s words).foldl (fun m pid => (kernel m pid).1) s.machine := by
  induction words generalizing s with
  | nil => rfl
  | cons word rest ih =>
      have turn := turn_killOne kernel formed word
      rw [requests, List.foldl_append, ← turn.machine]
      exact ih (turn.formed formed)

end Turns

section Report
variable (outcomes : List KillOutcome)

/-- Every outcome is a kill or has a reason why there was none. -/
theorem length_killed_add_reasons :
    (outcomes.filterMap KillOutcome.killed?).length +
      (outcomes.filterMap KillOutcome.reason?).length = outcomes.length := by
  induction outcomes with
  | nil => rfl
  | cons outcome rest ih =>
      cases outcome <;> simp [List.filterMap_cons, KillOutcome.killed?, KillOutcome.reason?] <;>
        omega

theorem killReport_sides :
    ((killReport outcomes).success = true ↔ outcomes.filterMap KillOutcome.reason? = []) ∧
    ((killReport outcomes).output = [] ↔ outcomes.filterMap KillOutcome.killed? = []) ∧
    ((killReport outcomes).error = [] ↔ outcomes.filterMap KillOutcome.reason? = []) := by
  unfold killReport
  cases outcomes.filterMap KillOutcome.reason? <;> cases outcomes.filterMap KillOutcome.killed? <;>
    simp [Result.ok, Result.ofExit, Text.line]

end Report

/-- Whatever registry the command that ends processes finds, whatever operands it is given, and
however the operating system answers: every operand has one outcome, in the order of the operands,
which is decided at its turn. It is killed exactly if it names a pid that is tracked then, or for
which the operating system is asked and reports a kill. What was tracked is evicted and its token
cancelled. The operating system is asked for nothing but single processes that are untracked at the
turn of an operand that names them. What is tracked under other pids stays as it is, and the result
is a success exactly if no operand has failed. -/
theorem outcomes_of_kill (kernel : Kernel) (name : Text) {words : List Text} {s : State}
    (given : words ≠ []) (operand : words ≠ [helpWord])
    (formed : s.supervision.registry.WellFormed) :
    let operands := words.map Line.unquote
    let final := (killEachBy kernel s operands).1
    let outcomes := (killEachBy kernel s operands).2
    let killed := outcomes.filterMap KillOutcome.killed?
    let failed := outcomes.filterMap KillOutcome.reason?
    ((killBy kernel name).run words s = (final, .result (killReport outcomes)) ∧
      killBy Machine.kill name = kill name) ∧
    (∀ earlier word later, operands = earlier ++ word :: later →
      let here := (killEachBy kernel s earlier).1
      ∃ outcome, outcomes[earlier.length]? = some outcome ∧
        Turn kernel word here outcome (killEachBy kernel s (earlier ++ [word])).1 ∧
        ((∃ pid, outcome = .killed pid) ↔ ∃ pid, pid? word = some pid ∧
          ((∃ x, here.supervision.registry.tracked? pid = some x) ∨
            here.supervision.registry.tracked? pid = none ∧ 1 ≤ pid ∧ pid ≤ 2147483647 ∧
              (kernel here.machine pid).2 = true))) ∧
    (final.machine =
        (requests kernel s operands).foldl (fun m pid => (kernel m pid).1) s.machine ∧
      ∀ pid, pid ∈ requests kernel s operands ↔ 1 ≤ pid ∧ pid ≤ 2147483647 ∧
        ∃ earlier word later, operands = earlier ++ word :: later ∧ pid? word = some pid ∧
          (killEachBy kernel s earlier).1.supervision.registry.tracked? pid = none) ∧
    (∀ pid, (∀ word ∈ operands, pid? word ≠ some pid) →
      final.supervision.registry.tracked? pid = s.supervision.registry.tracked? pid) ∧
    outcomes.length = operands.length ∧ killed.length + failed.length = operands.length ∧
    ((killReport outcomes).success = true ↔ failed = []) ∧
    ((killReport outcomes).output = [] ↔ killed = []) ∧
    ((killReport outcomes).error = [] ↔ failed = []) := by
  intro operands final outcomes killed failed
  have length : outcomes.length = operands.length := length_killEachBy kernel s operands
  refine ⟨⟨?_, killBy_kill name⟩, fun earlier word later split => ?_,
    ⟨machine_killEachBy kernel formed operands, fun pid => ?_⟩,
    fun pid other => spares_killEachBy kernel formed other, length,
    (length_killed_add_reasons outcomes).trans length, killReport_sides outcomes⟩
  · have some : operands.isEmpty = false := by simpa [operands] using given
    rw [killBy, ofSignature_eq]
    dsimp only
    rw [if_neg operand]
    dsimp only [Signature.many]
    rw [some]
    rfl
  · obtain ⟨outcome, found, turn⟩ := turn_killEachBy kernel formed earlier word later
    rw [← split] at found
    exact ⟨outcome, found, turn, turn.killed_iff⟩
  · simp only [mem_requests_iff, request?_eq_some_iff]
    constructor
    · rintro ⟨earlier, word, later, split, read, missing, low, high⟩
      exact ⟨low, high, earlier, word, later, split, read, missing⟩
    · rintro ⟨low, high, earlier, word, later, split, read, missing⟩
      exact ⟨earlier, word, later, split, read, missing, low, high⟩

/-- The second turn of a job that has been evicted at the first one is left to the kernel. -/
theorem outcomes_of_kill_repeated :
    let kernel : Kernel := fun m pid => ({ m with clock := m.clock + pid }, true)
    let job := ({} : Supervision).start 7 [] .background
    let s := { State.start { assets := [] } [] (Machine.standard 0 "/".toList) with
      supervision := job }
    let words := ["7", "'7'", "+0", "4294967295", "-7"].map String.toList
    let outcomes : List KillOutcome :=
      [.killed 7, .killed 7, .noProcess 0, .noProcess 4294967295, .notPid "-7".toList]
    words ≠ [] ∧ words ≠ [helpWord] ∧ job.registry.WellFormed ∧
      ((killBy kernel "kill".toList).run words s).2 = .result (killReport outcomes) ∧
      ((killBy kernel "kill".toList).run words s).1.machine.clock = s.machine.clock + 7 ∧
      (killReport outcomes).success = false := by
  intro kernel job s words outcomes
  have formed : job.registry.WellFormed :=
    Registry.wellFormed_insert Registry.wellFormed_empty 7 [] .background 0
  have same : (killEachBy kernel s (words.map Line.unquote)).2 = outcomes := by decide
  obtain ⟨⟨run, -⟩, -, ⟨machine, -⟩, -, -, -, success, -⟩ :=
    outcomes_of_kill kernel "kill".toList (s := s) (by decide) (by decide : words ≠ _) formed
  rw [same] at run success
  refine ⟨by decide, by decide, formed, congrArg Prod.snd run, ?_, ?_⟩
  · rw [run, machine]
    decide
  · exact Bool.eq_false_iff.2 fun good => absurd (success.1 good) (by decide)

end Builtin

end CommandShell
