import CommandShell.Machine.Standard
import CommandShell.Proofs.Process.Flow
import CommandShell.Proofs.Shell.Leaving

/-!
What results look like. A built-in command of every shell succeeds with the code zero and says no
error, or it fails with the code one and says why. A line has a result that is a success exactly if
its code is zero, however the processes end that it starts, as long as the commands that have been
added to the shell keep to this.
-/
namespace CommandShell

namespace Result

/-- A success exactly if the code is zero. -/
def Consistent (r : Result) : Prop := r.success = true ↔ r.code = 0

/-- A success with the code zero and without an error, or a failure with the code one and one. -/
def Plain (r : Result) : Prop :=
  r.success = true ∧ r.code = 0 ∧ r.error = [] ∨ r.success = false ∧ r.code = 1 ∧ r.error ≠ []

theorem Plain.consistent {r : Result} (h : r.Plain) : r.Consistent := by
  rcases h with ⟨success, code, -⟩ | ⟨success, code, -⟩ <;> simp [Consistent, success, code]

theorem plain_ok (output : Text) : (ok output).Plain := .inl ⟨rfl, rfl, rfl⟩

theorem plain_failure {error : Text} (some : error ≠ []) : (failure error 1).Plain :=
  .inr ⟨rfl, rfl, some⟩

theorem consistent_ofExit (code : Int) (output error : Text) :
    (ofExit code output error).Consistent := by
  simp [Consistent, ofExit]

theorem Plain.ofExit {r : Result} (h : r.Plain) : (ofExit r.code r.output r.error).Plain := by
  rcases h with ⟨-, code, error⟩ | ⟨-, code, error⟩
  · exact .inl ⟨by simp [Result.ofExit, code], code, error⟩
  · exact .inr ⟨by simp [Result.ofExit, code], code, error⟩

end Result

theorem ShellError.consistent_result (e : ShellError) : e.result.Consistent := by
  cases e <;> simp [Result.Consistent, result, Result.failure, code]

theorem PopError.message_ne_nil (e : PopError) : e.message ≠ [] := by
  cases e <;> exact List.cons_ne_nil _ _

/-- An outcome with a plain result. -/
def Settles (o : State × Answer) : Prop := ∃ r : Result, o.2 = .result r ∧ r.Plain

namespace Builtin

theorem settles_say (s : State) (output : Text) : Settles (say s output) :=
  ⟨_, rfl, Result.plain_ok output⟩

theorem settles_refuse (s : State) {error : Text} (some : error ≠ []) : Settles (refuse s error) :=
  ⟨_, rfl, Result.plain_failure some⟩

theorem because_ne_nil (context : Text) (cause : IoError) : because context cause ≠ [] := by
  simp [because]

theorem trimEnd_message_ne_nil (e : OperandError) : Text.trimEnd e.message ≠ [] := by
  rw [ne_eq, Text.trimEnd_eq_nil_iff, Bool.not_eq_true]
  cases e with
  | unrecognized word => exact Text.not_allBlank_of_mem (c := 'U') List.mem_cons_self rfl
  | missing names => exact Text.not_allBlank_of_mem (c := 'R') List.mem_cons_self rfl
  | unreadable name word cause =>
      exact Text.not_allBlank_of_mem (c := 'E') List.mem_cons_self rfl

/-- Every run of a command has a plain result. -/
def Plain (b : Builtin) : Prop := ∀ words s, Settles (b.run words s)

section Signatures
variable {α : Type} (name : Text) (description doc : String) (signature : Signature α)
  (body : α → State → State × Answer)

/-- A command settles before its body is run, or it is its body on the operands that its words
spell. -/
theorem settles_or_body (words : List Text) (s : State) :
    Settles ((ofSignature name description doc signature body).run words s) ∨
      ∃ operands, signature.read (words.map Line.unquote) = .ok operands ∧
        (ofSignature name description doc signature body).run words s = body operands s := by
  rw [ofSignature_eq]
  dsimp only
  split
  · exact .inl ⟨_, rfl, Result.plain_ok _⟩
  · cases read : signature.read (words.map Line.unquote) with
    | error error => exact .inl ⟨_, rfl, Result.plain_failure (trimEnd_message_ne_nil error)⟩
    | ok operands => exact .inr ⟨operands, rfl, rfl⟩

variable {body} in
theorem plain_ofSignature (h : ∀ operands s, Settles (body operands s)) :
    (ofSignature name description doc signature body).Plain := by
  intro words s
  rcases settles_or_body name description doc signature body words s with
    settles | ⟨operands, -, run⟩
  · exact settles
  · rw [run]
    exact h operands s

end Signatures

section Directories
variable (name : Text)

theorem plain_cd : (cd name).Plain := by
  refine plain_ofSignature _ _ _ _ fun words s => ?_
  split
  · exact settles_say _ _
  · dsimp only
    split
    · exact settles_say _ _
    · exact settles_refuse _ (List.cons_ne_nil _ _)

theorem plain_dir : (dir name).Plain := by
  refine plain_ofSignature _ _ _ _ fun words s => ?_
  dsimp only
  split
  · exact settles_refuse _ (because_ne_nil _ _)
  · split
    · exact settles_refuse _ (because_ne_nil _ _)
    · exact settles_say _ _

theorem plain_pwd : (pwd name).Plain := plain_ofSignature _ _ _ _ fun _ _ => settles_say _ _

theorem plain_pushd : (pushd name).Plain := by
  refine plain_ofSignature _ _ _ _ fun words s => ?_
  dsimp only
  split
  · exact settles_say _ _
  · exact settles_refuse _ (List.cons_ne_nil _ _)

theorem plain_popd : (popd name).Plain := by
  refine plain_ofSignature _ _ _ _ fun words s => ?_
  dsimp only
  split
  · exact settles_say _ _
  · next error _ => exact settles_refuse _ (PopError.message_ne_nil error)

theorem settles_changed (s : State) (command done path : Text) (change : Change) :
    Settles (changed s command done path change) := by
  unfold changed
  dsimp only
  split
  · exact settles_say _ _
  · exact settles_refuse _ (because_ne_nil _ _)

theorem plain_mkdir : (mkdir name).Plain := by
  refine plain_ofSignature _ _ _ _ fun words s => ?_
  split
  · exact settles_refuse _ (List.cons_ne_nil _ _)
  · exact settles_changed _ _ _ _ _

theorem plain_rmdir : (rmdir name).Plain := by
  refine plain_ofSignature _ _ _ _ fun words s => ?_
  split
  · exact settles_refuse _ (List.cons_ne_nil _ _)
  · exact settles_changed _ _ _ _ _

end Directories

section Files
variable (name : Text)

theorem plain_del : (del name).Plain := by
  refine plain_ofSignature _ _ _ _ fun words s => ?_
  split
  · exact settles_refuse _ (List.cons_ne_nil _ _)
  · dsimp only
    split
    · exact settles_say _ _
    · exact settles_refuse _ (because_ne_nil _ _)

theorem settles_transferred (s : State) (command done source target : Text)
    (files : Except Stopped Files) : Settles (transferred s command done source target files) := by
  cases files with
  | ok files => exact settles_say _ _
  | error cause => exact settles_refuse _ (because_ne_nil _ _)

theorem plain_copy : (copy name).Plain :=
  plain_ofSignature _ _ _ _ fun _ _ => settles_transferred _ _ _ _ _ _

theorem plain_move : (move name).Plain :=
  plain_ofSignature _ _ _ _ fun _ _ => settles_transferred _ _ _ _ _ _

theorem plain_type : (type name).Plain := by
  refine plain_ofSignature _ _ _ _ fun words s => ?_
  split
  · exact settles_refuse _ (List.cons_ne_nil _ _)
  · dsimp only
    split
    · exact settles_say _ _
    · exact settles_refuse _ (because_ne_nil _ _)

end Files

section Session
variable (name : Text)

theorem plain_echo : (echo name).Plain := by
  intro words s
  rw [run_echo]
  exact settles_say _ _

theorem plain_set : (set name).Plain := by
  refine plain_ofSignature _ _ _ _ fun words s => ?_
  split
  · exact settles_say _ _
  · split
    · exact settles_say _ _
    · exact settles_refuse _ (List.cons_ne_nil _ _)

theorem plain_env : (env name).Plain := plain_ofSignature _ _ _ _ fun _ _ => settles_say _ _

theorem plain_clear : (clear name).Plain := plain_ofSignature _ _ _ _ fun _ _ => settles_say _ _

theorem plain_history : (history name).Plain := plain_ofSignature _ _ _ _ fun _ _ => settles_say _ _

theorem plain_prompt : (prompt name).Plain := by
  refine plain_ofSignature _ _ _ _ fun words s => ?_
  split <;> exact settles_say _ _

theorem plain_help : (help name).Plain := plain_ofSignature _ _ _ _ fun _ _ => settles_say _ _

theorem ne_nil_of_artOutput {s : State} {error : Text} (h : artOutput s name = .error error) :
    error ≠ [] := by
  unfold artOutput at h
  dsimp only at h
  split at h
  · cases h
    exact List.cons_ne_nil _ _
  · split at h
    · cases h
      exact List.cons_ne_nil _ _
    · split at h
      · split at h <;> cases h
      · cases h

theorem plain_art (description : String) : (art description name).Plain := by
  intro words s
  unfold art
  dsimp only
  split
  · exact settles_refuse _ (List.cons_ne_nil _ _)
  · split
    · exact settles_say _ _
    · next failed => exact settles_refuse _ (ne_nil_of_artOutput name failed)

/-- The command that ends the shell has a plain result where it does not end it. -/
theorem settles_or_quits_exit (words : List Text) (s : State) :
    Settles ((exit name).run words s) ∨
      ∃ c, leavingCode? (words.map Line.unquote) = some c ∧
        ((exit name).run words s).2 = .quits c := by
  rcases settles_or_body name _ _ _ _ words s with settles | ⟨code, read, run⟩
  · exact .inl settles
  · refine .inr ⟨code.getD 0, ?_, congrArg Prod.snd run⟩
    rw [leavingCode?_eq_read, read]
    rfl

end Session

section Processes
variable (name : Text)

theorem plain_jobs : (jobs name).Plain := plain_ofSignature _ _ _ _ fun _ _ => settles_say _ _

theorem plain_toForeground (s : State) (pid : Pid) : (s.toForeground pid).2.Plain := by
  unfold State.toForeground
  dsimp only
  split
  · exact Result.plain_ok _
  · exact Result.plain_ok _
  · exact Result.plain_failure (List.cons_ne_nil _ _)

theorem plain_fg : (fg name).Plain :=
  plain_ofSignature _ _ _ _ fun pid s => ⟨_, rfl, (plain_toForeground s pid).ofExit⟩

theorem plain_bg : (bg name).Plain := by
  refine plain_ofSignature _ _ _ _ fun pid s => ?_
  split
  · exact settles_say _ _
  · exact settles_refuse _ (List.cons_ne_nil _ _)

theorem plain_killReport (outcomes : List KillOutcome) : (killReport outcomes).Plain := by
  unfold killReport
  dsimp only
  split
  · exact Result.plain_ok _
  · exact .inr ⟨rfl, rfl, List.cons_ne_nil _ _⟩

theorem plain_kill : (kill name).Plain := by
  refine plain_ofSignature _ _ _ _ fun words s => ?_
  split
  · exact settles_refuse _ (List.cons_ne_nil _ _)
  · exact ⟨_, rfl, plain_killReport _⟩

end Processes

theorem forall_mem_named {p : Builtin → Prop} {command : Text → Builtin}
    (h : ∀ name, p (command name)) (names : List String) :
    ∀ b ∈ BuiltinTable.named command names, p b := by
  intro b member
  obtain ⟨name, -, rfl⟩ := List.mem_map.1 member
  exact h name.toList

/-- Of the commands of every shell only the one that ends it may have no result. -/
theorem plain_or_exit_of_standard :
    ∀ b ∈ BuiltinTable.standard.commands, b.Plain ∨ b = exit "exit".toList := by
  have plain {command : Text → Builtin} (h : ∀ name, (command name).Plain) (names : List String) :
      ∀ b ∈ BuiltinTable.named command names, b.Plain ∨ b = exit "exit".toList :=
    forall_mem_named (fun name => .inl (h name)) names
  have leaving : ∀ b ∈ BuiltinTable.named exit ["exit"], b.Plain ∨ b = exit "exit".toList :=
    fun b member => .inr (List.mem_singleton.1 member)
  unfold BuiltinTable.standard
  simp only [List.forall_mem_append, and_assoc]
  exact ⟨plain plain_cd _, plain plain_dir _, plain plain_pwd _, plain plain_echo _,
    plain plain_set _, plain plain_env _, plain plain_clear _, leaving, plain plain_help _,
    plain plain_history _, plain plain_pushd _, plain plain_popd _, plain plain_mkdir _,
    plain plain_rmdir _, plain plain_del _, plain plain_copy _, plain plain_move _,
    plain plain_type _, plain plain_prompt _, plain plain_jobs _, plain plain_fg _,
    plain plain_bg _, plain plain_kill _, plain (plain_art · _) _, plain (plain_art · _) _,
    plain (plain_art · _) _⟩

theorem settles_invoke {b : Builtin} {words : List Text} {s : State}
    (h : Settles (b.run words s)) : Settles (b.invoke words s) := by
  obtain ⟨r, answer, plain⟩ := h
  exact ⟨r, congrArg (Answer.contained b.name) answer, plain⟩

/-- A command of every shell has a plain result, unless it ends the shell with the code that its
operand asks for. -/
theorem settles_or_quits_of_standard {b : Builtin} (member : b ∈ BuiltinTable.standard.commands)
    (words : List Text) (s : State) :
    Settles (b.invoke words s) ∨ b = exit "exit".toList ∧
      ∃ c, leavingCode? (words.map Line.unquote) = some c ∧ (b.invoke words s).2 = .quits c := by
  rcases plain_or_exit_of_standard b member with plain | rfl
  · exact .inl (settles_invoke (plain words s))
  · rcases settles_or_quits_exit "exit".toList words s with settles | ⟨c, asked, quits⟩
    · exact .inl (settles_invoke settles)
    · exact .inr ⟨rfl, c, asked, congrArg (Answer.contained _) quits⟩

theorem consistent_of_standard {b : Builtin} (member : b ∈ BuiltinTable.standard.commands)
    {words : List Text} {s : State} {r : Result} (answered : (b.run words s).2 = .result r) :
    r.Consistent := by
  have invoked := congrArg (Answer.contained b.name) answered
  rcases settles_or_quits_of_standard member words s with ⟨_, same, plain⟩ | ⟨-, c, -, quits⟩
  · cases invoked.symm.trans same
    exact plain.consistent
  · cases invoked.symm.trans quits

end Builtin

/-- The commands of every shell and others that have been added. -/
def BuiltinTable.extended (added : List Builtin) : BuiltinTable := added.foldl register .standard

theorem BuiltinTable.mem_of_mem_foldl {added : List Builtin} {t : BuiltinTable} {b : Builtin}
    (member : b ∈ (added.foldl register t).commands) : b ∈ added ∨ b ∈ t.commands := by
  induction added generalizing t with
  | nil => exact .inr member
  | cons other rest ih =>
      rcases ih member with found | found
      · exact .inl (List.mem_cons_of_mem _ found)
      · rcases List.mem_cons.1 found with rfl | old
        · exact .inl List.mem_cons_self
        · exact .inr (List.mem_of_mem_filter old)

/-- Some answer is a consistent result, or a command ends the shell with it. -/
def Regular (t : BuiltinTable) (answer : Answer) : Prop :=
  (∃ r : Result, answer = .result r ∧ r.Consistent) ∨
    ∃ c, answer = .quits c ∧ ∃ b ∈ t.commands, ∃ words s, (b.invoke words s).2 = .quits c

theorem regular_invoke {t : BuiltinTable} {b : Builtin} (member : b ∈ t.commands)
    (kept : ∀ words s r, (b.run words s).2 = .result r → r.Consistent) (words : List Text)
    (s : State) : Regular t (b.invoke words s).2 := by
  have invoked : (b.invoke words s).2 = Builtin.Answer.contained b.name (b.run words s).2 := rfl
  cases ran : (b.run words s).2 with
  | result r => exact .inl ⟨r, by rw [invoked, ran]; rfl, kept words s r ran⟩
  | quits c =>
      have quits : (b.invoke words s).2 = .quits c := by rw [invoked, ran]; rfl
      exact .inr ⟨c, quits, b, member, words, s, quits⟩
  | broke message =>
      exact .inl ⟨_, by rw [invoked, ran]; rfl, by simp [Result.Consistent, Result.failure]⟩

theorem Origin.regular {t : BuiltinTable} {answer : Answer}
    (kept : ∀ b ∈ t.commands, ∀ words s r, (b.run words s).2 = .result r → r.Consistent)
    (of : Origin t answer) : Regular t answer := by
  have same {r r' : Result} (success : r'.success = r.success) (code : r'.code = r.code)
      (regular : Regular t (.result r)) : Regular t (.result r') := by
    rcases regular with ⟨_, ⟨⟩, consistent⟩ | ⟨c, ⟨⟩, -⟩
    exact .inl ⟨r', rfl, by rwa [Result.Consistent, success, code]⟩
  induction of with
  | nothing => exact .inl ⟨_, rfl, by simp [Result.Consistent]⟩
  | builtin member words s => exact regular_invoke member (kept _ member) words s
  | ended s pid =>
      refine .inl ⟨_, rfl, ?_⟩
      unfold State.resultOf
      split <;> exact Result.consistent_ofExit _ _ _
  | started text => exact .inl ⟨_, rfl, (Result.plain_ok text).consistent⟩
  | error => exact .inl ⟨_, rfl, ShellError.consistent_result _⟩
  | @delivered r of ih => exact same (r := r) rfl rfl ih
  | @timed r of elapsed ih => exact same (r := r) rfl rfl ih

namespace State

theorem regular_runLine {t : BuiltinTable}
    (kept : ∀ b ∈ t.commands, ∀ words s r, (b.run words s).2 = .result r → r.Consistent)
    (s : State) (line : Text) (cancelled : Bool) : Regular t (runLine t s line cancelled).2 := by
  cases shown : Text.allBlank line with
  | true =>
      rw [runLine, if_pos shown]
      exact Origin.regular kept .nothing
  | false =>
      rw [runLine_of_kind t s shown, runKind_eq_plan]
      cases plan t (s.recorded line) line with
      | error cause =>
          rw [timed_failSyntax]
          exact .inl ⟨_, rfl, ShellError.consistent_result (.badSyntax cause)⟩
      | ok p => exact (origin_timed (origin_carryOut _ _ p)).regular kept

end State

/-- A call that has returned from a pipeline has a consistent result, whatever its processes have
done. -/
theorem Flow.consistent_of_run {text : Option Bytes} {last : Nat} {past : List Action} {f : Flow}
    (run : (start text last).Run past f) {r : Result} (returned : f.call = .returned r) :
    r.Consistent := by
  induction run generalizing r with
  | start => cases returned
  | step _ step ih =>
      cases step with
      | move | carry | finish => exact ih returned
      | answer =>
          cases returned
          exact Result.consistent_ofExit _ _ _
      | cancel =>
          cases returned
          exact ShellError.consistent_result .cancelled

theorem State.consistent_await (s : State) (pids : List Pid) (last : Pid) (cancelled : Bool) :
    (s.await pids last cancelled).2.Consistent := by
  unfold await resultOf
  split
  · dsimp only
    split <;> exact Result.consistent_ofExit _ _ _
  · exact ShellError.consistent_result .cancelled

/-- In all states and on all words the commands of every shell have plain results, unless the shell
is asked to end. Every line has a result that is a success exactly if its code is zero, if the
commands that have been added have no others, unless a command ends the shell; and so has every call
that waits for processes, whatever these have done and however they have ended. -/
theorem results_uniform (added : List Builtin)
    (kept : ∀ b ∈ added, ∀ words s r, (b.run words s).2 = .result r → r.Consistent) :
    (∀ b ∈ BuiltinTable.standard.commands, ∀ words s, Settles (b.invoke words s) ∨
      b = Builtin.exit "exit".toList ∧
        ∃ c, leavingCode? (words.map Line.unquote) = some c ∧ (b.invoke words s).2 = .quits c) ∧
    (∀ (s : State) line cancelled,
      let answer := (Session.execute ⟨s, .extended added⟩ line cancelled).2
      (∃ r : Result, answer = .result r ∧ r.Consistent) ∨
        ∃ c, answer = .quits c ∧ ∃ b words s', (b ∈ added ∨ b = Builtin.exit "exit".toList) ∧
          (b.invoke words s').2 = .quits c) ∧
    (∀ (s : State) pids last cancelled, (s.await pids last cancelled).2.Consistent) ∧
    (∀ text last past f r, (Flow.start text last).Run past f → f.call = .returned r →
      r.Consistent) := by
  refine ⟨fun b => Builtin.settles_or_quits_of_standard, ?_, State.consistent_await,
    fun _ _ _ _ _ => fun run returned => Flow.consistent_of_run run returned⟩
  intro s line cancelled
  have regular :
      Regular (.extended added) (State.runLine (.extended added) s line cancelled).2 := by
    refine State.regular_runLine (fun b member words s r answered => ?_) s line cancelled
    rcases BuiltinTable.mem_of_mem_foldl member with other | standard
    · exact kept b other words s r answered
    · exact Builtin.consistent_of_standard standard answered
  refine regular.imp_right ?_
  rintro ⟨c, quits, b, member, words, s', ended⟩
  refine ⟨c, quits, b, words, s', ?_, ended⟩
  refine (BuiltinTable.mem_of_mem_foldl member).imp_right fun standard => ?_
  rcases Builtin.settles_or_quits_of_standard standard words s' with ⟨r, settled, -⟩ | ⟨leaving, -⟩
  · cases settled.symm.trans ended
  · exact leaving

theorem results_uniform_probe :
    let probe : Builtin :=
      ⟨"probe".toList, [], fun words s => (s, .result (Result.ofExit words.length [] []))⟩
    let s := State.start { assets := [] } [] (Machine.standard 0 "/home".toList)
    (∀ b ∈ [probe], ∀ words s r, (b.run words s).2 = .result r → r.Consistent) ∧
      ∃ r : Result, (Session.execute ⟨s, .extended [probe]⟩ "probe a > out".toList false).2 =
          .result r ∧ r.code = 1 ∧ r.success = false := by
  intro probe s
  have kept : ∀ b ∈ [probe], ∀ words s r, (b.run words s).2 = .result r → r.Consistent := by
    intro b member words s r answered
    obtain rfl := List.mem_singleton.1 member
    cases answered
    exact Result.consistent_ofExit _ _ _
  have answered : (Session.execute ⟨s, .extended [probe]⟩ "probe a > out".toList false).2 =
      .result (Result.ofExit 1 [] []) := by decide +kernel
  refine ⟨kept, ?_⟩
  rcases (results_uniform [probe] kept).2.1 s "probe a > out".toList false with
    ⟨r, found, consistent⟩ | ⟨c, quits, -⟩
  · have code : r.code = 1 := by
      cases answered.symm.trans found
      rfl
    refine ⟨r, found, code, Bool.eq_false_iff.2 fun success => ?_⟩
    simp [consistent.1 success] at code
  · cases answered.symm.trans quits

end CommandShell
