import CommandShell.Machine.Standard
import CommandShell.Proofs.Line.SpacedWords
import CommandShell.Proofs.Shell.Refusals
import CommandShell.Shell.Console

/-!
Leaving the shell. The console looks for a request to leave in the words between blanks, and the
shell runs the command that asks for it on the words of the line as it reads them. A request that
the console sees the shell would follow with the same code. The shell sees more of them: where the
words that it reads are not those between blanks, the process ends at once and nothing is closed.
-/
namespace CommandShell

theorem isOrdinary_of_toLower {c : Char} (h : c.toLower ∈ "exit".toList) :
    Line.isOrdinary c = true := by
  by_cases upper : c.val ≥ 'A'.val ∧ c.val ≤ 'Z'.val
  · have capital : c.isUpper = true := decide_eq_true upper
    have letter : c.isAlpha = true := Bool.or_eq_true_iff.2 (.inl capital)
    simp [Line.isOrdinary, Char.isAlphanum, letter]
  · have same : c.toLower = c := dif_neg upper
    have all : "exit".toList.all Line.isOrdinary = true := by decide
    rw [same] at h
    exact List.all_eq_true.1 all c h

/-- The name of the command that ends the shell, up to case. -/
def Leaves (name : Text) : Prop := Text.asciiLower name = "exit".toList

namespace Leaves
variable {name : Text} (h : Leaves name)
include h

theorem isOrdinary : ∀ c ∈ name, Line.isOrdinary c = true := fun _ hc =>
  isOrdinary_of_toLower (h ▸ List.mem_map_of_mem hc)

theorem bare : Line.Bare name := by
  refine Line.bare_of_isOrdinary ?_ h.isOrdinary
  rintro rfl
  cases h

end Leaves

/-- The code that the operands of the command that ends the shell ask for. -/
def leavingCode? : List Text → Option Int
  | [] => some 0
  | [code] => (Text.readInt 2147483647 code).toOption
  | _ => none

/-- The first command of a plan has some name, unless it is to be run in the background. -/
inductive Plan.Calls (t : BuiltinTable) (name : Text) : Plan → Prop
  | background (other : Text) (arguments : List Text) : Calls t name (.background other arguments)
  | command (arguments : List Text) (target? : Option (Text × Bool)) :
    Calls t name (.command name arguments target?)
  | pipeline {p : Pipeline} {arguments : List Text} {later : List Stage}
    (stages : p.stages = ⟨name, arguments, t.contains name⟩ :: later)
    (target? : Option (Text × Bool)) : Calls t name (.pipeline p target?)

/-- The words that the first command of a plan is given, its name first, unless it is to be run in
the background. -/
def Plan.given? : Plan → Option (List Text)
  | .command name arguments _ => some (name :: arguments.map Line.unquote)
  | .background _ _ => none
  | .pipeline p _ =>
    p.stages.head?.map fun stage => stage.command :: stage.arguments.map Line.unquote

/-- The words that the first command of a line is given. -/
def State.given? (t : BuiltinTable) (s : State) (line : Text) : Option (List Text) :=
  match plan t s line with
  | .ok p => p.given?
  | .error _ => none

theorem Console.exitRequest?_of_leaves {line first : Text} {rest : List Text}
    (split : Text.blankSplit line = first :: rest) (leaves : Leaves first) :
    exitRequest? line = leavingCode? rest := by
  have other : ("exit".toList == "quit".toList) = false := by decide
  rw [exitRequest?, split]
  dsimp only
  rw [show Text.asciiLower first = "exit".toList from leaves, other, beq_self_eq_true]
  rfl

theorem Signature.read_optional_one (o : Operand α) (word : Text) :
    ((optional o).read [word]).toOption = (o.read word).toOption.map some := by
  have read : (optional o).read [word] = (o.readWord word).bind fun value => .ok (some value) := rfl
  rw [read, Operand.readWord]
  cases o.read word <;> rfl

theorem Signature.read_optional_more (o : Operand α) (word other : Text) (more : List Text) :
    ((optional o).read (word :: other :: more)).toOption = .none := by
  have read : (optional o).read (word :: other :: more) =
      (o.readWord word).bind fun _ => .error (.unrecognized other) := rfl
  rw [read]
  cases o.readWord word <;> rfl

/-- The operands are read by the command as they are by the console. -/
theorem leavingCode?_eq_read (doc : String) (words : List Text) :
    leavingCode? words =
      ((Signature.optional (.code doc)).read words).toOption.map (Option.getD · 0) := by
  rcases words with _ | ⟨word, _ | ⟨other, more⟩⟩
  · rfl
  · have read : (Operand.code doc).read word = Text.readInt 2147483647 word := rfl
    rw [leavingCode?, Signature.read_optional_one, read]
    cases (Text.readInt 2147483647 word).toOption <;> rfl
  · rw [Signature.read_optional_more]
    rfl

theorem Builtin.invoke_exit_eq_quits_iff (name : Text) (words : List Text) (s : State) (c : Int) :
    ((exit name).invoke words s).2 = .quits c ↔ leavingCode? (words.map Line.unquote) = some c := by
  rw [invoke, exit, ofSignature_eq]
  dsimp only
  split
  · next help =>
    have none : leavingCode? ([helpWord].map Line.unquote) = none := by decide
    rw [help, none]
    exact iff_of_false (by simp [Answer.contained]) (by simp)
  · rw [leavingCode?_eq_read "exit code, 0 when omitted."]
    generalize (Signature.optional _).read (words.map Line.unquote) = operands
    cases operands with
    | error cause =>
        exact iff_of_false (by simp [Answer.contained, misread]) (by simp [Except.toOption])
    | ok code => simp [Answer.contained, Except.toOption]

theorem BuiltinTable.lookup_congr (t : BuiltinTable) {a b : Text}
    (same : Text.asciiLower a = Text.asciiLower b) : t.lookup a = t.lookup b := by
  have named : isNamed a = isNamed b := by
    funext other
    rw [isNamed, isNamed, same]
  rw [lookup, lookup, named]

namespace State

theorem exists_deliver (s : State) (target : Text) (append : Bool) (r : Result) :
    ∃ delivered, (s.deliver target append r).2 = .result delivered := by
  rw [deliver]
  split
  · exact ⟨_, rfl⟩
  · exact ⟨_, rfl⟩

theorem redirect_eq_quits_iff (target? : Option (Text × Bool)) (o : State × Answer) (c : Int) :
    (redirect target? o).2 = .quits c ↔ o.2 = .quits c := by
  obtain ⟨s, answer⟩ := o
  cases answer with
  | result r =>
      refine iff_of_false (fun same => ?_) (by simp)
      rcases target? with _ | ⟨target, append⟩
      · cases same
      · rw [redirect] at same
        split at same
        · obtain ⟨delivered, answered⟩ := s.exists_deliver target append r
          cases answered.symm.trans same
        · cases same
  | quits code => rfl
  | broke message => rfl

theorem timed_eq_quits_iff (start : Nat) (o : State × Answer) (c : Int) :
    (timed start o).2 = .quits c ↔ o.2 = .quits c := by
  obtain ⟨s, answer⟩ := o
  cases answer with
  | result r => exact iff_of_false (by simp [timed]) (by simp)
  | quits code => rfl
  | broke message => rfl

theorem lookup_of_leaves {name : Text} (h : Leaves name) :
    BuiltinTable.standard.lookup name = some (Builtin.exit "exit".toList) :=
  BuiltinTable.lookup_congr (b := "exit".toList) _ h

/-- A text that begins with a bare word has a command of this name. -/
theorem exists_parse_of_bare (s : State) {text first : Text} {rest : List Text}
    (split : Text.blankSplit text = first :: rest) (bare : Line.Bare first) :
    ∃ command later, s.parse text = command :: later ∧ command.name = first := by
  obtain ⟨command, later, parsed, named, -⟩ :=
    Line.exists_parse_eq_cons s.value? (Text.not_allBlank_of_blankSplit split)
  obtain ⟨others, words⟩ := bare.exists_words_plainPart s.value? split
  rw [words] at named
  exact ⟨command, later, parsed, named⟩

theorem dispatch_eq_quits_iff (s : State) {name : Text} (leaves : Leaves name)
    (arguments : List Text) (cancelled : Bool) (c : Int) :
    (dispatch .standard s name arguments cancelled).2 = .quits c ↔
      leavingCode? (arguments.map Line.unquote) = some c := by
  rw [dispatch, lookup_of_leaves leaves]
  exact Builtin.invoke_exit_eq_quits_iff _ arguments s c

/-- Where the first stage of a pipeline ends the shell, the others are not run. -/
theorem runStagesWith_eq_quits_iff (s : State) {pipeline : Pipeline} {first : Stage}
    {rest : List Stage} (stages : pipeline.stages = first :: rest) (leaves : Leaves first.command)
    (builtin : first.builtin = true) (cancelled : Bool) (c : Int) :
    (runStagesWith .standard s pipeline cancelled).2.1 = .quits c ↔
      leavingCode? (first.arguments.map Line.unquote) = some c := by
  rw [← dispatch_eq_quits_iff s leaves _ cancelled, runStagesWith, stages]
  dsimp only
  rw [if_pos builtin]
  obtain ⟨ran, answer⟩ := dispatch .standard s first.command first.arguments cancelled
  cases answer with
  | result head =>
      dsimp only
      split
      · exact iff_of_false (by simp) (by simp)
      · exact iff_of_false (by simp) (by simp)
  | quits code => rfl
  | broke message => rfl

section
variable {t : BuiltinTable} {s : State} {line first : Text} {rest : List Text}
  (split : Text.blankSplit line = first :: rest) (bare : Line.Bare first)
include split bare

/-- What is left of an operator between spaces begins with the first word of the line. -/
theorem exists_parse_piece {mark sign piece : Text} {more : List Text} {d : Char}
    (spaced : mark = ' ' :: (sign ++ [' '])) (shown : ∀ c ∈ sign, Text.isBlank c = false)
    (member : d ∈ sign) (operator : Line.Operator.ofChar? d ≠ none)
    (cut : Text.pieces mark line = piece :: more) :
    ∃ command later, s.parse (Text.trim piece) = command :: later ∧ command.name = first := by
  have other : first ≠ sign := by
    rintro rfl
    exact operator (bare.operator d member)
  obtain ⟨words, begins⟩ :=
    Text.exists_blankSplit_piece spaced shown (List.ne_nil_of_mem member) cut split other
  rw [← Text.blankSplit_trim] at begins
  exact s.exists_parse_of_bare begins bare

/-- The first command of a pipeline has the first word of the line as its name. -/
theorem exists_pipedCommands_of_bare :
    ∃ command later, s.pipedCommands line = command :: later ∧ command.name = first := by
  obtain ⟨piece, more, cut⟩ : ∃ piece more, Text.pieces Line.spacedPipe line = piece :: more :=
    List.exists_cons_of_ne_nil (Text.piecesFrom_ne_nil Line.spacedPipe 0 line)
  have spaced : Line.spacedPipe = ' ' :: (['|'] ++ [' ']) := rfl
  obtain ⟨command, later, parsed, named⟩ :=
    exists_parse_piece (s := s) split bare spaced (List.forall_mem_singleton.2 rfl)
      List.mem_cons_self (by decide) cut
  refine ⟨command, more.filterMap fun part => (s.parse (Text.trim part)).head?, ?_, named⟩
  rw [pipedCommands, cut, List.filterMap_cons, parsed]
  rfl

/-- The command on the left of a redirection has the first word of the line as its name. -/
theorem exists_redirected_of_bare {r : Line.Redirection} (read : Line.redirection line = .ok r) :
    ∃ command later, s.parse r.command = command :: later ∧ command.name = first := by
  obtain ⟨left, target, cut, trimmed⟩ := Line.redirection_eq_ok read
  obtain ⟨sign, spaced, shown, member⟩ : ∃ sign : Text, r.direction.mark = ' ' :: (sign ++ [' ']) ∧
      (∀ c ∈ sign, Text.isBlank c = false) ∧ r.direction.sign ∈ sign := by
    cases r.direction with
    | input => exact ⟨['<'], rfl, List.forall_mem_singleton.2 rfl, List.mem_cons_self⟩
    | append =>
        have shown : ∀ c ∈ ['>', '>'], Text.isBlank c = false :=
          List.forall_mem_cons.2 ⟨rfl, List.forall_mem_singleton.2 rfl⟩
        exact ⟨['>', '>'], rfl, shown, List.mem_cons_self⟩
    | output => exact ⟨['>'], rfl, List.forall_mem_singleton.2 rfl, List.mem_cons_self⟩
  have operator : Line.Operator.ofChar? r.direction.sign ≠ none := by
    cases r.direction <;> decide
  rw [trimmed]
  exact exists_parse_piece split bare spaced shown member operator cut

/-- The first command of a line has the first word of the line as its name. -/
theorem calls_of_plan {p : Plan} (planned : plan t s line = .ok p) : p.Calls t first := by
  rw [plan] at planned
  cases kind : Line.kind line with
  | pipeline =>
      rw [kind] at planned
      dsimp only at planned
      split at planned
      · cases planned
      · obtain ⟨formed, ofStages, rfl⟩ := map_eq_ok_iff.1 planned
        obtain ⟨command, later, commands, rfl⟩ := exists_pipedCommands_of_bare (s := s) split bare
        have stages := stages_of_ofStages ofStages
        rw [commands, List.map_cons] at stages
        exact .pipeline stages _
  | background text =>
      rw [kind] at planned
      obtain ⟨command, -, rfl⟩ := map_eq_ok_iff.1 planned
      exact .background _ _
  | redirection =>
      rw [kind] at planned
      dsimp only at planned
      split at planned
      · cases planned
      · next r read =>
        obtain ⟨command, later, parsed, rfl⟩ := exists_redirected_of_bare (s := s) split bare read
        rw [firstCommand, parsed] at planned
        cases planned
        exact .command _ _
  | simple =>
      rw [kind] at planned
      obtain ⟨command, later, parsed, rfl⟩ := s.exists_parse_of_bare split bare
      rw [firstCommand, parsed] at planned
      cases planned
      exact .command _ _

end

theorem contains_of_leaves {name : Text} (leaves : Leaves name) :
    BuiltinTable.standard.contains name = true := by
  rw [BuiltinTable.contains, lookup_of_leaves leaves]
  rfl

theorem carryOut_eq_quits_iff (s : State) {first : Text} (leaves : Leaves first) {p : Plan}
    (calls : p.Calls .standard first) (cancelled : Bool) (c : Int) :
    (carryOut .standard s cancelled p).2 = .quits c ↔
      ∃ operands, p.given? = some (first :: operands) ∧ leavingCode? operands = some c := by
  cases calls with
  | background other arguments => exact iff_of_false (by simp [carryOut]) (by simp [Plan.given?])
  | command arguments target? =>
      rw [carryOut, redirect_eq_quits_iff, dispatch_eq_quits_iff s leaves]
      simp [Plan.given?]
  | @pipeline formed arguments later stages target? =>
      have ran := runStagesWith_eq_quits_iff s stages leaves (contains_of_leaves leaves) cancelled c
      have outcome : (carryOut .standard s cancelled (.pipeline formed target?)).2 = .quits c ↔
          (runStagesWith .standard s formed cancelled).2.1 = .quits c := by
        rw [carryOut]
        obtain ⟨after, answer, delivered⟩ := runStagesWith .standard s formed cancelled
        cases delivered with
        | true => exact redirect_eq_quits_iff target? (after, answer) c
        | false => rfl
      rw [outcome, ran]
      simp [Plan.given?, stages]

/-- The shell ends exactly if the words that the first command is given ask for it. -/
theorem runLine_eq_quits_iff (s : State) {line first : Text} {rest : List Text}
    (split : Text.blankSplit line = first :: rest) (leaves : Leaves first) (c : Int) :
    (runLine .standard s line false).2 = .quits c ↔
      ∃ operands, given? .standard (s.recorded line) line = some (first :: operands) ∧
        leavingCode? operands = some c := by
  have shown := Text.not_allBlank_of_blankSplit split
  rw [runLine_of_kind .standard s shown, timed_eq_quits_iff, runKind_eq_plan, given?]
  cases planned : plan .standard (s.recorded line) line with
  | error cause => exact iff_of_false (by simp [failSyntax, fail]) (by simp)
  | ok p =>
      exact carryOut_eq_quits_iff _ leaves (calls_of_plan split leaves.bare planned) false c

/-- Words that ask for a code are given as they stand on the line. -/
theorem given?_of_leavingCode? (t : BuiltinTable) (s : State) {line first : Text}
    {rest : List Text} (split : Text.blankSplit line = first :: rest) (leaves : Leaves first)
    {c : Int} (code : leavingCode? rest = some c) : given? t s line = some (first :: rest) := by
  have plain : ∀ w ∈ first :: rest, ∀ c ∈ w, Line.isOrdinary c = true := by
    refine List.forall_mem_cons.2 ⟨leaves.isOrdinary, ?_⟩
    rcases rest with _ | ⟨word, _ | ⟨other, more⟩⟩
    · simp
    · cases read : Text.readInt 2147483647 word with
      | error cause =>
          rw [leavingCode?, read] at code
          cases code
      | ok value => exact List.forall_mem_singleton.2 (Line.isOrdinary_of_readInt read)
    · cases code
  have ordinary := Line.ordinary_of_blankSplit split plain
  have shown := Text.not_allBlank_of_blankSplit split
  -- Nothing on the line is an operator, a reference or a quote, so it is read word by word.
  obtain ⟨command, later, parsed, named, arguments⟩ := Line.exists_parse_eq_cons s.value? shown
  rw [Line.plainPart_of_no_operator ordinary.operator,
    Line.expand_of_not_mem s.value? (ordinary.not_mem rfl rfl) (ordinary.not_mem rfl rfl),
    Line.words_of_no_quote ordinary.quote, split] at named arguments
  have unquoted : rest.map Line.unquote = rest := by
    refine (List.map_congr_left fun word member => ?_).trans rest.map_id
    have plain : Line.Ordinary word := fun c hc =>
      .inr (plain word (List.mem_cons_of_mem _ member) c hc)
    exact Line.unquote_of_no_quote plain.quote
  have first : s.firstCommand line = .ok command := by
    rw [firstCommand, show s.parse line = command :: later from parsed]
  rw [given?, plan, ordinary.kind shown]
  dsimp only
  rw [first]
  change some (command.name :: command.arguments.map Line.unquote) = _
  rw [named, arguments, List.tail_cons, unquoted]
  rfl

end State

/-- A line that is no request to leave ends the process at once where the shell ends on it. -/
theorem Console.abrupt_readLine_iff (s : State) {line : Text}
    (shown : Text.allBlank line = false) :
    (readLine { state := s } line).abrupt = true ↔
      exitRequest? line = none ∧ ∃ c, (State.runLine .standard s line false).2 = .quits c := by
  rw [readLine, shown, if_neg Bool.false_ne_true]
  cases exitRequest? line with
  | some code => exact iff_of_false (by simp) (by simp)
  | none =>
      dsimp only
      rw [runLine, Session.execute]
      obtain ⟨after, answer⟩ := State.runLine .standard s line false
      cases answer with
      | result r => exact iff_of_false (by simp) (by simp)
      | quits code => exact iff_of_true rfl ⟨rfl, code, rfl⟩
      | broke message => exact iff_of_false (by simp) (by simp)

/-- A request to leave that the console sees on a line, the shell follows with the same code. A line
on which the shell is left otherwise is one where the words given to the command are not those
between blanks: it ends the process at once, and nothing is closed. -/
theorem Console.exitRequest?_agrees (s : State) {line first : Text} {rest : List Text}
    (split : Text.blankSplit line = first :: rest) (leaves : Leaves first) :
    let given := State.given? .standard (s.recorded line) line
    let quits (c : Int) := (State.runLine .standard s line false).2 = .quits c
    (∀ c, exitRequest? line = some c → quits c) ∧
      (∀ c, quits c → (exitRequest? line = some c ↔ given = some (first :: rest))) ∧
      ((readLine { state := s } line).abrupt = true ↔
        (∃ c, quits c) ∧ given ≠ some (first :: rest)) := by
  intro given quits
  have request := exitRequest?_of_leaves split leaves
  have left (c : Int) : quits c ↔ ∃ operands, given = some (first :: operands) ∧
      leavingCode? operands = some c := s.runLine_eq_quits_iff split leaves c
  have plain (c : Int) (code : leavingCode? rest = some c) : given = some (first :: rest) :=
    State.given?_of_leavingCode? _ _ split leaves code
  have followed (c : Int) (code : leavingCode? rest = some c) : quits c :=
    (left c).2 ⟨rest, plain c code, code⟩
  have seen (c : Int) (quit : quits c) (same : given = some (first :: rest)) :
      leavingCode? rest = some c := by
    obtain ⟨operands, words, code⟩ := (left c).1 quit
    rw [same] at words
    cases words
    exact code
  rw [abrupt_readLine_iff s (Text.not_allBlank_of_blankSplit split), request]
  refine ⟨followed, fun c quit => ⟨plain c, seen c quit⟩, ?_⟩
  constructor
  · rintro ⟨unseen, c, quit⟩
    refine ⟨⟨c, quit⟩, fun same => ?_⟩
    rw [seen c quit same] at unseen
    cases unseen
  · rintro ⟨⟨c, quit⟩, other⟩
    refine ⟨?_, c, quit⟩
    cases code : leavingCode? rest with
    | none => rfl
    | some n => exact absurd (plain n code) other

theorem Console.exitRequest?_agrees_quoted :
    let s := State.start { assets := [] } [] (Machine.standard 0 "/home".toList)
    (State.runLine .standard s "Exit +3".toList false).2 = .quits 3 ∧
      (State.runLine .standard s "exit \"3\" | cat".toList false).2 = .quits 3 ∧
      exitRequest? "exit \"3\" | cat".toList ≠ some 3 ∧
      (readLine { state := s } "exit \"3\" | cat".toList).abrupt = true := by
  intro s
  have plain : Text.blankSplit "Exit +3".toList = ["Exit".toList, "+3".toList] := by decide
  obtain ⟨followed, -, -⟩ := exitRequest?_agrees s plain rfl
  have split : Text.blankSplit "exit \"3\" | cat".toList =
    ["exit".toList, "\"3\"".toList, ['|'], "cat".toList] := by decide
  obtain ⟨-, agrees, abrupt⟩ := exitRequest?_agrees s split rfl
  have quits : (State.runLine .standard s "exit \"3\" | cat".toList false).2 = .quits 3 := rfl
  have given : State.given? .standard (s.recorded "exit \"3\" | cat".toList)
    "exit \"3\" | cat".toList = some ["exit".toList, ['3']] := by decide
  rw [given] at agrees abrupt
  refine ⟨followed 3 (by decide), quits, ?_, abrupt.2 ⟨⟨3, quits⟩, by decide⟩⟩
  rw [Ne, agrees 3 quits]
  decide

end CommandShell
