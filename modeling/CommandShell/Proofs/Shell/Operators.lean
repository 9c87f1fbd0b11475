import CommandShell.Proofs.Line.EchoLine
import CommandShell.Proofs.Line.Expansion
import CommandShell.Proofs.Line.Stretches
import CommandShell.Proofs.Shell.Redirection

/-!
What becomes of the operators of a line. The kind of a line is decided on marks between spaces, and
its command is read off its cut at all unquoted operators. The words behind the first operator of
the cut never reach a command, and whether the line is refused for them depends on its kind.
-/
namespace CommandShell

namespace Line

/-- Whether the operators of a line are to be seen in its commands: there is a command behind a
pipe, or the first command keeps a target. -/
def Cut.shows (cut : Cut) : Bool :=
  (laterStretches cut.parts).any (!Text.allBlank ·.rest) ||
    (cut.head.redirections.filter Part.isOutput).getLast?.any Part.isNamed ||
    (cut.head.redirections.filter Part.isInput).getLast?.any Part.isNamed

/-- The direction that a line without input operators is cut at. -/
def outputDirection (line : Text) : Direction :=
  if Text.has Direction.append.mark line then .append else .output

theorem parts_eq_nil_of_blank {cut : Cut} {line : Text} (h : cut.Of line)
    (blank : Text.allBlank line = true) : cut.parts = [] := by
  obtain ⟨first, parts⟩ := cut
  cases parts with
  | nil => rfl
  | cons p rest =>
      have shown := not_allBlank_spelled h.sound
      rw [h.spelled, blank] at shown
      cases shown

theorem not_allBlank_of_shows {cut : Cut} {line : Text} (h : cut.Of line)
    (shows : cut.shows = true) : Text.allBlank line = false := by
  refine Bool.eq_false_iff.2 fun blank => ?_
  have plain := parts_eq_nil_of_blank h blank
  rw [Cut.shows, Cut.head, plain] at shows
  cases shows

theorem not_allBlank_of_kind_background {line command : Text} (h : kind line = .background command) :
    Text.allBlank line = false := by
  have mark : hasBackgroundMark line = true := by
    by_contra plain
    exact kind_ne_background (Bool.eq_false_iff.2 plain) command h
  rw [hasBackgroundMark, Text.endsWith, Text.after?_isSome_iff] at mark
  have inside : '&' ∈ (Text.trimEnd line).reverse := mark.subset (by decide)
  exact Text.not_allBlank_of_mem
    ((Text.prefix_trimEnd line).subset (List.mem_reverse.1 inside)) (by decide)

theorem exists_has_of_kind_redirection {line : Text} (h : kind line = .redirection) :
    ∃ d : Direction, Text.has d.mark line = true := by
  unfold kind at h
  split at h
  · cases h
  · split at h
    · cases h
    · split at h
      · next marked =>
        simp only [Bool.or_eq_true] at marked
        rcases marked with (output | append) | input
        · exact ⟨.output, output⟩
        · exact ⟨.append, append⟩
        · exact ⟨.input, input⟩
      · cases h

section
variable {line : Text} (h : kind line = .redirection) (input : '<' ∉ line)
include h input

theorem has_outputDirection : Text.has (outputDirection line).mark line = true := by
  obtain ⟨d, found⟩ := exists_has_of_kind_redirection h
  unfold outputDirection
  split
  · next append => exact append
  · next none =>
    cases d with
    | input => rw [Text.has_eq_false Direction.input.sign_mem_mark input] at found; cases found
    | append => exact absurd found none
    | output => exact found

theorem not_allBlank_of_kind_redirection : Text.allBlank line = false := by
  have found := (Text.has_iff _ _).1 (has_outputDirection h input)
  refine Text.not_allBlank_of_mem (found.subset (Direction.sign_mem_mark _)) ?_
  cases outputDirection line <;> decide

theorem redirection_eq_cut :
    redirection line = cutRedirection (outputDirection line) line := by
  have none := Text.has_eq_false Direction.input.sign_mem_mark input
  have found := has_outputDirection h input
  unfold outputDirection at found ⊢
  rw [redirection, if_neg (Bool.eq_false_iff.1 none)]
  split
  · rfl
  · next absent => rw [if_neg absent] at found; rw [if_pos found]

theorem two_le_pieces : 2 ≤ (Text.pieces (outputDirection line).mark line).length :=
  (Text.two_le_length_pieces_iff (List.ne_nil_of_mem (Direction.sign_mem_mark _)) line).2
    ((Text.has_iff _ _).1 (has_outputDirection h input))

end

theorem message_malformed_outputDirection (line : Text) :
    (SyntaxError.badRedirection (.malformed (outputDirection line))).message =
      "Invalid output redirection syntax".toList := by
  unfold outputDirection
  split <;> rfl

theorem cutRedirection_of_pieces {d : Direction} {line command target : Text}
    (h : Text.pieces d.mark line = [command, target]) :
    cutRedirection d line =
      if Text.allBlank command || Text.allBlank target then .error (.malformed d)
      else .ok ⟨Text.trim command, Text.trim target, d⟩ := by
  have empty (t : Text) : (Text.trim t).isEmpty = Text.allBlank t := by
    rw [Bool.eq_iff_iff, List.isEmpty_iff, Text.trim_eq_nil_iff]
  simp [cutRedirection, h, empty]

theorem cutRedirection_of_more {d : Direction} {line : Text}
    (h : 2 < (Text.pieces d.mark line).length) :
    cutRedirection d line = .error (.malformed d) := by
  unfold cutRedirection
  split
  · next command target two =>
    have count := congrArg List.length two
    rw [List.length_map] at count
    simp [count] at h
  · rfl

/-- The operators that are to be seen in the commands of a line are those that its commands show. -/
theorem shows_eq_of_parse {value? : Text → Option Text} {cut : Cut} {line : Text}
    (of : cut.Of line) {command : Command} {later : List Command}
    (parsed : parse value? line = command :: later) :
    cut.shows =
      (!later.isEmpty || command.redirects.output.isSome || command.redirects.input.isSome) := by
  rw [parse_eq_cons value? of (not_allBlank_of_parse parsed)] at parsed
  obtain ⟨rfl, rfl⟩ := List.cons.inj parsed
  have described := cut.describes_head value?
  have behind : (laterStretches cut.parts).any (!Text.allBlank ·.rest) =
      !(chain (laterStretches cut.parts)).isEmpty := by
    rw [Bool.eq_iff_iff, Bool.not_eq_true', List.isEmpty_eq_false_iff, Ne,
      chain_laterStretches_eq_nil_iff of.sound]
    simp
  rw [Cut.shows, behind, described.output, described.input, isSome_bind_target?,
    isSome_bind_target?, List.isEmpty_map]

/-- The words before the first operator are all words of a line only if it has no operator. -/
theorem words_first_eq_iff (value? : Text → Option Text) {cut : Cut} {line : Text}
    (h : cut.Of line) :
    words (expand value? cut.first) = words (expand value? line) ↔ cut.parts = [] := by
  obtain ⟨first, parts⟩ := cut
  have spelled := h.spelled
  cases parts with
  | nil => simp [show first = line from spelled]
  | cons p rest =>
      refine iff_of_false (fun same => ?_) (by simp)
      obtain ⟨-, -, spelling, -⟩ := h.sound
      obtain ⟨c, sign, more, hc, written⟩ := spelling.exists_cons
      have whole : line = first ++ c :: (more ++ Cut.spelled p.after rest) := by
        rw [← spelled, Cut.spelled, written, List.cons_append]
      have shown := not_isBlank_of_ofChar? hc
      -- The expanded line has the operator once more than what comes before it.
      have count : (words (expand value? first)).flatten.count c =
          (words (expand value? line)).flatten.count c := congrArg (·.flatten.count c) same
      rw [count_words shown, count_words shown, whole,
        expand_append_cons (separates_of_ofChar? hc), List.count_append,
        List.count_cons_self] at count
      omega

end Line

namespace State

/-- The state when a line has entered its history. -/
def recorded (s : State) (line : Text) : State :=
  s.withEnvironment (s.environment.addHistory line)

/-- Runs a command of some words, the first of which is its name. -/
def dispatchWords (t : BuiltinTable) (s : State) (words : List Text) (cancelled : Bool) :
    State × Answer :=
  dispatch t s (words.headD []) words.tail cancelled

/-- Starts a command of some words in the background. -/
def startWords (s : State) (words : List Text) : State × Answer :=
  let (s, result) := s.executeBackground (words.headD []) words.tail
  (s, .result result)

theorem value?_recorded (s : State) (line : Text) : (s.recorded line).value? = s.value? := by
  obtain ⟨history, same⟩ := s.exists_withHistory_addHistory line
  rw [recorded, same]
  rfl

theorem runLine_of_kind (t : BuiltinTable) (s : State) {line : Text}
    (shown : Text.allBlank line = false) (cancelled : Bool) :
    runLine t s line cancelled =
      timed s.machine.clock (runKind t (s.recorded line) line cancelled) :=
  runLine_of_shown t s shown cancelled

theorem timed_failSyntax (s : State) (line : Text) (cause : SyntaxError) :
    timed s.machine.clock ((s.recorded line).failSyntax cause) =
      (s.recorded line, .result (Result.failure cause.message 1)) := by
  rw [failSyntax, fail, timed]
  have same : (s.recorded line).machine.clock - s.machine.clock = 0 := Nat.sub_self _
  rw [same]
  rfl

theorem exists_parse_recorded (s : State) (line : Text) {part : Text} {cut : Line.Cut}
    (of : cut.Of part) (shown : Text.allBlank part = false) :
    ∃ command, (s.recorded line).parse part =
        command :: (Line.chain (Line.laterStretches cut.parts)).map
          (Line.Stretch.command s.value?) ∧
      cut.head.Describes s.value? command :=
  ⟨_, by rw [parse, value?_recorded, Line.parse_eq_cons s.value? of shown],
    cut.describes_head s.value?⟩

theorem dispatch_of_describes {value? : Text → Option Text} {cut : Line.Cut}
    {command : Line.Command} (h : cut.head.Describes value? command) (t : BuiltinTable) (s : State)
    (cancelled : Bool) :
    dispatch t s command.name command.arguments cancelled =
      dispatchWords t s (Line.words (Line.expand value? cut.first)) cancelled := by
  rw [h.name, h.arguments]
  rfl

theorem executeBackground_cases (s : State) (command : Text) (arguments : List Text) :
    let r := (s.executeBackground command arguments).2
    r = (ShellError.notRecognized command).result ∨
      (∃ cause, r = (ShellError.notStarted cause).result) ∨ r.success = true := by
  unfold executeBackground begin
  cases s.resolveCommand command with
  | none => exact .inl rfl
  | some path =>
      dsimp only
      split
      · next error failed =>
        split at failed
        · next cause _ =>
          cases failed
          exact .inr (.inl ⟨cause, rfl⟩)
        · cases failed
      · exact .inr (.inr rfl)

/-- No command is answered with the refusal once it is to be started. -/
theorem timed_startWords_ne (s s' : State) (words : List Text) (start : Nat) :
    timed start (s.startWords words) ≠
      (s', .result (Result.failure (SyntaxError.message .backgroundCombined) 1)) := by
  intro same
  have answer : (s.executeBackground (words.headD []) words.tail).2.withElapsed _ =
      Result.failure (SyntaxError.message .backgroundCombined) 1 :=
    Answer.result.inj (congrArg Prod.snd same)
  rcases s.executeBackground_cases (words.headD []) words.tail with
    unknown | ⟨cause, unspawned⟩ | success
  · rw [unknown] at answer
    have quote : some '\'' = (SyntaxError.message .backgroundCombined).head? :=
      congrArg (·.error.head?) answer
    revert quote
    decide
  · rw [unspawned] at answer
    cases congrArg Result.code answer
  · have failed : _ = false := congrArg Result.success answer
    cases success.symm.trans failed

/-- A line is refused in the background exactly if its operators are to be seen in its commands. -/
theorem runBackground_eq (s : State) {line part : Text} {cut : Line.Cut} (of : cut.Of part)
    (shown : Text.allBlank part = false) :
    (s.recorded line).runBackground part =
      if cut.shows then (s.recorded line).failSyntax .backgroundCombined
      else (s.recorded line).startWords (Line.words (Line.expand s.value? cut.first)) := by
  obtain ⟨command, parsed, describes⟩ := s.exists_parse_recorded line of shown
  rw [runBackground, parsed, Line.shows_eq_of_parse of parsed]
  cases (Line.chain (Line.laterStretches cut.parts)).map (Line.Stretch.command s.value?) with
  | nil =>
      rw [List.isEmpty_nil, Bool.not_true, Bool.false_or]
      dsimp only
      rw [describes.name, describes.arguments]
      rfl
  | cons next more => rfl

/-- A background line is refused exactly if its operators are to be seen in its commands, and then
it only enters the history. Any other line with a command, operators or not, has the words before
its first operator started in the background. -/
theorem background_refused_iff (t : BuiltinTable) (s : State) {line command : Text}
    (kind : Line.kind line = .background command) {cut : Line.Cut} (of : cut.Of command)
    (cancelled : Bool) :
    (runLine t s line cancelled = (s.recorded line, .result (Result.failure
        "Background execution cannot be combined with pipes or redirection".toList 1)) ↔
      cut.shows = true) ∧
    (Text.allBlank command = false → cut.shows = false →
      runLine t s line cancelled = timed s.machine.clock
        ((s.recorded line).startWords (Line.words (Line.expand s.value? cut.first)))) := by
  have ran : runLine t s line cancelled =
      timed s.machine.clock ((s.recorded line).runBackground command) := by
    rw [runLine_of_kind t s (Line.not_allBlank_of_kind_background kind), runKind, kind]
  have started (shown : Text.allBlank command = false) (plain : cut.shows = false) :
      runLine t s line cancelled = timed s.machine.clock
        ((s.recorded line).startWords (Line.words (Line.expand s.value? cut.first))) := by
    rw [ran, runBackground_eq s of shown, plain, if_neg Bool.false_ne_true]
  refine ⟨⟨?_, ?_⟩, started⟩
  · intro refused
    by_contra plain
    rw [Bool.not_eq_true] at plain
    cases blank : Text.allBlank command with
    | false => exact timed_startWords_ne _ _ _ _ ((started blank plain).symm.trans refused)
    | true =>
        -- A line of only its mark fails for another reason.
        rw [ran, runBackground, parse, (Line.parse_eq_nil_iff _ _).2 blank] at refused
        dsimp only at refused
        rw [timed_failSyntax] at refused
        have message := congrArg Result.error (Answer.result.inj (congrArg Prod.snd refused))
        revert message
        decide
  · intro shows
    rw [ran, runBackground_eq s of (Line.not_allBlank_of_shows of shows), if_pos shows,
      timed_failSyntax]
    rfl

theorem background_refused_unnamed :
    let s := State.start { assets := [] } [] (Machine.standard 0 "/home".toList)
    runLine .standard s "sleep 5>out &".toList false =
      (s.recorded "sleep 5>out &".toList, .result (Result.failure
        "Background execution cannot be combined with pipes or redirection".toList 1)) ∧
    runLine .standard s "sleep 5 > &".toList false =
      timed s.machine.clock
        ((s.recorded "sleep 5 > &".toList).startWords ["sleep".toList, ['5']]) := by
  intro s
  constructor
  · have kind : Line.kind "sleep 5>out &".toList = .background "sleep 5>out".toList := by decide
    have cut := Line.Cut.of_ofSegments "sleep 5>out".toList
    exact (background_refused_iff .standard s kind cut false).1.2 (by decide)
  · have kind : Line.kind "sleep 5 > &".toList = .background "sleep 5 >".toList := by decide
    have cut := Line.Cut.of_ofSegments "sleep 5 >".toList
    have started := (background_refused_iff .standard s kind cut false).2 (by decide) (by decide)
    have first : (Line.Cut.ofSegments (Line.segments "sleep 5 >".toList)).first =
      "sleep 5 ".toList := by decide
    have words : Line.words "sleep 5 ".toList = ["sleep".toList, ['5']] := by decide
    rw [first, Line.expand_of_not_mem s.value? (by decide) (by decide), words] at started
    exact started

/-- The words of a simple line that reach a command are those before its first operator, and these
are all of its words exactly if it has no operator. -/
theorem simple_keeps_words_iff (t : BuiltinTable) (s : State) {line : Text}
    (kind : Line.kind line = .simple) (shown : Text.allBlank line = false) {cut : Line.Cut}
    (of : cut.Of line) (cancelled : Bool) :
    let kept := Line.words (Line.expand s.value? cut.first)
    let typed := Line.words (Line.expand s.value? line)
    runLine t s line cancelled =
        timed s.machine.clock (dispatchWords t (s.recorded line) kept cancelled) ∧
      (kept = typed ↔ cut.parts = []) := by
  intro kept typed
  refine ⟨?_, Line.words_first_eq_iff s.value? of⟩
  obtain ⟨command, parsed, describes⟩ := s.exists_parse_recorded line of shown
  rw [runLine_of_kind t s shown, runKind, kind]
  dsimp only
  rw [runSimple, parsed]
  dsimp only
  rw [dispatch_of_describes describes]

theorem simple_keeps_words_unspaced :
    let s := State.start { assets := [] } [] (Machine.standard 0 "/home".toList)
    runLine .standard s "echo a>b".toList false =
      (s.recorded "echo a>b".toList, .result (Result.ok "a\n".toList)) ∧
    Line.words (Line.expand s.value? "echo a>b".toList) = ["echo".toList, "a>b".toList] := by
  intro s
  have cut := Line.Cut.of_ofSegments "echo a>b".toList
  obtain ⟨ran, -⟩ := simple_keeps_words_iff .standard s (by decide) (by decide) cut false
  have first : (Line.Cut.ofSegments (Line.segments "echo a>b".toList)).first =
    "echo a".toList := by decide
  have words : Line.words "echo a".toList = [Line.echoName, ['a']] := by decide
  rw [first, Line.expand_of_not_mem s.value? (by decide) (by decide), words] at ran
  constructor
  · rw [ran]
    rfl
  · rw [Line.expand_of_not_mem s.value? (by decide) (by decide)]
    decide

theorem runRedirected_of_error (t : BuiltinTable) (s : State) {line : Text}
    {cause : Line.RedirectionError} (h : Line.redirection line = .error cause) (cancelled : Bool) :
    runRedirected t s line cancelled = s.failSyntax (.badRedirection cause) := by
  rw [runRedirected, h]

/-- A line that can be cut at a redirection runs the words before the first operator of its left
side, whatever that operator is. -/
theorem runRedirected_of_ok (t : BuiltinTable) (s : State) {line : Text} {r : Line.Redirection}
    (h : Line.redirection line = .ok r) (shown : Text.allBlank r.command = false) {cut : Line.Cut}
    (of : cut.Of r.command) (cancelled : Bool) :
    runRedirected t (s.recorded line) line cancelled =
      redirect (r.direction.target? r.target)
        (dispatchWords t (s.recorded line)
          (Line.words (Line.expand s.value? cut.first)) cancelled) := by
  obtain ⟨command, parsed, describes⟩ := s.exists_parse_recorded line of shown
  rw [runRedirected, h]
  dsimp only
  rw [parsed]
  dsimp only
  rw [dispatch_of_describes describes]
  cases r.direction <;> rfl

/-- What a line with output operators between spaces comes to. It is cut at its appending ones if it
has any, and else at the others. If there are two of these, or nothing on one side, it is refused
and only enters the history. Otherwise the words before the first operator on the left are run, and
their output goes to what is on the right, whatever other operators there are. -/
theorem output_redirection_cases (t : BuiltinTable) (s : State) {line : Text}
    (kind : Line.kind line = .redirection) (input : '<' ∉ line) (cancelled : Bool) :
    let direction := Line.outputDirection line
    let refused := (s.recorded line,
      Answer.result (Result.failure "Invalid output redirection syntax".toList 1))
    (Text.Twice direction.mark line → runLine t s line cancelled = refused) ∧
    (¬Text.Twice direction.mark line →
      ∃ command target, Text.pieces direction.mark line = [command, target] ∧
        (Text.allBlank command = true ∨ Text.allBlank target = true →
          runLine t s line cancelled = refused) ∧
        (Text.allBlank command = false → Text.allBlank target = false →
          ∀ cut : Line.Cut, cut.Of (Text.trim command) →
            runLine t s line cancelled = timed s.machine.clock
              (redirect (direction.target? (Text.trim target))
                (dispatchWords t (s.recorded line)
                  (Line.words (Line.expand s.value? cut.first)) cancelled)))) := by
  intro direction refused
  have ran : runLine t s line cancelled =
      timed s.machine.clock (runRedirected t (s.recorded line) line cancelled) := by
    rw [runLine_of_kind t s (Line.not_allBlank_of_kind_redirection kind input), runKind, kind]
  have read : Line.redirection line = Line.cutRedirection direction line :=
    Line.redirection_eq_cut kind input
  have malformed (cut : Line.cutRedirection direction line = .error (.malformed direction)) :
      runLine t s line cancelled = refused := by
    rw [ran, runRedirected_of_error t _ (read.trans cut), timed_failSyntax,
      Line.message_malformed_outputDirection]
  have nonempty : direction.mark ≠ [] := List.ne_nil_of_mem (Line.Direction.sign_mem_mark _)
  constructor
  · intro twice
    apply malformed
    exact Line.cutRedirection_of_more ((Text.two_lt_length_pieces_iff nonempty line).2 twice)
  · intro once
    rw [← Text.two_lt_length_pieces_iff nonempty] at once
    have least : 2 ≤ (Text.pieces direction.mark line).length := Line.two_le_pieces kind input
    obtain ⟨command, target, pieces⟩ := List.length_eq_two.1 (Nat.le_antisymm (not_lt.1 once) least)
    have cut := Line.cutRedirection_of_pieces pieces
    refine ⟨command, target, pieces, ?_, ?_⟩
    · intro blank
      apply malformed
      rw [cut, if_pos (by simpa using blank)]
    · intro left right part of
      rw [left, right, Bool.or_self, if_neg Bool.false_ne_true] at cut
      rw [← Text.allBlank_trim] at left
      rw [ran, runRedirected_of_ok t s (read.trans cut) left of]

theorem output_redirection_mixed :
    let s := State.start { assets := [] } [] (Machine.standard 0 "/home".toList)
    runLine .standard s "echo a > b > c".toList false =
      (s.recorded "echo a > b > c".toList,
        .result (Result.failure "Invalid output redirection syntax".toList 1)) ∧
    runLine .standard s "echo hi > a >> b".toList false =
      timed s.machine.clock (redirect (some (['b'], true))
        (s.recorded "echo hi > a >> b".toList, .result (Result.ok "hi\n".toList))) := by
  intro s
  constructor
  · refine (output_redirection_cases .standard s (by decide) (by decide) false).1 ?_
    exact ⟨"echo a".toList, ['b'], ['c'], by decide⟩
  · have other : ¬Text.Twice (Line.outputDirection "echo hi > a >> b".toList).mark
        "echo hi > a >> b".toList := by
      rw [← Text.two_lt_length_pieces_iff (by decide)]
      decide
    obtain ⟨command, target, pieces, -, ran⟩ :=
      (output_redirection_cases .standard s (by decide) (by decide) false).2 other
    obtain ⟨rfl, rfl⟩ : command = "echo hi > a".toList ∧ target = ['b'] := by
      have same : Text.pieces Line.Direction.append.mark "echo hi > a >> b".toList =
        ["echo hi > a".toList, ['b']] := by decide
      simpa using pieces.symm.trans same
    have cut := Line.Cut.of_ofSegments (Text.trim "echo hi > a".toList)
    have ran := ran (by decide) (by decide) _ cut
    have first : (Line.Cut.ofSegments (Line.segments (Text.trim "echo hi > a".toList))).first =
      "echo hi ".toList := by decide
    have words : Line.words "echo hi ".toList = [Line.echoName, "hi".toList] := by decide
    rw [first, Line.expand_of_not_mem s.value? (by decide) (by decide), words] at ran
    exact ran

end State

end CommandShell
