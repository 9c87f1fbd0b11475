import CommandShell.Machine.Standard
import CommandShell.Proofs.Line.EchoLine
import CommandShell.Proofs.Shell.Started
import CommandShell.Shell.Session

/-!
What `echo` answers on quoted words.

They are answered as they are exactly if none of them holds an operator between spaces: a pipe fails
or starts a process, an output redirection swallows the output, and an input redirection takes the
operator and what follows it from the line.
-/
namespace CommandShell

/-- What `echo` says on some words. -/
def Builtin.echoed (words : List Text) : Text :=
  let switches := words.takeWhile (· == Builtin.noNewline)
  let text := Text.unwords ((words.drop switches.length).map Line.unquote)
  if switches.isEmpty then Text.line text else text

theorem Builtin.echoed_quoted {xs : List Text} (hxs : ∀ x ∈ xs, x.getLast? ≠ some '\\') :
    echoed (xs.map Line.quoted) = Text.line (Text.unwords xs) := by
  have switches : (xs.map Line.quoted).takeWhile (· == noNewline) = [] := by
    cases xs with
    | nil => rfl
    | cons x xs => simp [Line.quoted, noNewline]
  have unquoted := Line.map_unquote_quoted hxs
  simp only [echoed, switches, List.length_nil, List.drop_zero, unquoted, List.isEmpty_nil, if_pos]

theorem count_unwords {c : Char} (h : c ≠ ' ') (words : List Text) :
    (Text.unwords words).count c = words.flatten.count c := by
  induction words with
  | nil => rfl
  | cons word rest ih =>
      cases rest with
      | nil => simp [Text.unwords, List.intercalate]
      | cons next rest =>
          rw [Text.unwords, Text.intercalate_cons _ _ (by simp), List.append_assoc,
            List.count_append, List.singleton_append, List.count_cons_of_ne h.symm,
            List.flatten_cons, List.count_append]
          exact congrArg _ ih

theorem count_flatten_unquote (c : Char) (words : List Text) :
    (words.map Line.unquote).flatten.count c ≤ words.flatten.count c := by
  induction words with
  | nil => exact Nat.le_refl 0
  | cons word rest ih =>
      simp only [List.map_cons, List.flatten_cons, List.count_append]
      exact Nat.add_le_add ((Line.sublist_unquote word).count_le c) ih

/-- Whatever `echo` says, it is some of the characters of its words, spaces and newlines apart. -/
theorem Builtin.count_echoed {c : Char} (hs : c ≠ ' ') (hn : c ≠ '\n') (words : List Text) :
    (echoed words).count c ≤ words.flatten.count c := by
  have dropped (n : Nat) : (words.drop n).flatten.count c ≤ words.flatten.count c := by
    have split := congrArg (fun l => l.flatten.count c) (List.take_append_drop n words)
    simp only [List.flatten_append, List.count_append] at split
    omega
  have said := count_flatten_unquote c
    (words.drop (words.takeWhile (· == noNewline)).length)
  have bound := Nat.le_trans said (dropped _)
  unfold echoed
  dsimp only
  split
  · rw [Text.line, List.count_append, count_unwords hs, List.count_singleton]
    simpa [Ne.symm hn] using bound
  · rw [count_unwords hs]
    exact bound

namespace State

/-- An outcome that is a success with some output and leaves the machine and the supervision as they
were: no file has changed and no process has been started. -/
def OnlyPrints (s : State) (output : Text) (outcome : State × Answer) : Prop :=
  ∃ r, outcome.2 = .result r ∧ r.success = true ∧ r.output = output ∧
    outcome.1.machine = s.machine ∧ outcome.1.supervision = s.supervision

theorem not_onlyPrints_fail (s s' : State) (output : Text) (error : ShellError) :
    ¬s.OnlyPrints output (s'.fail error) := by
  rintro ⟨r, answer, success, -⟩
  cases answer
  cases success

theorem onlyPrints_timed_iff (s : State) (output : Text) (start : Nat) (outcome : State × Answer) :
    s.OnlyPrints output (timed start outcome) ↔ s.OnlyPrints output outcome := by
  obtain ⟨s', answer⟩ := outcome
  cases answer with
  | result r =>
      constructor
      · rintro ⟨_, ⟨⟩, success, printed, same⟩
        exact ⟨r, rfl, success, printed, same⟩
      · rintro ⟨_, ⟨⟩, success, printed, same⟩
        exact ⟨_, rfl, success, printed, same⟩
  | quits code => rfl
  | broke message => rfl

/-- A built-in command before other stages: they run if it succeeds, on its output. -/
theorem runStagesWith_of_builtin {t : BuiltinTable} {s s' : State} {pipeline : Pipeline}
    {first : Stage} {rest : List Stage} {cancelled : Bool} {head : Result}
    (stages : pipeline.stages = first :: rest) (builtin : first.builtin = true)
    (answered : dispatch t s first.command first.arguments cancelled = (s', .result head)) :
    runStagesWith t s pipeline cancelled =
      if head.success then
        ((s'.runStages rest head.output cancelled).1,
          .result (s'.runStages rest head.output cancelled).2, true)
      else (s', .result head, false) := by
  rw [runStagesWith]
  split
  · next leading others split =>
    obtain ⟨rfl, rfl⟩ := List.cons.inj (split.symm.trans stages)
    rw [if_pos builtin, answered]
  · next empty =>
    rw [empty] at stages
    cases stages

section Echo
variable {t : BuiltinTable}
  (table : t.lookup Line.echoName = some (Builtin.echo Line.echoName))
include table

theorem dispatch_echo (s : State) (words : List Text) (cancelled : Bool) :
    dispatch t s Line.echoName words cancelled =
      (s, .result (Result.ok (Builtin.echoed words))) := by
  have rest : words.dropWhile (· == Builtin.noNewline) =
      words.drop (words.takeWhile (· == Builtin.noNewline)).length :=
    List.drop_left.symm.trans (congrArg (List.drop _) List.takeWhile_append_dropWhile)
  rw [dispatch, table]
  dsimp only
  rw [Builtin.invoke, Builtin.run_echo, rest]
  rfl

theorem contains_echo : t.contains Line.echoName = true := by
  rw [BuiltinTable.contains, table]
  rfl

theorem runSimple_echo (s : State) {xs : List Text} (hxs : ∀ x ∈ xs, x.getLast? ≠ some '\\')
    (hd : ∀ x ∈ xs, '$' ∉ x) (hp : ∀ x ∈ xs, '%' ∉ x) (cancelled : Bool) :
    runSimple t s (Line.echoName ++ Line.quotedAll xs) cancelled =
      (s, .result (Result.ok (Text.line (Text.unwords xs)))) := by
  obtain ⟨command, later, parsed, named, arguments⟩ :=
    Line.bare_echoName.exists_parse_quotedAll s.value? hxs hd hp
  rw [runSimple, State.parse, parsed]
  dsimp only
  rw [named, arguments, dispatch_echo table, Builtin.echoed_quoted hxs]

theorem runStagesWith_echo {s : State} {pipeline : Pipeline} (first : Stage) {rest : List Stage}
    (stages : pipeline.stages = first :: rest) (builtin : first.builtin = true)
    (named : first.command = Line.echoName) (cancelled : Bool) :
    runStagesWith t s pipeline cancelled =
      ((s.runStages rest (Builtin.echoed first.arguments) cancelled).1,
        .result (s.runStages rest (Builtin.echoed first.arguments) cancelled).2, true) := by
  have answered := dispatch_echo table s first.arguments cancelled
  rw [← named] at answered
  exact runStagesWith_of_builtin stages builtin answered

end Echo

theorem stages_of_ofStages {stages : List Stage} {pipeline : Pipeline}
    (h : Pipeline.ofStages stages = .ok pipeline) : pipeline.stages = stages := by
  unfold Pipeline.ofStages at h
  split at h <;> cases h
  rfl

/-- Redirecting changes no supervision, and it keeps a success from printing anything. -/
theorem onlyPrints_redirect {s s' : State} {output : Text} {target? : Option (Text × Bool)}
    {r : Result} (h : s.OnlyPrints output (redirect target? (s', .result r))) :
    r.success = true ∧ s'.supervision = s.supervision ∧
      (target? = none → r.output = output) ∧ (target?.isSome = true → output = []) := by
  cases target? with
  | none =>
      obtain ⟨_, ⟨⟩, success, printed, -, supervision⟩ := h
      exact ⟨success, supervision, fun _ => printed, nofun⟩
  | some target =>
      cases success : r.success with
      | false =>
          simp only [redirect, success] at h
          obtain ⟨_, ⟨⟩, succeeded, -⟩ := h
          rw [success] at succeeded
          cases succeeded
      | true =>
          simp only [redirect, success, if_true, deliver] at h
          split at h
          · obtain ⟨_, ⟨⟩, -, printed, -, supervision⟩ := h
            exact ⟨rfl, supervision, nofun, fun _ => printed.symm⟩
          · exact absurd h (not_onlyPrints_fail s _ output _)

section Marked
variable {t : BuiltinTable}
  (table : t.lookup Line.echoName = some (Builtin.echo Line.echoName))
  {s : State} {part : Text} (hd : '$' ∉ part) (hp : '%' ∉ part)
include table hd hp

/-- A line cut at a redirection, quoted or not, does not print all that is on it. -/
theorem not_onlyPrints_runRedirected {output : Text} (nonempty : output ≠ [])
    (count : output.count '<' = part.count '<') (cancelled : Bool) :
    ¬s.OnlyPrints output
      (runRedirected t s (Line.echoName ++ ' ' :: '"' :: part) cancelled) := by
  intro h
  unfold runRedirected at h
  split at h
  · exact not_onlyPrints_fail s s output _ h
  · next r cut =>
    obtain ⟨command, target, pieces, trimmed⟩ := Line.redirection_eq_ok cut
    obtain ⟨piece, later, first, _, inner, outer, parsed, named, bound⟩ :=
      Line.exists_parse_first_piece s.value? (Line.mark_mem_operatorMarks r.direction) hd hp
    rw [outer, List.cons.injEq] at pieces
    obtain ⟨rfl, rfl⟩ := pieces
    rw [trimmed, State.parse, parsed] at h
    dsimp only at h
    rw [named, dispatch_echo table] at h
    obtain ⟨-, -, printed, swallowed⟩ := onlyPrints_redirect h
    cases direction : r.direction with
    | append | output =>
        rw [direction] at swallowed
        exact nonempty (swallowed rfl)
    | input =>
        rw [direction] at printed inner
        -- The operator itself is on the line and not among the words that are printed.
        have whole := Text.eq_append_of_pieces (by decide) inner
        have total := congrArg (List.count '<') whole
        rw [List.count_append, List.count_append,
          show Line.Direction.input.mark.count '<' = 1 by decide] at total
        have said := Builtin.count_echoed (c := '<') (by decide) (by decide) first.arguments
        rw [show Builtin.echoed first.arguments = output from printed rfl, count] at said
        omega

/-- A line cut at a pipe fails or starts a process. -/
theorem not_onlyPrints_runPiped (output : Text) (cancelled : Bool) :
    ¬s.OnlyPrints output (runPiped t s (Line.echoName ++ ' ' :: '"' :: part) cancelled) := by
  obtain ⟨piece, later, first, _, -, outer, parsed, named, -⟩ :=
    Line.exists_parse_first_piece s.value? (by decide : Line.spacedPipe ∈ Line.operatorMarks) hd hp
  obtain ⟨others, commands⟩ : ∃ others,
      s.pipedCommands (Line.echoName ++ ' ' :: '"' :: part) = first :: others := by
    refine ⟨later.filterMap fun part => (s.parse (Text.trim part)).head?, ?_⟩
    rw [pipedCommands, outer, List.filterMap_cons_some]
    rw [State.parse, parsed]
    rfl
  intro h
  unfold runPiped at h
  split at h
  · exact not_onlyPrints_fail s s output _ h
  · dsimp only at h
    split at h
    · exact not_onlyPrints_fail s s output _ h
    · next pipeline formed =>
      rw [commands] at formed
      rw [runStagesWith_echo table (stageOf t first) (stages_of_ofStages formed)
        (by rw [stageOf, named, contains_echo table]) named] at h
      obtain ⟨success, same, -⟩ := onlyPrints_redirect h
      obtain ⟨nonempty, count⟩ := startedCount_runStages success
      have started : 0 < (others.map (stageOf t)).length := List.length_pos_iff.2 nonempty
      rw [startedCount, startedCount, same] at count
      omega

end Marked

theorem onlyPrints_of_unmarked {t : BuiltinTable}
    (table : t.lookup Line.echoName = some (Builtin.echo Line.echoName)) (s : State)
    {xs : List Text} (hxs : ∀ x ∈ xs, x.getLast? ≠ some '\\') (hd : ∀ x ∈ xs, '$' ∉ x)
    (hp : ∀ x ∈ xs, '%' ∉ x) (cancelled : Bool)
    (unmarked : ∀ mark ∈ Line.operatorMarks, ∀ x ∈ xs, ¬mark <:+: x) :
    s.OnlyPrints (Text.line (Text.unwords xs))
      (runKind t s (Line.echoName ++ Line.quotedAll xs) cancelled) := by
  rw [runKind, Line.kind_echo xs unmarked]
  dsimp only
  rw [runSimple_echo table s hxs hd hp]
  exact ⟨_, rfl, rfl, rfl, rfl, rfl⟩

theorem not_onlyPrints_of_marked {t : BuiltinTable}
    (table : t.lookup Line.echoName = some (Builtin.echo Line.echoName)) (s : State)
    {xs : List Text} (hd : ∀ x ∈ xs, '$' ∉ x) (hp : ∀ x ∈ xs, '%' ∉ x) (cancelled : Bool)
    {mark x : Text} (hm : mark ∈ Line.operatorMarks) (hx : x ∈ xs) (occurs : mark <:+: x) :
    ¬s.OnlyPrints (Text.line (Text.unwords xs))
      (runKind t s (Line.echoName ++ Line.quotedAll xs) cancelled) := by
  intro h
  have marked := (Line.has_echo_iff hm xs).2 ⟨x, hx, occurs⟩
  have dollar := Line.not_mem_quotedAll (by decide) (by decide) (by decide) hd
  have percent := Line.not_mem_quotedAll (by decide) (by decide) (by decide) hp
  have count := Line.count_quotedAll (c := '<') (by decide) (by decide) (by decide) xs
  have foreground := Line.hasBackgroundMark_echo xs
  have expected : (Text.line (Text.unwords xs)).count '<' = xs.flatten.count '<' := by
    rw [Text.line, List.count_append, count_unwords (by decide)]
    rfl
  obtain ⟨part, spelled⟩ : ∃ part, Line.quotedAll xs = ' ' :: '"' :: part := by
    obtain ⟨y, ys, rfl⟩ := List.exists_cons_of_ne_nil (List.ne_nil_of_mem hx)
    exact ⟨_, rfl⟩
  rw [spelled] at h marked dollar percent count foreground
  rw [List.count_cons_of_ne (by decide), List.count_cons_of_ne (by decide)] at count
  simp only [List.mem_cons, not_or] at dollar percent
  unfold runKind at h
  split at h
  · exact not_onlyPrints_runPiped table dollar.2.2 percent.2.2 _ cancelled h
  · next command kind => exact Line.kind_ne_background foreground command kind
  · exact not_onlyPrints_runRedirected table dollar.2.2 percent.2.2 (by simp [Text.line])
      (expected.trans count.symm) cancelled h
  · next kind =>
    rw [Line.not_has_of_kind_simple kind hm] at marked
    cases marked

/-- In every state and with every table in which `echo` is the built-in one: a line of quoted words,
none ending in a backslash and none holding a reference, is answered with those words and does
nothing else exactly if no word holds an operator between spaces. -/
theorem echo_onlyPrints_iff {t : BuiltinTable}
    (table : t.lookup Line.echoName = some (Builtin.echo Line.echoName)) (s : State)
    (xs : List Text) (hxs : ∀ x ∈ xs, x.getLast? ≠ some '\\') (hd : ∀ x ∈ xs, '$' ∉ x)
    (hp : ∀ x ∈ xs, '%' ∉ x) (cancelled : Bool) :
    s.OnlyPrints (Text.line (Text.unwords xs))
        (runLine t s (Line.echoName ++ Line.quotedAll xs) cancelled) ↔
      ∀ x ∈ xs, ∀ mark ∈ Line.operatorMarks, Text.has mark x = false := by
  have shown := Line.bare_echoName.allBlank_append (Line.quotedAll xs)
  rw [runLine, if_neg (by simp [shown]), onlyPrints_timed_iff]
  constructor
  · intro h x hx mark hm
    by_contra found
    have occurs := (Text.has_iff mark x).1 (Bool.not_eq_false _ ▸ found)
    exact not_onlyPrints_of_marked table _ hd hp cancelled hm hx occurs h
  · intro absent
    refine onlyPrints_of_unmarked table _ hxs hd hp cancelled fun mark hm x hx occurs => ?_
    have found := (Text.has_iff mark x).2 occurs
    rw [absent x hx mark hm] at found
    cases found

theorem lookup_echoName :
    BuiltinTable.standard.lookup Line.echoName = some (Builtin.echo Line.echoName) := rfl

theorem echo_onlyPrints_standard :
    let s := State.start { assets := [] } [] (Machine.standard 0 "/home".toList)
    s.OnlyPrints "a|b>c it's  &\n".toList
      (runLine .standard s "echo \"a|b>c\" \"it\\'s\" \"\" \"&\"".toList false) ∧
    ¬s.OnlyPrints "a > b\n".toList (runLine .standard s "echo \"a > b\"".toList false) := by
  intro s
  have unspaced := echo_onlyPrints_iff lookup_echoName s
    ["a|b>c".toList, "it's".toList, [], "&".toList] (by decide) (by decide) (by decide) false
  have spaced := echo_onlyPrints_iff lookup_echoName s ["a > b".toList]
    (by decide) (by decide) (by decide) false
  exact ⟨unspaced.2 (by decide), fun h => absurd (spaced.1 h) (by decide)⟩

end State

end CommandShell
