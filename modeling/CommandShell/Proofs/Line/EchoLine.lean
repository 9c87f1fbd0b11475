import CommandShell.Proofs.Line.FirstCommand
import CommandShell.Proofs.Line.Redirected

/-!
A line of `echo` and quoted words.

The kind of a line is decided on its raw text, where a quoted operator between spaces counts as one:
the marks of the line are those of its words. Wherever the line is cut at one of them, the part
before it is a command with the same name.
-/
namespace CommandShell.Line

/-- The operators between spaces that decide the kind of a line. -/
def operatorMarks : List Text :=
  [spacedPipe, Direction.output.mark, Direction.append.mark, Direction.input.mark]

theorem ne_nil_of_mem_operatorMarks : ∀ mark ∈ operatorMarks, mark ≠ [] := by decide

theorem mark_mem_operatorMarks (d : Direction) : d.mark ∈ operatorMarks := by
  cases d <;> decide

/-- The name of the command that says its words. -/
def echoName : Text := "echo".toList

theorem bare_echoName : Bare echoName where
  ne_nil := by decide
  blank := by simp [echoName, Text.isBlank]
  quote := by simp [echoName, isQuote]
  operator := by simp [echoName, Operator.ofChar?]
  backslash := by decide
  dollar := by decide
  percent := by decide

theorem has_echo_iff {mark : Text} (h : mark ∈ operatorMarks) (xs : List Text) :
    Text.has mark (echoName ++ quotedAll xs) = true ↔ ∃ x ∈ xs, mark <:+: x := by
  have plain : '"' ∉ mark ∧ '\'' ∉ mark ∧ '\\' ∉ mark ∧ ¬mark <:+: echoName ++ [' '] := by
    revert mark
    decide
  obtain ⟨hd, hs, hb, absent⟩ := plain
  rw [Text.has_iff, infix_append_quotedAll hd hs hb absent]

theorem hasBackgroundMark_echo (xs : List Text) :
    hasBackgroundMark (echoName ++ quotedAll xs) = false := by
  rcases List.eq_nil_or_concat' xs with rfl | ⟨ys, x, rfl⟩
  · decide
  · have closed : echoName ++ quotedAll (ys ++ [x]) =
        (echoName ++ quotedAll ys ++ ' ' :: '"' :: escaped x) ++ ['"'] := by
      simp [quotedAll, quoted]
    rw [closed]
    exact hasBackgroundMark_append_shown _ rfl (by decide)

/-- The first part of an echo line between some marks still begins with the name and a quote. -/
theorem pieces_echo {mark : Text} (h : mark ∈ operatorMarks) {rest piece : Text}
    {later : List Text} (cut : Text.pieces mark rest = piece :: later) :
    Text.pieces mark (echoName ++ ' ' :: '"' :: rest) =
      (echoName ++ ' ' :: '"' :: piece) :: later := by
  rw [show echoName ++ ' ' :: '"' :: rest = 'e' :: 'c' :: 'h' :: 'o' :: ' ' :: '"' :: rest from rfl]
  simp only [operatorMarks, List.mem_cons, List.not_mem_nil, or_false] at h
  rcases h with rfl | rfl | rfl | rfl
  all_goals
    rw [Text.pieces_cons, Text.pieces_cons, Text.pieces_cons, Text.pieces_cons, Text.pieces_cons,
      Text.pieces_cons, cut]
    · rfl
    all_goals simp [spacedPipe, Direction.mark, List.cons_prefix_cons]

theorem trim_echo (rest : Text) :
    Text.trim (echoName ++ ' ' :: '"' :: rest) = echoName ++ ' ' :: '"' :: Text.trimEnd rest := by
  rw [Text.trim, show echoName ++ ' ' :: '"' :: rest = 'e' :: "cho ".toList ++ '"' :: rest from rfl,
    List.cons_append, Text.trimStart_cons rfl, ← List.cons_append, Text.trimEnd_append_cons rfl]
  rfl

theorem kind_echo (xs : List Text) (h : ∀ mark ∈ operatorMarks, ∀ x ∈ xs, ¬mark <:+: x) :
    kind (echoName ++ quotedAll xs) = .simple := by
  have absent {mark : Text} (hm : mark ∈ operatorMarks) :
      Text.has mark (echoName ++ quotedAll xs) = false := by
    refine Bool.eq_false_iff.2 fun found => ?_
    obtain ⟨x, hx, occurs⟩ := (has_echo_iff hm xs).1 found
    exact h mark hm x hx occurs
  have pipe : spacedPipe ∈ operatorMarks := by decide
  have output : Direction.output.mark ∈ operatorMarks := by decide
  have append : Direction.append.mark ∈ operatorMarks := by decide
  have input : Direction.input.mark ∈ operatorMarks := by decide
  simp [kind, hasBackgroundMark_echo, absent pipe, absent output, absent append, absent input]

theorem kind_ne_background {line : Text} (h : hasBackgroundMark line = false) (command : Text) :
    kind line ≠ .background command := by
  unfold kind
  rw [h]
  split
  · nofun
  · rw [if_neg Bool.false_ne_true]
    split <;> nofun

theorem not_has_of_kind_simple {line mark : Text} (h : kind line = .simple)
    (hm : mark ∈ operatorMarks) : Text.has mark line = false := by
  simp only [operatorMarks, List.mem_cons, List.not_mem_nil, or_false] at hm
  unfold kind at h
  split at h
  · cases h
  · next pipe =>
    split at h
    · cases h
    · split at h
      · cases h
      · next others =>
        simp only [Bool.or_eq_true, not_or, Bool.not_eq_true] at pipe others
        rcases hm with rfl | rfl | rfl | rfl
        · exact pipe
        · exact others.1.1
        · exact others.1.2
        · exact others.2

/-- What `echo` has before the first mark of a line is a command with the same name, and the
characters of its words are some of those before the mark. -/
theorem exists_parse_part (value? : Text → Option Text) {part : Text} (hd : '$' ∉ part)
    (hp : '%' ∉ part) :
    ∃ command later, parse value? (Text.trim (echoName ++ ' ' :: '"' :: part)) = command :: later ∧
      command.name = echoName ∧ command.arguments.flatten.count '<' ≤ part.count '<' := by
  have kept := Text.prefix_trimEnd part
  obtain ⟨command, later, parsed, named, arguments⟩ :=
    bare_echoName.exists_parse_space value? ('"' :: Text.trimEnd part)
      (by simpa using fun found => hd (kept.subset found))
      (by simpa using fun found => hp (kept.subset found))
  refine ⟨command, later, trim_echo part ▸ parsed, named, ?_⟩
  have count := arguments.count_le '<'
  rw [List.count_cons_of_ne (by decide), List.count_cons_of_ne (by decide)] at count
  exact Nat.le_trans count (kept.sublist.count_le '<')

/-- However an echo line is cut at a mark, its first part is an echo command. -/
theorem exists_parse_first_piece (value? : Text → Option Text) {mark part : Text}
    (h : mark ∈ operatorMarks) (hd : '$' ∉ part) (hp : '%' ∉ part) :
    ∃ piece pieces command later, Text.pieces mark part = piece :: pieces ∧
      Text.pieces mark (echoName ++ ' ' :: '"' :: part) =
        (echoName ++ ' ' :: '"' :: piece) :: pieces ∧
      parse value? (Text.trim (echoName ++ ' ' :: '"' :: piece)) = command :: later ∧
      command.name = echoName ∧ command.arguments.flatten.count '<' ≤ piece.count '<' := by
  obtain ⟨piece, pieces, cut⟩ := List.exists_cons_of_ne_nil (Text.piecesFrom_ne_nil mark 0 part)
  have kept : piece <+: part := Text.prefix_of_pieces (ne_nil_of_mem_operatorMarks mark h) cut
  obtain ⟨command, later, parsed, named, count⟩ := exists_parse_part value?
    (fun found => hd (kept.subset found)) (fun found => hp (kept.subset found))
  exact ⟨piece, pieces, command, later, cut, pieces_echo h cut, parsed, named, count⟩

theorem cutRedirection_eq_ok {direction : Direction} {line : Text} {r : Redirection}
    (h : cutRedirection direction line = .ok r) :
    r.direction = direction ∧ ∃ command target,
      Text.pieces direction.mark line = [command, target] ∧ r.command = Text.trim command := by
  unfold cutRedirection at h
  split at h
  · next command target cut =>
    obtain ⟨c, rest, pieces, rfl, targets⟩ := List.map_eq_cons_iff.1 cut
    obtain ⟨u, none_left, rfl, rfl, empty⟩ := List.map_eq_cons_iff.1 targets
    rw [List.map_eq_nil_iff] at empty
    subst empty
    split at h <;> cases h
    exact ⟨rfl, c, u, pieces, rfl⟩
  · cases h

theorem redirection_eq_ok {line : Text} {r : Redirection} (h : redirection line = .ok r) :
    ∃ command target,
      Text.pieces r.direction.mark line = [command, target] ∧ r.command = Text.trim command := by
  unfold redirection at h
  split at h
  · obtain ⟨same, cut⟩ := cutRedirection_eq_ok h
    rwa [same]
  · split at h
    · obtain ⟨same, cut⟩ := cutRedirection_eq_ok h
      rwa [same]
    · split at h
      · obtain ⟨same, cut⟩ := cutRedirection_eq_ok h
        rwa [same]
      · cases h

end CommandShell.Line
