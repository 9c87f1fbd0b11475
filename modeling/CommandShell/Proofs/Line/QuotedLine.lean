import CommandShell.Proofs.Line.Quoting

/-!
A line of quoted words and nothing else. Cutting it at operators finds none, splitting it finds the
quoted words, and unquoting these gives the words back.
-/
namespace CommandShell.Line

/-- Some texts between double quotes, with one space between two of them. -/
def quotedLine (xs : List Text) : Text := Text.unwords (xs.map quoted)

theorem quotedLine_cons (x : Text) (xs : List Text) :
    quotedLine (x :: xs) = quoted x ++ quotedAll xs := by
  induction xs generalizing x with
  | nil => simp [quotedLine, Text.unwords, List.intercalate]
  | cons y xs ih =>
      have later := ih y
      simp only [quotedLine, Text.unwords, List.map_cons] at later ⊢
      rw [Text.intercalate_cons _ _ (by simp), later, quotedAll_cons]
      simp

theorem quotedLine_eq_nil_iff (xs : List Text) : quotedLine xs = [] ↔ xs = [] := by
  cases xs with
  | nil => simp [quotedLine, Text.unwords, List.intercalate]
  | cons x xs => simp [quotedLine_cons, quoted]

section
variable {xs : List Text} (hxs : ∀ x ∈ xs, x.getLast? ≠ some '\\')
include hxs

theorem guards_quotedLine {p : Char → Bool} (hq : p '"' = false) (hs : p ' ' = false) :
    Scan.Guards p {} (quotedLine xs) := by
  cases xs with
  | nil => trivial
  | cons x xs =>
      obtain ⟨hx, later⟩ := List.forall_mem_cons.1 hxs
      rw [quotedLine_cons, Scan.guards_append, Scan.outside_start.readAll_quoted hx]
      refine ⟨Scan.outside_start.guards_quoted hq, ?_⟩
      exact Scan.Outside.guards_quotedAll ⟨rfl, by decide⟩ later hq hs

theorem segments_quotedLine :
    segments (quotedLine xs) = if xs = [] then [] else [.text (quotedLine xs)] := by
  by_cases empty : xs = []
  · subst empty
    rfl
  · rw [if_neg empty]
    apply segmentsFrom_of_guards (guards_quotedLine hxs rfl rfl)
    rwa [ne_eq, quotedLine_eq_nil_iff]

theorem words_quotedLine : words (quotedLine xs) = xs.map quoted := by
  cases xs with
  | nil => rfl
  | cons x xs =>
      obtain ⟨hx, later⟩ := List.forall_mem_cons.1 hxs
      have guarded : Scan.Guards Text.isBlank {} (quoted x) :=
        Scan.outside_start.guards_quoted rfl
      have rest : wordsFrom ⟨none, some '"'⟩ (quotedAll xs) = ([], xs.map quoted) :=
        wordsFrom_quotedAll ⟨rfl, by decide⟩ later
      rw [quotedLine_cons, words, wordsFrom_append guarded,
        Scan.outside_start.readAll_quoted hx, rest]
      simp [consWord, quoted]

end

/-- Words that do not end in a backslash are read back from their quoted spelling. -/
theorem quotedLine_round_trip (xs : List Text) (hxs : ∀ x ∈ xs, x.getLast? ≠ some '\\') :
    segments (quotedLine xs) = (if xs = [] then [] else [.text (quotedLine xs)]) ∧
      words (quotedLine xs) = xs.map quoted ∧
      (words (quotedLine xs)).map unquote = xs := by
  refine ⟨segments_quotedLine hxs, words_quotedLine hxs, ?_⟩
  rw [words_quotedLine hxs]
  exact map_unquote_quoted hxs

theorem quotedLine_round_trip_mixed :
    let xs := ["it's \"so\"".toList, [], " a|b >> \\c ".toList, "\\\\'".toList]
    quotedLine xs = "\"it\\'s \\\"so\\\"\" \"\" \" a|b >> \\c \" \"\\\\\\'\"".toList ∧
      words (quotedLine xs) = xs.map quoted ∧ (words (quotedLine xs)).map unquote = xs := by
  intro xs
  have round := quotedLine_round_trip xs (by decide)
  exact ⟨by decide, round.2⟩

end CommandShell.Line
