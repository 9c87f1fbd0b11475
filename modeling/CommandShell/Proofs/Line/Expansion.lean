import CommandShell.Proofs.Line.Cut

/-!
What expansion and splitting into words keep of a text. No reference holds an operator, so a text is
expanded on each side of one on its own; and the words of a text have all its characters but blanks.
-/
namespace CommandShell.Line

theorem spanName_append_eq (t : Text) : (spanName t).1 ++ (spanName t).2 = t :=
  List.takeWhile_append_dropWhile

theorem prefix_of_closedName? {close : Char} {t name : Text}
    (found : closedName? close t = some name) : name ++ [close] <+: t := by
  have whole := spanName_append_eq t
  rw [closedName?] at found
  split at found
  · cases found
  · next name e rest _ span =>
    rw [span] at whole
    split at found
    · next same =>
      cases found
      exact ⟨rest, by simp [← whole, same]⟩
    · cases found
  · cases found

theorem prefix_of_reference? {t : Text} {ref : Reference} (found : reference? t = some ref) :
    ref.spelling <+: t := by
  unfold reference? at found
  split at found
  · obtain ⟨name, closed, rfl⟩ := Option.map_eq_some_iff.1 found
    simpa using prefix_of_closedName? closed
  · next rest _ =>
    split at found
    · cases found
    · cases found
      exact (List.prefix_cons_inj '$').2 ⟨_, spanName_append_eq rest⟩
  · obtain ⟨name, closed, rfl⟩ := Option.map_eq_some_iff.1 found
    simpa using prefix_of_closedName? closed
  · cases found

theorem reference?_dollar {t : Text} (bare : t.head? ≠ some '\x7b') :
    reference? ('$' :: t) =
      if (spanName t).1 = [] then none else some ⟨(spanName t).1, '$' :: (spanName t).1⟩ := by
  cases t with
  | nil => rfl
  | cons e t =>
      have other : e ≠ '\x7b' := fun same => bare (congrArg some same)
      cases name : (spanName (e :: t)).1 <;> simp [reference?, other, name]

/-- A character that no reference begins with, holds or ends with. -/
structure Separates (c : Char) : Prop where
  word : Text.isWordChar c = false
  dollar : c ≠ '$'
  percent : c ≠ '%'
  opening : c ≠ '\x7b'
  closing : c ≠ '\x7d'

theorem separates_of_ofChar? {c : Char} {op : Operator} (h : Operator.ofChar? c = some op) :
    Separates c := by
  unfold Operator.ofChar? at h
  split_ifs at h <;> subst c <;>
    exact ⟨by decide +kernel, by decide, by decide, by decide, by decide⟩

section
variable {c : Char} (h : Separates c)
include h

theorem spanName_append (t u : Text) :
    spanName (t ++ c :: u) = ((spanName t).1, (spanName t).2 ++ c :: u) := by
  induction t with
  | nil => simp [spanName, h.word]
  | cons d t ih =>
      simp only [spanName, Prod.mk.injEq] at ih ⊢
      cases word : Text.isWordChar d <;> simp [word, ih]

theorem closedName?_append {close : Char} (other : c ≠ close) (t u : Text) :
    closedName? close (t ++ c :: u) = closedName? close t := by
  rw [closedName?, closedName?, spanName_append h]
  obtain ⟨name, rest⟩ := spanName t
  cases name with
  | nil => rfl
  | cons d name =>
      cases rest with
      | nil => simp [other]
      | cons e rest => rfl

/-- A reference ends before a separating character. -/
theorem reference?_append (d : Char) (t u : Text) :
    reference? (d :: (t ++ c :: u)) = reference? (d :: t) := by
  by_cases dollar : d = '$'
  · subst dollar
    by_cases brace : t.head? = some '\x7b'
    · obtain ⟨e, t, rfl⟩ := List.exists_cons_of_ne_nil (l := t) (by rintro rfl; cases brace)
      cases brace
      simp only [List.cons_append, reference?, closedName?_append h h.closing]
    · have later : (t ++ c :: u).head? ≠ some '\x7b' := by
        cases t with
        | nil => simpa using h.opening
        | cons e t => exact brace
      rw [reference?_dollar later, reference?_dollar brace, spanName_append h]
  · by_cases percent : d = '%'
    · subst percent
      simp only [reference?, closedName?_append h h.percent]
    · rw [reference?_eq_none dollar percent, reference?_eq_none dollar percent]

theorem expandFrom_append (value? : Text → Option Text) (skip : Nat) (t u : Text)
    (bound : skip ≤ t.length) :
    expandFrom value? skip (t ++ c :: u) = expandFrom value? skip t ++ c :: expand value? u := by
  induction t generalizing skip with
  | nil =>
      obtain rfl : skip = 0 := Nat.le_zero.1 bound
      have none : reference? (c :: u) = none := reference?_eq_none h.dollar h.percent
      simp [expandFrom, expand, none]
  | cons d t ih =>
      cases skip with
      | succ skip => exact ih skip (Nat.le_of_succ_le_succ bound)
      | zero =>
          rw [List.cons_append, expandFrom, expandFrom, reference?_append h]
          cases found : reference? (d :: t) with
          | none => simp [ih 0 (Nat.zero_le _)]
          | some ref =>
              -- What is left to skip lies within the text before the separating character.
              have short := (prefix_of_reference? found).length_le
              rw [List.length_cons] at short
              simp [ih (ref.spelling.length - 1) (by omega)]

/-- A text is expanded on each side of a separating character on its own. -/
theorem expand_append_cons (value? : Text → Option Text) (t u : Text) :
    expand value? (t ++ c :: u) = expand value? t ++ c :: expand value? u :=
  expandFrom_append h value? 0 t u (Nat.zero_le _)

end

theorem count_wordsFrom {c : Char} (shown : Text.isBlank c = false) (s : Scan) (t : Text) :
    (wordsFrom s t).1.count c + (wordsFrom s t).2.flatten.count c = t.count c := by
  induction t generalizing s with
  | nil => rfl
  | cons d t ih =>
      have later := ih (s.read d)
      simp only [wordsFrom]
      split
      · next blank =>
        have other : d ≠ c := by
          rintro rfl
          rw [shown] at blank
          cases blank
        rw [flatten_consWord, List.count_append, List.count_nil, Nat.zero_add, later,
          List.count_cons_of_ne other]
      · dsimp only
        rw [List.count_cons, List.count_cons, ← later]
        omega

/-- Splitting a text into words loses only blanks. -/
theorem count_words {c : Char} (shown : Text.isBlank c = false) (t : Text) :
    (words t).flatten.count c = t.count c := by
  rw [words, flatten_consWord, List.count_append, count_wordsFrom shown]

end CommandShell.Line
