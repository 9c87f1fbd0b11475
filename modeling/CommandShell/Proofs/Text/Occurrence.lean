import CommandShell.Text.Basic
import Mathlib.Data.List.Infix

/-!
Where a mark occurs in a text. A character that is not in the mark separates the occurrences before
it from those after it, and a text without some character of the mark has no occurrence at all.
-/
namespace CommandShell.Text

theorem after?_isSome_iff (mark s : Text) : (after? mark s).isSome = true ↔ mark <+: s := by
  rw [Option.isSome_iff_exists]
  simp only [after?_eq_some_iff]
  exact ⟨fun ⟨rest, h⟩ => ⟨rest, h.symm⟩, fun ⟨rest, h⟩ => ⟨rest, h.symm⟩⟩

theorem has_iff (mark s : Text) : has mark s = true ↔ mark <:+: s := by
  induction s with
  | nil =>
      simp only [has, cutAt?, Option.isSome_map, after?_isSome_iff, List.prefix_nil, List.infix_nil]
  | cons c s ih =>
      rw [List.infix_cons_iff, ← ih, ← after?_isSome_iff]
      simp only [has, cutAt?]
      cases after? mark (c :: s) <;> simp

/-- A text is cut at a character where this stands in it first. -/
theorem cutAt?_append_cons {c : Char} {a : Text} (h : c ∉ a) (b : Text) :
    cutAt? [c] (a ++ c :: b) = some (a, b) := by
  induction a with
  | nil => simp [cutAt?, after?]
  | cons d a ih =>
      have other : c ≠ d := List.ne_of_not_mem_cons h
      simp [cutAt?, after?, other, ih (List.not_mem_of_not_mem_cons h)]

theorem not_mem_of_cutAt? {c : Char} {s left right : Text}
    (h : cutAt? [c] s = some (left, right)) : c ∉ left := by
  induction s generalizing left with
  | nil => cases h
  | cons d s ih =>
      rw [cutAt?] at h
      split at h
      · cases h
        exact List.not_mem_nil
      · next other =>
        obtain ⟨⟨before, after⟩, cut, same⟩ := Option.map_eq_some_iff.1 h
        cases same
        have ne : c ≠ d := by
          rintro rfl
          simp [after?] at other
        exact List.not_mem_cons_of_ne_of_not_mem ne (ih cut)

theorem prefix_append_cons_iff {mark : Text} {c : Char} (h : c ∉ mark) (a b : Text) :
    mark <+: a ++ c :: b ↔ mark <+: a := by
  induction a generalizing mark with
  | nil =>
      cases mark with
      | nil => simp
      | cons d mark => simp [List.cons_prefix_cons, Ne.symm (List.ne_of_not_mem_cons h)]
  | cons d a ih =>
      cases mark with
      | nil => simp
      | cons e mark =>
          rw [List.cons_append, List.cons_prefix_cons, List.cons_prefix_cons,
            ih (List.not_mem_of_not_mem_cons h)]

theorem infix_append_cons_iff {mark : Text} {c : Char} (h : c ∉ mark) (a b : Text) :
    mark <:+: a ++ c :: b ↔ mark <:+: a ∨ mark <:+: b := by
  induction a with
  | nil =>
      have start := prefix_append_cons_iff h [] b
      rw [List.nil_append] at start ⊢
      rw [List.infix_cons_iff, start, List.prefix_nil, List.infix_nil]
  | cons d a ih =>
      have start := prefix_append_cons_iff h (d :: a) b
      rw [List.cons_append] at start ⊢
      rw [List.infix_cons_iff, start, ih, List.infix_cons_iff, or_assoc]

theorem prefix_of_pieces {mark : Text} (h : mark ≠ []) {s piece : Text} {later : List Text}
    (cut : pieces mark s = piece :: later) : piece <+: s := by
  have joined := intercalate_pieces h s
  rw [cut] at joined
  cases later with
  | nil => exact ⟨[], by simpa [List.intercalate] using joined⟩
  | cons next rest =>
      rw [intercalate_cons _ _ (by simp), List.append_assoc] at joined
      exact ⟨_, joined⟩

theorem eq_append_of_pieces {mark : Text} (h : mark ≠ []) {s left right : Text}
    (cut : pieces mark s = [left, right]) : s = left ++ mark ++ right := by
  have joined := intercalate_pieces h s
  rw [cut, intercalate_cons _ _ (by simp)] at joined
  simpa [List.intercalate] using joined.symm

theorem pieces_cons {mark : Text} {c : Char} {s : Text} (h : ¬mark <+: c :: s) :
    pieces mark (c :: s) = onFirst c (pieces mark s) := by
  have absent : (after? mark (c :: s)).isSome = false :=
    Bool.eq_false_iff.2 fun found => h ((after?_isSome_iff _ _).1 found)
  simp [pieces, piecesFrom, absent]

theorem length_pieces_cons {mark : Text} {c : Char} {s : Text} (h : ¬mark <+: c :: s) :
    (pieces mark (c :: s)).length = (pieces mark s).length := by
  obtain ⟨piece, later, cut⟩ := List.exists_cons_of_ne_nil (piecesFrom_ne_nil mark 0 s)
  rw [pieces_cons h, show pieces mark s = piece :: later from cut]
  rfl

theorem not_prefix_of_later {mark : Text} {x : Char} (hx : x ∈ mark) {c : Char} {a : Text}
    (ha : x ∉ c :: a) (b : Text) : ¬mark <+: c :: a ++ mark ++ b := by
  rintro ⟨rest, whole⟩
  have place := congrArg (List.idxOf x) whole
  rw [List.idxOf_append_of_mem hx, List.append_assoc, List.idxOf_append_of_notMem ha,
    List.idxOf_append_of_mem hx, List.length_cons] at place
  omega

theorem piecesFrom_skip (mark t s : Text) :
    piecesFrom mark t.length (t ++ s) = piecesFrom mark 0 s := by
  induction t with
  | nil => rfl
  | cons c t ih => exact ih

theorem pieces_mark_append {mark : Text} (h : mark ≠ []) (s : Text) :
    pieces mark (mark ++ s) = [] :: pieces mark s := by
  obtain ⟨c, rest, rfl⟩ := List.exists_cons_of_ne_nil h
  have found : (after? (c :: rest) (c :: rest ++ s)).isSome = true :=
    (after?_isSome_iff _ _).2 (List.prefix_append _ _)
  rw [List.cons_append, pieces, piecesFrom, ← List.cons_append, if_pos found, List.length_cons,
    Nat.add_sub_cancel, piecesFrom_skip, ← pieces]

theorem pieces_of_not_mem {mark : Text} {x : Char} (hx : x ∈ mark) {s : Text} (hs : x ∉ s) :
    pieces mark s = [s] := by
  induction s with
  | nil => rfl
  | cons c s ih =>
      have absent : ¬mark <+: c :: s := fun found => hs (found.subset hx)
      rw [pieces_cons absent, ih (List.not_mem_of_not_mem_cons hs)]
      rfl

/-- The first mark of a text cuts its first piece from the others. -/
theorem pieces_append_mark_append {mark : Text} {x : Char} (hx : x ∈ mark) {a : Text} (ha : x ∉ a)
    (b : Text) : pieces mark (a ++ mark ++ b) = a :: pieces mark b := by
  induction a with
  | nil => rw [List.nil_append, pieces_mark_append (List.ne_nil_of_mem hx)]
  | cons c a ih =>
      have absent := not_prefix_of_later hx ha b
      rw [List.cons_append, List.cons_append] at absent ⊢
      rw [pieces_cons absent, ih (List.not_mem_of_not_mem_cons ha)]
      rfl

/-- A text with one mark between two sides is cut into these sides. -/
theorem pieces_append_mark {mark : Text} {x : Char} (hx : x ∈ mark) {a b : Text} (ha : x ∉ a)
    (hb : x ∉ b) : pieces mark (a ++ mark ++ b) = [a, b] := by
  rw [pieces_append_mark_append hx ha, pieces_of_not_mem hx hb]

theorem two_le_length_pieces_iff {mark : Text} (h : mark ≠ []) (s : Text) :
    2 ≤ (pieces mark s).length ↔ mark <:+: s := by
  induction s with
  | nil => simp [pieces, piecesFrom, h]
  | cons c s ih =>
      rw [List.infix_cons_iff]
      by_cases start : mark <+: c :: s
      · obtain ⟨rest, whole⟩ := start
        have more : pieces mark rest ≠ [] := piecesFrom_ne_nil mark 0 rest
        rw [← whole, pieces_mark_append h, List.length_cons]
        have := List.length_pos_iff.2 more
        exact iff_of_true (by omega) (.inl (List.prefix_append _ _))
      · rw [length_pieces_cons start, ih]
        simp [start]

/-- Whether a mark stands in a text twice, one behind the other. -/
def Twice (mark s : Text) : Prop := ∃ a b c, s = a ++ mark ++ (b ++ mark ++ c)

/-- A mark cuts a text more than once exactly if it stands in it twice. -/
theorem two_lt_length_pieces_iff {mark : Text} (h : mark ≠ []) (s : Text) :
    2 < (pieces mark s).length ↔ Twice mark s := by
  unfold Twice
  induction s with
  | nil => simp [pieces, piecesFrom, h]
  | cons x s ih =>
      by_cases start : mark <+: x :: s
      · obtain ⟨rest, whole⟩ := start
        rw [← whole, pieces_mark_append h, List.length_cons, Nat.lt_add_one_iff,
          two_le_length_pieces_iff h]
        constructor
        · rintro ⟨b, c, rfl⟩
          exact ⟨[], b, c, rfl⟩
        · rintro ⟨a, b, c, twice⟩
          -- The first of the two is no further left than the start.
          have later : b ++ mark ++ c <:+ rest := by
            refine List.suffix_of_suffix_length_le ⟨a ++ mark, rfl⟩ (twice ▸ ⟨mark, rfl⟩) ?_
            have total := congrArg List.length twice
            simp only [List.length_append] at total ⊢
            omega
          exact (List.infix_append b mark c).trans later.isInfix
      · rw [length_pieces_cons start, ih]
        constructor
        · rintro ⟨a, b, c, rfl⟩
          exact ⟨x :: a, b, c, rfl⟩
        · rintro ⟨a, b, c, twice⟩
          cases a with
          | nil => exact absurd ⟨_, twice.symm⟩ start
          | cons y a => exact ⟨a, b, c, (List.cons.inj twice).2⟩

theorem has_eq_false {mark : Text} {x : Char} (hx : x ∈ mark) {s : Text} (hs : x ∉ s) :
    has mark s = false := by
  refine Bool.eq_false_iff.2 fun found => ?_
  exact hs (((has_iff mark s).1 found).subset hx)

theorem has_append_mark (mark a b : Text) : has mark (a ++ mark ++ b) = true :=
  (has_iff _ _).2 ⟨a, b, rfl⟩

end CommandShell.Text
