import CommandShell.Text.Blank
import Mathlib.Data.List.DropRight

/-!
Trimming. A character that is not blank keeps what stands before or behind it, so the two ends of a
text are trimmed on their own.
-/
namespace CommandShell.Text

theorem trimStart_cons {c : Char} (h : isBlank c = false) (s : Text) :
    trimStart (c :: s) = c :: s := by
  simp [trimStart, h]

theorem trimEnd_append_cons {c : Char} (h : isBlank c = false) (a s : Text) :
    trimEnd (a ++ c :: s) = a ++ c :: trimEnd s := by
  have reversed : (a ++ c :: s).reverse = s.reverse ++ c :: a.reverse := by simp
  rw [trimEnd, dropEndWhile, reversed, List.dropWhile_append]
  split
  · next blank => simp [h, trimEnd, dropEndWhile, List.isEmpty_iff.1 blank]
  · simp [trimEnd, dropEndWhile]

theorem prefix_trimEnd (s : Text) : trimEnd s <+: s := List.rdropWhile_prefix isBlank s

theorem trimEnd_eq_nil_iff (s : Text) : trimEnd s = [] ↔ allBlank s = true := by
  simp [trimEnd, dropEndWhile, allBlank]

theorem trim_eq_nil_iff (s : Text) : trim s = [] ↔ allBlank s = true := by
  rw [trim, trimEnd_eq_nil_iff, trimStart, allBlank, allBlank]
  induction s with
  | nil => rfl
  | cons c s ih =>
      cases blank : isBlank c with
      | true => simpa [blank] using ih
      | false => simp [blank]

theorem trim_of_not_blank {s : Text} (h : ∀ c ∈ s, isBlank c = false) : trim s = s := by
  have kept (t : Text) (ht : ∀ c ∈ t, isBlank c = false) : t.dropWhile isBlank = t := by
    cases t with
    | nil => rfl
    | cons c t => simp [ht c List.mem_cons_self]
  rw [trim, trimStart, kept s h, trimEnd, dropEndWhile,
    kept s.reverse fun c hc => h c (List.mem_reverse.1 hc), List.reverse_reverse]

theorem not_allBlank_of_mem {c : Char} {s : Text} (h : c ∈ s) (shown : isBlank c = false) :
    allBlank s = false := by
  refine Bool.eq_false_iff.2 fun blank => ?_
  rw [allBlank, List.all_eq_true] at blank
  rw [blank c h] at shown
  cases shown

theorem allBlank_append (s t : Text) : allBlank (s ++ t) = (allBlank s && allBlank t) :=
  List.all_append

theorem trimStart_append {s : Text} (shown : allBlank s = false) (t : Text) :
    trimStart (s ++ t) = trimStart s ++ t := by
  induction s with
  | nil => cases shown
  | cons c s ih =>
      cases blank : isBlank c with
      | true =>
          rw [allBlank, List.all_cons, blank, Bool.true_and] at shown
          simpa [trimStart, blank] using ih shown
      | false => rw [List.cons_append, trimStart_cons blank, trimStart_cons blank, List.cons_append]

theorem trimEnd_append {s : Text} (shown : allBlank s = false) (t : Text) :
    trimEnd (t ++ s) = t ++ trimEnd s := by
  have kept : trimEnd s ≠ [] := fun empty => by
    rw [(trimEnd_eq_nil_iff s).1 empty] at shown
    cases shown
  have some : (s.reverse.dropWhile isBlank).isEmpty = false := by
    simpa [trimEnd, dropEndWhile] using kept
  simp [trimEnd, dropEndWhile, List.dropWhile_append, some]

theorem trimEnd_trimEnd (s : Text) : trimEnd (trimEnd s) = trimEnd s :=
  List.rdropWhile_idempotent isBlank s

theorem trimStart_trimEnd (s : Text) : trimStart (trimEnd s) = trimEnd (trimStart s) := by
  induction s with
  | nil => rfl
  | cons c s ih =>
      cases blank : isBlank c with
      | false =>
          have whole := trimEnd_append_cons blank [] s
          rw [List.nil_append, List.nil_append] at whole
          rw [trimStart_cons blank, whole, trimStart_cons blank]
      | true =>
          have start : trimStart (c :: s) = trimStart s := by simp [trimStart, blank]
          rw [start, ← ih]
          -- The end reaches the blank start only where nothing else is left.
          cases rest : allBlank s with
          | true =>
              have all : allBlank (c :: s) = true := by
                rw [allBlank, List.all_cons, blank, Bool.true_and]
                exact rest
              rw [(trimEnd_eq_nil_iff _).2 all, (trimEnd_eq_nil_iff _).2 rest]
          | false =>
              rw [← List.singleton_append, trimEnd_append rest]
              simp [trimStart, blank]

theorem trim_trimEnd (s : Text) : trim (trimEnd s) = trim s := by
  rw [trim, trimStart_trimEnd, trimEnd_trimEnd, trim]

theorem trim_trim (s : Text) : trim (trim s) = trim s := by
  have start : trimStart (trimStart s) = trimStart s := List.dropWhile_idempotent isBlank s
  rw [trim, trim, trimStart_trimEnd, trimEnd_trimEnd, start]

theorem allBlank_trim (s : Text) : allBlank (trim s) = allBlank s := by
  rw [Bool.eq_iff_iff, ← trim_eq_nil_iff, trim_trim, trim_eq_nil_iff]

/-- Trimming a text whose ends are not blank trims each end on its own. -/
theorem trim_append {s u : Text} (start : allBlank s = false) (stop : allBlank u = false)
    (t : Text) : trim (s ++ t ++ u) = trimStart s ++ t ++ trimEnd u := by
  rw [trim, List.append_assoc, trimStart_append start, ← List.append_assoc, trimEnd_append stop]

end CommandShell.Text
