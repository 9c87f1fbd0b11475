import CommandShell.Line.Kind
import CommandShell.Line.Segment
import CommandShell.Proofs.Text.Occurrence
import CommandShell.Proofs.Text.Trimming

/-!
A line of a command, a spaced redirection operator and a target, where neither side holds an
operator. It is run as a redirection, and it is cut into its two sides without the blanks around
them.
-/
namespace CommandShell.Line

/-- A text without operators. -/
structure Unmarked (t : Text) : Prop where
  pipe : '|' ∉ t
  input : '<' ∉ t
  output : '>' ∉ t

theorem Unmarked.mono {t u : Text} (h : Unmarked t) (sub : u ⊆ t) : Unmarked u where
  pipe := fun found => h.pipe (sub found)
  input := fun found => h.input (sub found)
  output := fun found => h.output (sub found)

theorem Unmarked.ofChar?_eq_none {t : Text} (h : Unmarked t) :
    ∀ c ∈ t, Operator.ofChar? c = none := by
  intro c found
  have pipe : c ≠ '|' := fun same => h.pipe (same ▸ found)
  have input : c ≠ '<' := fun same => h.input (same ▸ found)
  have output : c ≠ '>' := fun same => h.output (same ▸ found)
  simp [Operator.ofChar?, pipe, input, output]

theorem hasBackgroundMark_append_shown (t : Text) {u : Text} (shown : Text.allBlank u = false)
    (plain : '&' ∉ u) : hasBackgroundMark (t ++ u) = false := by
  refine Bool.eq_false_iff.2 fun found => plain ?_
  rw [hasBackgroundMark, Text.endsWith, Text.after?_isSome_iff, Text.trimEnd_append shown,
    List.reverse_append] at found
  cases last : (Text.trimEnd u).reverse with
  | nil =>
      rw [(Text.trimEnd_eq_nil_iff u).1 (List.reverse_eq_nil_iff.1 last)] at shown
      cases shown
  | cons c front =>
      rw [last] at found
      obtain ⟨rfl, -⟩ := List.cons_prefix_cons.1 found
      have inside : '&' ∈ (Text.trimEnd u).reverse := by simp [last]
      exact (Text.prefix_trimEnd u).subset (List.mem_reverse.1 inside)

/-- A line whose last word is more than an ampersand is no background line. -/
theorem hasBackgroundMark_append_word (t : Text) {u : Text}
    (word : ∀ c ∈ u, Text.isBlank c = false) (nonempty : u ≠ []) (other : u ≠ ['&']) :
    hasBackgroundMark (t ++ u) = false := by
  obtain ⟨last, front, reversed⟩ := List.exists_cons_of_ne_nil (List.reverse_ne_nil_iff.2 nonempty)
  have spelled : u = front.reverse ++ [last] := by
    rw [← List.reverse_reverse u, reversed, List.reverse_cons]
  have kept : (Text.trimEnd (t ++ u)).reverse = last :: (front ++ t.reverse) := by
    have shown := word last (by simp [spelled])
    simp [Text.trimEnd, Text.dropEndWhile, reversed, shown]
  refine Bool.eq_false_iff.2 fun found => ?_
  rw [hasBackgroundMark, Text.endsWith, Text.after?_isSome_iff, kept] at found
  obtain ⟨rfl, before⟩ := List.cons_prefix_cons.1 found
  cases front with
  | nil => exact other spelled
  | cons c front =>
      obtain ⟨rfl, -⟩ := List.cons_prefix_cons.1 before
      cases word ' ' (by simp [spelled])

/-- The character that an operator of a direction is written with. -/
def Direction.sign : Direction → Char
  | .input => '<'
  | .append | .output => '>'

theorem Direction.sign_mem_mark (d : Direction) : d.sign ∈ d.mark := by
  cases d <;> decide

namespace Unmarked
variable {c : Text} (h : Unmarked c)
include h

theorem sign (d : Direction) : d.sign ∉ c := by
  cases d with
  | input => exact h.input
  | append | output => exact h.output

theorem not_has_mark (d : Direction) : Text.has d.mark c = false :=
  Text.has_eq_false d.sign_mem_mark (h.sign d)

theorem kind (foreground : hasBackgroundMark c = false) : kind c = .simple := by
  have pipe : Text.has spacedPipe c = false := Text.has_eq_false (x := '|') (by decide) h.pipe
  simp [Line.kind, pipe, foreground, h.not_has_mark]

end Unmarked

section
variable {c u : Text} (hc : Unmarked c) (hu : Unmarked u) (d : Direction)
include hc hu

theorem kind_redirected (foreground : hasBackgroundMark (c ++ d.mark ++ u) = false) :
    kind (c ++ d.mark ++ u) = .redirection := by
  have outside : '|' ∉ d.mark := by cases d <;> decide
  have pipe : Text.has spacedPipe (c ++ d.mark ++ u) = false :=
    Text.has_eq_false (x := '|') (by decide) (by simp [outside, hc.pipe, hu.pipe])
  have found := Text.has_append_mark d.mark c u
  cases d <;> simp_all [Line.kind]

/-- An operator is not read as the longer one that it is a part of. -/
theorem not_has_append_mark :
    Text.has Direction.append.mark (c ++ Direction.output.mark ++ u) = false := by
  refine Bool.eq_false_iff.2 fun found => ?_
  have count := ((Text.has_iff _ _).1 found).sublist.count_le '>'
  rw [List.count_append, List.count_append, List.count_eq_zero.2 hc.output,
    List.count_eq_zero.2 hu.output] at count
  exact absurd count (by decide)

theorem redirection_redirected (shown : Text.allBlank c = false)
    (target : Text.allBlank u = false) :
    redirection (c ++ d.mark ++ u) = .ok ⟨Text.trim c, Text.trim u, d⟩ := by
  have cut : cutRedirection d (c ++ d.mark ++ u) = .ok ⟨Text.trim c, Text.trim u, d⟩ := by
    have left : Text.trim c ≠ [] := fun empty => by
      rw [(Text.trim_eq_nil_iff c).1 empty] at shown
      cases shown
    have right : Text.trim u ≠ [] := fun empty => by
      rw [(Text.trim_eq_nil_iff u).1 empty] at target
      cases target
    rw [cutRedirection, Text.pieces_append_mark d.sign_mem_mark (hc.sign d) (hu.sign d)]
    simp [left, right]
  have input : d ≠ .input → Text.has Direction.input.mark (c ++ d.mark ++ u) = false := by
    intro other
    refine Text.has_eq_false Direction.input.sign_mem_mark ?_
    cases d with
    | input => exact absurd rfl other
    | append | output => simp [Direction.sign, Direction.mark, hc.input, hu.input]
  have found := Text.has_append_mark d.mark c u
  cases d with
  | input => rw [redirection, if_pos found, cut]
  | append => rw [redirection, if_neg (Bool.eq_false_iff.1 (input (by decide))), if_pos found, cut]
  | output =>
      rw [redirection, if_neg (Bool.eq_false_iff.1 (input (by decide))),
        if_neg (Bool.eq_false_iff.1 (not_has_append_mark hc hu)), if_pos found, cut]

end

end CommandShell.Line
