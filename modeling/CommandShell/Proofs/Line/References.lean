import CommandShell.Proofs.Line.Expansion
import CommandShell.Shell.Variables

/-!
Names of variables and references to them. A word character is no blank, quote or operator, and no
reference is marked with one, so a name stands for itself on a line, and each way of referring to a
variable reads its name to the end.
-/
namespace CommandShell

namespace Text

/-- The code points of the blank characters. -/
def blankPoints : List Nat :=
  [0x9, 0xA, 0xB, 0xC, 0xD, 0x20, 0x85, 0xA0, 0x1680, 0x2000, 0x2001, 0x2002, 0x2003, 0x2004,
   0x2005, 0x2006, 0x2007, 0x2008, 0x2009, 0x200A, 0x2028, 0x2029, 0x202F, 0x205F, 0x3000]

theorem mem_blankPoints_of_isBlank {c : Char} (h : isBlank c = true) : c.toNat ∈ blankPoints := by
  simp only [isBlank, Bool.or_eq_true, Bool.and_eq_true, decide_eq_true_eq, beq_iff_eq] at h
  simp only [blankPoints, List.mem_cons, List.not_mem_nil, or_false]
  omega

theorem not_isWordChar_of_isBlank {c : Char} (h : isBlank c = true) : isWordChar c = false := by
  have table : ∀ n ∈ blankPoints, isWordChar (Char.ofNat n) = false := by decide +kernel
  have outside := table c.toNat (mem_blankPoints_of_isBlank h)
  rwa [Char.ofNat_toNat] at outside

theorem ne_of_isWordChar {c d : Char} (h : isWordChar c = true) (other : isWordChar d = false) :
    c ≠ d := by
  rintro rfl
  rw [other] at h
  cases h

/-- Folding changes small letters only. -/
theorem toUpper_eq_or_small (c : Char) : c.toUpper = c ∨ ∃ n < 26, c = Char.ofNat (97 + n) := by
  by_cases small : c.val ≥ 'a'.val ∧ c.val ≤ 'z'.val
  · have range : 97 ≤ c.toNat ∧ c.toNat ≤ 122 :=
      ⟨UInt32.le_iff_toNat_le.1 small.1, UInt32.le_iff_toNat_le.1 small.2⟩
    refine .inr ⟨c.toNat - 97, by omega, ?_⟩
    rw [Nat.add_sub_cancel' range.1, Char.ofNat_toNat]
  · exact .inl (dif_neg small)

/-- Folding changes letters into letters. -/
theorem isWordChar_toUpper (c : Char) : isWordChar c.toUpper = isWordChar c := by
  have letters : ∀ n < 26, isWordChar (Char.ofNat (97 + n)).toUpper =
      isWordChar (Char.ofNat (97 + n)) := by decide
  rcases toUpper_eq_or_small c with same | ⟨n, small, rfl⟩
  · rw [same]
  · exact letters n small

end Text

namespace Line

/-- A name that a variable can be referred to by. -/
structure IsName (name : Text) : Prop where
  ne_nil : name ≠ []
  word : ∀ c ∈ name, Text.isWordChar c = true

namespace IsName
variable {name : Text} (h : IsName name)
include h

theorem not_mem {c : Char} (other : Text.isWordChar c = false) : c ∉ name := fun found =>
  Text.ne_of_isWordChar (h.word c found) other rfl

theorem blank : ∀ c ∈ name, Text.isBlank c = false := by
  intro c found
  refine Bool.eq_false_iff.2 fun blank => ?_
  exact h.not_mem (Text.not_isWordChar_of_isBlank blank) found

theorem quote : ∀ c ∈ name, isQuote c = false := by
  intro c found
  have double : c ≠ '"' := Text.ne_of_isWordChar (h.word c found) rfl
  have single : c ≠ '\'' := Text.ne_of_isWordChar (h.word c found) rfl
  simp [isQuote, double, single]

theorem operator : ∀ c ∈ name, Operator.ofChar? c = none := by
  intro c found
  have pipe : c ≠ '|' := Text.ne_of_isWordChar (h.word c found) rfl
  have output : c ≠ '>' := Text.ne_of_isWordChar (h.word c found) rfl
  have input : c ≠ '<' := Text.ne_of_isWordChar (h.word c found) rfl
  simp [Operator.ofChar?, pipe, output, input]

/-- Another spelling of a name is a name. -/
theorem of_sameName {other : Text} (same : Variables.sameName name other = true) :
    IsName other := by
  have folded : name.map Char.toUpper = other.map Char.toUpper := beq_iff_eq.1 same
  refine ⟨fun none => h.ne_nil ?_, fun c found => ?_⟩
  · rw [none] at folded
    exact List.map_eq_nil_iff.1 folded
  · have spelled : c.toUpper ∈ name.map Char.toUpper := folded ▸ List.mem_map_of_mem found
    obtain ⟨d, member, letter⟩ := List.mem_map.1 spelled
    rw [← Text.isWordChar_toUpper c, ← letter, Text.isWordChar_toUpper]
    exact h.word d member

/-- A name is read up to where it ends. -/
theorem spanName_append {t : Text} (ends : ∀ c ∈ t.head?, Text.isWordChar c = false) :
    spanName (name ++ t) = (name, t) := by
  rw [spanName, List.takeWhile_append_of_pos h.word, List.dropWhile_append_of_pos h.word]
  cases t with
  | nil => simp
  | cons c t => simp [ends c rfl]

theorem closedName?_append {c : Char} (ends : Text.isWordChar c = false) (t : Text) :
    closedName? c (name ++ c :: t) = some name := by
  obtain ⟨d, rest, rfl⟩ := List.exists_cons_of_ne_nil h.ne_nil
  rw [closedName?, h.spanName_append (by simpa using ends)]
  simp

end IsName

/-- The spellings of a reference to a variable. -/
def referencesTo (name : Text) : List Text :=
  ['$' :: '\x7b' :: name ++ ['\x7d'], '$' :: name, '%' :: name ++ ['%']]

/-- A reference is read to its end, whatever follows; only a name without a closing character ends
no earlier than a character that is none of a name. -/
theorem IsName.reference?_append {name ref : Text} (h : IsName name)
    (member : ref ∈ referencesTo name) {t : Text}
    (ends : ref = '$' :: name → ∀ c ∈ t.head?, Text.isWordChar c = false) :
    reference? (ref ++ t) = some ⟨name, ref⟩ := by
  simp only [referencesTo, List.mem_cons, List.not_mem_nil, or_false] at member
  rcases member with rfl | rfl | rfl
  · have read : reference? ('$' :: '\x7b' :: (name ++ '\x7d' :: t)) =
        (closedName? '\x7d' (name ++ '\x7d' :: t)).map fun found =>
          ⟨found, '$' :: '\x7b' :: found ++ ['\x7d']⟩ := rfl
    simp only [List.cons_append, List.append_assoc, List.nil_append]
    rw [read, h.closedName?_append rfl]
    rfl
  · have bare : (name ++ t).head? ≠ some '\x7b' := by
      obtain ⟨c, rest, rfl⟩ := List.exists_cons_of_ne_nil h.ne_nil
      rintro ⟨⟩
      exact h.not_mem (c := '\x7b') rfl List.mem_cons_self
    rw [List.cons_append, reference?_dollar bare, h.spanName_append (ends rfl), if_neg h.ne_nil]
  · have read : reference? ('%' :: (name ++ '%' :: t)) =
        (closedName? '%' (name ++ '%' :: t)).map fun found => ⟨found, '%' :: found ++ ['%']⟩ := rfl
    simp only [List.cons_append, List.append_assoc, List.nil_append]
    rw [read, h.closedName?_append rfl]
    rfl

theorem expandFrom_eq_drop (value? : Text → Option Text) (skip : Nat) (t : Text) :
    expandFrom value? skip t = expand value? (t.drop skip) := by
  induction t generalizing skip with
  | nil => cases skip <;> rfl
  | cons c t ih =>
      cases skip with
      | zero => rfl
      | succ skip => exact ih skip

/-- What follows a reference is expanded on its own. -/
theorem IsName.expand_reference_append {name ref : Text} (h : IsName name)
    (member : ref ∈ referencesTo name) {t : Text}
    (ends : ref = '$' :: name → ∀ c ∈ t.head?, Text.isWordChar c = false)
    (value? : Text → Option Text) :
    expand value? (ref ++ t) = (value? name).getD ref ++ expand value? t := by
  have found := h.reference?_append member ends
  obtain ⟨c, rest, rfl⟩ : ∃ c rest, ref = c :: rest := by
    simp only [referencesTo, List.mem_cons, List.not_mem_nil, or_false] at member
    rcases member with rfl | rfl | rfl <;> exact ⟨_, _, rfl⟩
  rw [List.cons_append] at found ⊢
  rw [expand, expandFrom, found]
  simp [expandFrom_eq_drop]

/-- A reference by itself is expanded to the value of its variable. -/
theorem IsName.expand_reference {name ref : Text} (h : IsName name)
    (member : ref ∈ referencesTo name) (value? : Text → Option Text) :
    expand value? ref = (value? name).getD ref := by
  have alone := h.expand_reference_append member (t := []) (fun _ => nofun) value?
  rwa [List.append_nil, show expand value? [] = [] from rfl, List.append_nil] at alone

end Line

end CommandShell
