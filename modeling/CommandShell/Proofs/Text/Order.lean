import CommandShell.Text.Utf8
import Mathlib.Data.List.Lex

/-!
The order of texts. Comparing code points one by one comes to the same as comparing the UTF-8 bytes:
of two characters, the one with the smaller code point has the smaller byte where they first differ.
Items whose keys are different texts have one order, and it does not matter what the order looks at
behind the keys.
-/
namespace CommandShell.Text

/-- One text comes before another if its UTF-8 bytes do: by the first that differs, or where they
end. -/
def Before (s t : Text) : Prop := List.Lex (· < ·) (encode s) (encode t)

theorem encode_cons (c : Char) (s : Text) : encode (c :: s) = String.utf8EncodeChar c ++ encode s :=
  List.flatMap_cons

theorem lex_ofNat_cons {a b : Nat} (ha : a < 256) (hb : b < 256) (x y : Bytes) :
    List.Lex (· < ·) (UInt8.ofNat a :: x) (UInt8.ofNat b :: y) ↔
      a < b ∨ a = b ∧ List.Lex (· < ·) x y := by
  have same : UInt8.ofNat a = UInt8.ofNat b ↔ a = b := by
    rw [← UInt8.toNat_inj, UInt8.toNat_ofNat', UInt8.toNat_ofNat', Nat.mod_eq_of_lt ha,
      Nat.mod_eq_of_lt hb]
  rw [List.cons_lex_cons_iff, UInt8.ofNat_lt_iff_lt ha hb, same]

theorem div_64_digits (n : Nat) : n / 4096 = n / 64 / 64 ∧ n / 262144 = n / 4096 / 64 :=
  ⟨(Nat.div_div_eq_div_mul n 64 64).symm, (Nat.div_div_eq_div_mul n 4096 64).symm⟩

/-- A character with a smaller code point is written with smaller bytes, whatever follows. -/
theorem lex_utf8EncodeChar {c d : Char} (h : c.toNat < d.toNat) (x y : Bytes) :
    List.Lex (· < ·) (String.utf8EncodeChar c ++ x) (String.utf8EncodeChar d ++ y) := by
  have large : d.toNat < 0x110000 := by
    rcases d.valid with low | ⟨-, high⟩
    · exact Nat.lt_trans low (by decide)
    · exact high
  change c.val.toNat < d.val.toNat at h
  change d.val.toNat < 0x110000 at large
  unfold String.utf8EncodeChar
  generalize c.val.toNat = v at h ⊢
  generalize d.val.toNat = w at h large ⊢
  have leading : v / 262144 % 8 = v / 262144 ∧ w / 262144 % 8 = w / 262144 := by omega
  have digits := And.intro (div_64_digits v) (div_64_digits w)
  dsimp only
  -- The first bytes tell how many there are; then the bytes are compared as digits to the base 64.
  split_ifs <;> simp (disch := omega) only [List.cons_append, lex_ofNat_cons] <;> omega

theorem before_cons (c : Char) (s t : Text) : Before (c :: s) (c :: t) ↔ Before s t := by
  have bytes (x : Bytes) : List.Lex (· < ·) (x ++ encode s) (x ++ encode t) ↔ Before s t := by
    induction x with
    | nil => rfl
    | cons b x ih => simp [List.cons_lex_cons_iff, ih]
  rw [Before, encode_cons, encode_cons, bytes]

theorem not_before_nil (s : Text) : ¬Before s [] := List.not_lex_nil

theorem before_of_lt {c d : Char} (h : c.toNat < d.toNat) (s t : Text) :
    Before (c :: s) (d :: t) := by
  rw [Before, encode_cons, encode_cons]
  exact lex_utf8EncodeChar h _ _

theorem nil_before_cons (c : Char) (s : Text) : Before [] (c :: s) := by
  obtain ⟨b, rest, bytes⟩ : ∃ b rest, encode (c :: s) = b :: rest := by
    rw [encode_cons]
    unfold String.utf8EncodeChar
    dsimp only
    split_ifs <;> exact ⟨_, _, rfl⟩
  rw [Before, bytes]
  exact .nil

theorem not_before_of_lt {c d : Char} (h : c.toNat < d.toNat) (s t : Text) :
    ¬Before (d :: t) (c :: s) := by
  intro other
  exact asymm (r := List.Lex (· < ·)) other (before_of_lt h s t)

/-- The order by code points is the order by bytes. -/
theorem precedes_iff (s t : Text) : precedes s t = true ↔ s = t ∨ Before s t := by
  fun_induction precedes s t with
  | case1 t =>
      cases t with
      | nil => simp
      | cons c t => simp [nil_before_cons]
  | case2 c s => simp [not_before_nil]
  | case3 c s t ih => rw [ih, before_cons, List.cons_inj_right]
  | case4 c s d t other =>
      have apart : c.toNat ≠ d.toNat := fun same => other (Char.toNat_inj.1 same)
      have unequal : c :: s ≠ d :: t := fun same => other (List.cons.inj same).1
      rw [decide_eq_true_eq, or_iff_right unequal]
      refine ⟨fun less => before_of_lt less s t, fun before => ?_⟩
      by_contra more
      exact not_before_of_lt (by omega) t s before

theorem precedes_trans (s t u : Text) (first : precedes s t = true) (second : precedes t u = true) :
    precedes s u = true := by
  fun_induction precedes s t generalizing u with
  | case1 => rfl
  | case2 => cases first
  | case3 c s t ih => cases u <;> grind [precedes]
  | case4 c s d t other => cases u <;> grind [precedes]

theorem precedes_total (s t : Text) : (precedes s t || precedes t s) = true := by
  fun_induction precedes s t with
  | case1 => rfl
  | case2 => rfl
  | case3 c s t ih => simpa [precedes] using ih
  | case4 c s d t other =>
      have apart : c.toNat ≠ d.toNat := fun same => other (Char.toNat_inj.1 same)
      simp only [precedes, Ne.symm other, if_false, Bool.or_eq_true, decide_eq_true_eq]
      omega

theorem precedes_antisymm {s t : Text} (first : precedes s t = true) (second : precedes t s = true) :
    s = t := by
  rcases (precedes_iff s t).1 first with same | before
  · exact same
  · refine ((precedes_iff t s).1 second).elim Eq.symm fun after => ?_
    exact absurd after (asymm (r := List.Lex (· < ·)) before)

/-- A total order of items that puts the texts `key` first. -/
structure Leads {α : Type} (key : α → Text) (le : α → α → Bool) : Prop where
  trans : ∀ a b c, le a b = true → le b c = true → le a c = true
  total : ∀ a b, (le a b || le b a) = true
  keys : ∀ a b, le a b = true → precedes (key a) (key b) = true

section Leads
variable {α : Type} {key : α → Text}

theorem leads_precedes (key : α → Text) : Leads key fun a b => precedes (key a) (key b) where
  trans a b c := precedes_trans (key a) (key b) (key c)
  total a b := precedes_total (key a) (key b)
  keys _ _ := id

variable {le le' : α → α → Bool} (h : Leads key le) {items : List α}
  (apart : items.Pairwise fun a b => key a ≠ key b)
include h apart

/-- Items with different keys are sorted by their keys, whatever else the order looks at. -/
theorem Leads.pairwise_mergeSort :
    (items.mergeSort le).Pairwise fun a b => Before (key a) (key b) := by
  have ordered := List.pairwise_mergeSort h.trans h.total items
  have distinct := (List.mergeSort_perm items le).symm.pairwise apart Ne.symm
  refine (ordered.and distinct).imp ?_
  rintro a b ⟨ordered, other⟩
  exact ((precedes_iff (key a) (key b)).1 (h.keys a b ordered)).resolve_left other

/-- Items with different keys have one order, in whatever order they come. -/
theorem Leads.mergeSort_eq (h' : Leads key le') {others : List α} (perm : others.Perm items) :
    others.mergeSort le' = items.mergeSort le := by
  have sorted := h'.pairwise_mergeSort (perm.symm.pairwise apart Ne.symm)
  refine List.Perm.eq_of_pairwise (fun a b _ _ first second => ?_) sorted
    (h.pairwise_mergeSort apart)
    ((List.mergeSort_perm others le').trans (perm.trans (List.mergeSort_perm items le).symm))
  exact absurd second (asymm (r := List.Lex (· < ·)) first)

end Leads

end CommandShell.Text
