import CommandShell.Text.Utf8
import Mathlib.Tactic.SplitIfs

/-!
What decoding does to ASCII characters and to encoded text. The byte of an ASCII character ends
whatever has been begun before it and stands for that character, and no other byte does, so bytes
that are cut behind such a byte can be decoded piece by piece. What has been encoded is decoded to
itself.
-/
namespace CommandShell.Text

theorem toNat_ofNat {n : Nat} (valid : n.isValidChar) : (Char.ofNat n).toNat = n := by
  rw [Char.ofNat, dif_pos valid]
  rfl

theorem toNat_ofNat_of_ascii {b : Nat} (h : b < 0x80) : (Char.ofNat b).toNat = b :=
  toNat_ofNat (.inl (Nat.lt_trans h (by decide)))

/-- An ASCII character other than NUL. -/
def IsAscii (c : Char) : Prop := 0 < c.toNat ∧ c.toNat < 0x80

/-- A number beyond ASCII that is no character comes out as NUL. -/
theorem not_isAscii_ofNat {n : Nat} (large : 0x80 ≤ n) : ¬IsAscii (Char.ofNat n) := by
  rintro ⟨positive, ascii⟩
  by_cases valid : n.isValidChar
  · rw [toNat_ofNat valid] at ascii
    omega
  · rw [Char.ofNat, dif_neg valid] at positive
    exact Nat.lt_irrefl 0 positive

/-- A character that has been begun and will lie beyond ASCII, however it is continued. -/
structure Begun.Large (g : Begun) : Prop where
  low : 0x80 ≤ g.low
  next : 2 ≤ g.bits * 64 + (g.low - 0x80)
  last : g.owed ≤ 1 → 0x80 ≤ g.bits * 64 + (g.low - 0x80)

theorem large_none : ∀ g ∈ (none : Option Begun), g.Large := nofun

theorem large_of_begin? {b : Nat} {g : Begun} (h : begin? b = some g) : g.Large := by
  unfold begin? at h
  split_ifs at h with two e0 ed three f0 four f4 <;> cases h
  · simp only [Bool.and_eq_true, decide_eq_true_eq] at two
    constructor <;> dsimp only <;> omega
  · constructor <;> decide
  · constructor <;> decide
  · simp only [Bool.and_eq_true, decide_eq_true_eq] at three
    constructor <;> dsimp only <;> omega
  · constructor <;> decide
  · simp only [Bool.and_eq_true, decide_eq_true_eq] at four
    constructor <;> dsimp only <;> omega
  · constructor <;> decide

/-- A byte read afresh gives an ASCII character only if it is that character, and begins none. -/
theorem fresh_sound (b : Nat) :
    (∀ g ∈ (fresh b).2, g.Large) ∧ ∀ c ∈ (fresh b).1, IsAscii c → c.toNat = b := by
  rw [fresh]
  split_ifs with ascii
  · refine ⟨nofun, fun c hc _ => ?_⟩
    rw [List.mem_singleton.1 hc, toNat_ofNat_of_ascii ascii]
  · cases h : begin? b with
    | none =>
        refine ⟨nofun, fun c hc small => ?_⟩
        rw [List.mem_singleton.1 hc] at small
        exact absurd small.2 (by decide)
    | some g =>
        refine ⟨fun g' hg => ?_, nofun⟩
        cases hg
        exact large_of_begin? h

/-- One byte gives an ASCII character only if it is that character, and what it begins or continues
lies beyond ASCII. -/
theorem decodeStep_sound {begun : Option Begun} (large : ∀ g ∈ begun, g.Large) (b : Nat) :
    (∀ g ∈ (decodeStep begun b).2, g.Large) ∧
      ∀ c ∈ (decodeStep begun b).1, IsAscii c → c.toNat = b := by
  cases begun with
  | none => exact fresh_sound b
  | some g =>
      have sound := large g rfl
      rw [decodeStep]
      dsimp only
      split_ifs with continues final
      · simp only [Bool.and_eq_true, decide_eq_true_eq] at continues
        refine ⟨nofun, fun c hc small => ?_⟩
        rw [List.mem_singleton.1 hc] at small
        have := sound.last final
        exact absurd small (not_isAscii_ofNat (by omega))
      · simp only [Bool.and_eq_true, decide_eq_true_eq] at continues
        refine ⟨fun g' hg => ?_, nofun⟩
        cases hg
        have := sound.next
        constructor <;> dsimp only <;> omega
      · refine ⟨(fresh_sound b).1, fun c hc small => ?_⟩
        cases List.mem_cons.1 hc with
        | inl replaced =>
            rw [replaced] at small
            exact absurd small.2 (by decide)
        | inr read => exact (fresh_sound b).2 c read small

theorem decodeFrom_cons (begun : Option Begun) (byte : UInt8) (rest : Bytes) :
    decodeFrom begun (byte :: rest) =
      (decodeStep begun byte.toNat).1 ++ decodeFrom (decodeStep begun byte.toNat).2 rest := by
  cases begun <;> rfl

/-- An ASCII character of decoded bytes is one of the bytes. -/
theorem exists_mem_of_mem_decodeFrom {begun : Option Begun} (large : ∀ g ∈ begun, g.Large)
    {bytes : Bytes} {c : Char} (ascii : IsAscii c) (h : c ∈ decodeFrom begun bytes) :
    ∃ byte ∈ bytes, byte.toNat = c.toNat := by
  induction bytes generalizing begun with
  | nil =>
      cases begun with
      | none => cases h
      | some g =>
          rw [List.mem_singleton.1 h] at ascii
          exact absurd ascii.2 (by decide)
  | cons byte rest ih =>
      obtain ⟨later, here⟩ := decodeStep_sound large byte.toNat
      rw [decodeFrom_cons, List.mem_append] at h
      cases h with
      | inl first => exact ⟨byte, List.mem_cons_self, (here c first ascii).symm⟩
      | inr behind =>
          obtain ⟨other, member, same⟩ := ih later behind
          exact ⟨other, List.mem_cons_of_mem _ member, same⟩

/-- The byte of an ASCII character cuts decoding in two. -/
theorem decodeFrom_append_ascii {begun : Option Begun} (large : ∀ g ∈ begun, g.Large)
    {byte : UInt8} (ascii : byte.toNat < 0x80) (bytes rest : Bytes) :
    decodeFrom begun (bytes ++ byte :: rest) =
      decodeFrom begun bytes ++ Char.ofNat byte.toNat :: decode rest := by
  induction bytes generalizing begun with
  | nil =>
      have afresh : fresh byte.toNat = ([Char.ofNat byte.toNat], none) := by
        rw [fresh, if_pos ascii]
      rw [List.nil_append, decodeFrom_cons]
      cases begun with
      | none => rw [decodeStep, afresh]; rfl
      | some g =>
          have low := (large g rfl).low
          have ends : ¬(g.low ≤ byte.toNat && byte.toNat ≤ g.high) = true := by
            simp only [Bool.and_eq_true, decide_eq_true_eq]
            omega
          rw [decodeStep]
          dsimp only
          rw [if_neg ends, afresh]
          rfl
  | cons other bytes ih =>
      rw [List.cons_append, decodeFrom_cons, decodeFrom_cons,
        ih (decodeStep_sound large other.toNat).1, List.append_assoc]

theorem decode_append_ascii {byte : UInt8} (ascii : byte.toNat < 0x80) (bytes rest : Bytes) :
    decode (bytes ++ byte :: rest) = decode bytes ++ Char.ofNat byte.toNat :: decode rest :=
  decodeFrom_append_ascii large_none ascii bytes rest

/-- Bytes are never decoded to nothing. -/
theorem decodeFrom_eq_nil_iff (begun : Option Begun) (bytes : Bytes) :
    decodeFrom begun bytes = [] ↔ begun = none ∧ bytes = [] := by
  induction bytes generalizing begun with
  | nil => cases begun <;> simp [decodeFrom]
  | cons byte rest ih =>
      have silent : (decodeStep begun byte.toNat).1 = [] →
          (decodeStep begun byte.toNat).2 ≠ none := by
        have afresh : (fresh byte.toNat).1 = [] → (fresh byte.toNat).2 ≠ none := by
          rw [fresh]
          split_ifs
          · nofun
          · cases begin? byte.toNat <;> simp
        cases begun with
        | none => exact afresh
        | some g =>
            rw [decodeStep]
            dsimp only
            split_ifs <;> simp
      rw [decodeFrom_cons, List.append_eq_nil_iff, ih]
      exact iff_of_false (fun h => silent h.1 h.2.1) nofun

theorem begin?_two : ∀ d < 0x20, 2 ≤ d → begin? (d + 0xC0) = some ⟨1, 0x80, 0xBF, d⟩ := by decide

theorem begin?_three : ∀ d < 0x10, begin? (d + 0xE0) =
    some ⟨2, if d = 0 then 0xA0 else 0x80, if d = 0xD then 0x9F else 0xBF, d⟩ := by decide

theorem begin?_four : ∀ d < 5, begin? (d + 0xF0) =
    some ⟨3, if d = 0 then 0x90 else 0x80, if d = 4 then 0x8F else 0xBF, d⟩ := by decide

theorem toNat_byte {b : Nat} (h : b < 256) : (UInt8.ofNat b).toNat = b := by
  rw [UInt8.toNat_ofNat', Nat.mod_eq_of_lt h]

theorem decode_of_begin? {b : Nat} {g : Begun} (begins : begin? b = some g) (large : 0x80 ≤ b)
    (byte : b < 256) (rest : Bytes) :
    decode (UInt8.ofNat b :: rest) = decodeFrom (some g) rest := by
  rw [decode, decodeFrom_cons, toNat_byte byte, decodeStep, fresh, if_neg (Nat.not_lt.2 large),
    begins]
  rfl

section Continue
variable {owed low high bits b : Nat} (above : low ≤ b) (below : b ≤ high) (byte : b < 256)
  (rest : Bytes)
include above below byte

theorem decodeFrom_last :
    decodeFrom (some ⟨1, low, high, bits⟩) (UInt8.ofNat b :: rest) =
      Char.ofNat (bits * 64 + (b - 0x80)) :: decode rest := by
  rw [decodeFrom_cons, toNat_byte byte, decodeStep]
  simp [above, below, decode]

theorem decodeFrom_more :
    decodeFrom (some ⟨owed + 2, low, high, bits⟩) (UInt8.ofNat b :: rest) =
      decodeFrom (some ⟨owed + 1, 0x80, 0xBF, bits * 64 + (b - 0x80)⟩) rest := by
  rw [decodeFrom_cons, toNat_byte byte, decodeStep]
  simp [above, below]

end Continue

/-- A character is decoded from the bytes that it is encoded to. -/
theorem decode_utf8EncodeChar (c : Char) (rest : Bytes) :
    decode (String.utf8EncodeChar c ++ rest) = c :: decode rest := by
  have valid : c.val.toNat < 0xD800 ∨ 0xDFFF < c.val.toNat ∧ c.val.toNat < 0x110000 := c.valid
  have same : Char.ofNat c.val.toNat = c := Char.ofNat_toNat c
  unfold String.utf8EncodeChar
  generalize c.val.toNat = v at valid same ⊢
  dsimp only
  split_ifs with one two three
  · rw [← List.nil_append ([UInt8.ofNat v] ++ rest), List.singleton_append,
      decode_append_ascii (by rw [toNat_byte] <;> omega), toNat_byte (by omega), same]
    rfl
  · have digit : v / 64 % 32 = v / 64 := by omega
    rw [digit, List.cons_append,
      decode_of_begin? (begin?_two (v / 64) (by omega) (by omega)) (by omega) (by omega),
      List.singleton_append, decodeFrom_last (by omega) (by omega) (by omega),
      Nat.add_sub_cancel, show v / 64 * 64 + v % 64 = v by omega, same]
  · have digit : v / 4096 % 16 = v / 4096 := by omega
    rw [digit, List.cons_append,
      decode_of_begin? (begin?_three (v / 4096) (by omega)) (by omega) (by omega),
      List.cons_append,
      decodeFrom_more (by split_ifs <;> omega) (by split_ifs <;> omega) (by omega),
      List.singleton_append, decodeFrom_last (by omega) (by omega) (by omega),
      Nat.add_sub_cancel, Nat.add_sub_cancel,
      show (v / 4096 * 64 + v / 64 % 64) * 64 + v % 64 = v by omega, same]
  · have digit : v / 262144 % 8 = v / 262144 := by omega
    rw [digit, List.cons_append,
      decode_of_begin? (begin?_four (v / 262144) (by omega)) (by omega) (by omega),
      List.cons_append,
      decodeFrom_more (by split_ifs <;> omega) (by split_ifs <;> omega) (by omega),
      List.cons_append, decodeFrom_more (by omega) (by omega) (by omega),
      List.singleton_append, decodeFrom_last (by omega) (by omega) (by omega),
      Nat.add_sub_cancel, Nat.add_sub_cancel, Nat.add_sub_cancel,
      show ((v / 262144 * 64 + v / 4096 % 64) * 64 + v / 64 % 64) * 64 + v % 64 = v by omega, same]

theorem decode_encode (s : Text) : decode (encode s) = s := by
  induction s with
  | nil => rfl
  | cons c s ih =>
      have bytes : encode (c :: s) = String.utf8EncodeChar c ++ encode s := List.flatMap_cons
      rw [bytes, decode_utf8EncodeChar, ih]

end CommandShell.Text
