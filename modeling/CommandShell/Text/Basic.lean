/-!
Text as a list of characters: searching, cutting and replacing.

Every scan is structural on the list, so each function unfolds one character at a time. A scan
that has just used up several characters at once carries the number of them it still has to skip.
-/
namespace CommandShell

/-- A piece of text: its characters in order. -/
abbrev Text := List Char

namespace Text

/-- What follows `lead` in `s`, if `s` begins with it. -/
def after? : (lead s : Text) → Option Text
  | [], s => some s
  | _ :: _, [] => none
  | a :: lead, c :: s => if a = c then after? lead s else none

/-- `after?` finds what follows `lead` exactly in the texts that begin with it. -/
theorem after?_eq_some_iff {lead s rest : Text} :
    after? lead s = some rest ↔ s = lead ++ rest := by
  induction lead generalizing s with
  | nil => simp [after?]
  | cons a lead ih =>
    cases s with
    | nil => simp [after?]
    | cons c s => by_cases h : a = c <;> simp_all [after?, eq_comm]

/-- The text before and after the first occurrence of `mark`. -/
def cutAt? (mark : Text) : Text → Option (Text × Text)
  | [] => (after? mark []).map ([], ·)
  | c :: s =>
    match after? mark (c :: s) with
    | some rest => some ([], rest)
    | none => (cutAt? mark s).map fun (left, right) => (c :: left, right)

/-- Cutting a text loses nothing but the mark. -/
theorem eq_append_of_cutAt? {mark s left right : Text} (h : cutAt? mark s = some (left, right)) :
    s = left ++ mark ++ right := by
  induction s generalizing left with
  | nil =>
    simp only [cutAt?, Option.map_eq_some_iff, Prod.mk.injEq] at h
    obtain ⟨rest, hrest, rfl, rfl⟩ := h
    exact after?_eq_some_iff.1 hrest
  | cons c s ih =>
    simp only [cutAt?] at h
    split at h
    · next rest hrest =>
      cases h
      exact after?_eq_some_iff.1 hrest
    · simp only [Option.map_eq_some_iff, Prod.mk.injEq, Prod.exists] at h
      obtain ⟨l, r, hcut, rfl, rfl⟩ := h
      rw [ih hcut]
      rfl

/-- Whether `mark` occurs in `s`. -/
def has (mark s : Text) : Bool := (cutAt? mark s).isSome

/-- Puts a character on the first of a list of pieces. -/
def onFirst (c : Char) : List Text → List Text
  | [] => [[c]]
  | piece :: pieces => (c :: piece) :: pieces

/-- The pieces between occurrences of `mark`, after `skip` more characters have been passed over. -/
def piecesFrom (mark : Text) : (skip : Nat) → Text → List Text
  | _, [] => [[]]
  | skip + 1, _ :: s => piecesFrom mark skip s
  | 0, c :: s =>
    if (after? mark (c :: s)).isSome then [] :: piecesFrom mark (mark.length - 1) s
    else onFirst c (piecesFrom mark 0 s)

/-- The pieces between the occurrences of a non-empty `mark`, read from the left; one more piece
than there are occurrences. -/
def pieces (mark s : Text) : List Text := piecesFrom mark 0 s

theorem onFirst_ne_nil (c : Char) (pieces : List Text) : onFirst c pieces ≠ [] := by
  cases pieces <;> simp [onFirst]

theorem piecesFrom_ne_nil (mark : Text) (skip : Nat) (s : Text) :
    piecesFrom mark skip s ≠ [] := by
  fun_induction piecesFrom mark skip s with
  | case1 => simp
  | case2 _ _ _ ih => exact ih
  | case3 => simp
  | case4 => exact onFirst_ne_nil _ _

theorem intercalate_cons (mark piece : Text) {pieces : List Text} (h : pieces ≠ []) :
    List.intercalate mark (piece :: pieces) = piece ++ mark ++ List.intercalate mark pieces := by
  match pieces, h with
  | next :: rest, _ => simp [List.intercalate]

theorem intercalate_onFirst (mark : Text) (c : Char) {pieces : List Text} (h : pieces ≠ []) :
    List.intercalate mark (onFirst c pieces) = c :: List.intercalate mark pieces := by
  match pieces, h with
  | [piece], _ => simp [onFirst, List.intercalate]
  | piece :: next :: rest, _ => simp [onFirst, List.intercalate]

theorem intercalate_piecesFrom {mark : Text} (h : mark ≠ []) (skip : Nat) (s : Text) :
    List.intercalate mark (piecesFrom mark skip s) = s.drop skip := by
  fun_induction piecesFrom mark skip s with
  | case1 => simp [List.intercalate]
  | case2 _ _ _ ih => simpa using ih
  | case3 c s found ih =>
    obtain ⟨rest, hrest⟩ := Option.isSome_iff_exists.1 found
    obtain ⟨a, lead, rfl⟩ := List.exists_cons_of_ne_nil h
    have hs := after?_eq_some_iff.1 hrest
    simp only [List.cons_append, List.cons.injEq] at hs
    rw [intercalate_cons _ _ (piecesFrom_ne_nil _ _ _), ih]
    simp [hs]
  | case4 c s _ ih =>
    rw [intercalate_onFirst _ _ (piecesFrom_ne_nil _ _ _), ih]
    rfl

theorem intercalate_pieces {mark : Text} (h : mark ≠ []) (s : Text) :
    List.intercalate mark (pieces mark s) = s := intercalate_piecesFrom h 0 s

def replaceFrom (mark value : Text) : (skip : Nat) → Text → Text
  | _, [] => []
  | skip + 1, _ :: s => replaceFrom mark value skip s
  | 0, c :: s =>
    if (after? mark (c :: s)).isSome then value ++ replaceFrom mark value (mark.length - 1) s
    else c :: replaceFrom mark value 0 s

/-- `s` with every occurrence of a non-empty `mark`, read from the left, replaced by `value`. The
inserted text is not read again. -/
def replace (mark value s : Text) : Text := replaceFrom mark value 0 s

def unwords (words : List Text) : Text := List.intercalate [' '] words

/-- `s` without the characters at its end that satisfy `p`. -/
def dropEndWhile (p : Char → Bool) (s : Text) : Text := (s.reverse.dropWhile p).reverse

/-- Whether `s` ends with `tail`. -/
def endsWith (tail s : Text) : Bool := (after? tail.reverse s.reverse).isSome

def line (s : Text) : Text := s ++ ['\n']

/-- The lines of a text, each closed by a newline; what follows the last newline is a line if it
is not empty. -/
def lines (s : Text) : List Text :=
  let parts := pieces ['\n'] s
  if parts.getLast? = some [] then parts.dropLast else parts

/-- Folds ASCII letters to capitals and leaves all else alone. -/
def asciiUpper (s : Text) : Text := s.map Char.toUpper

/-- Folds ASCII letters to small ones and leaves all else alone. -/
def asciiLower (s : Text) : Text := s.map Char.toLower

/-- Order of texts by code point, which is also the order of their UTF-8 bytes. -/
def precedes : Text → Text → Bool
  | [], _ => true
  | _ :: _, [] => false
  | a :: s, b :: t => if a = b then precedes s t else a.toNat < b.toNat

/-- Fills a text on the right with blanks to at least `width` characters. -/
def padRight (width : Nat) (s : Text) : Text := s ++ List.replicate (width - s.length) ' '

/-- Fills a text on the left with blanks to at least `width` characters. -/
def padLeft (width : Nat) (s : Text) : Text := List.replicate (width - s.length) ' ' ++ s

end Text

end CommandShell
