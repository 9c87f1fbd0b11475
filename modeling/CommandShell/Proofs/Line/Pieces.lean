import CommandShell.Proofs.Line.References
import CommandShell.Proofs.Line.SpacedWords
import CommandShell.Shell.Environment

/-!
Expansion piece by piece. A text that is put together from plain stretches and references is read
once: every reference is replaced where it stands, and neither a value nor a reference that stays is
read again or joined to what stands beside it.
-/
namespace CommandShell.Line

/-- A piece of a text: a stretch without references, or a reference to a variable. -/
inductive Piece
  | plain (text : Text)
  | reference (name spelling : Text)
deriving DecidableEq, Repr

namespace Piece

def spelling : Piece → Text
  | plain text => text
  | reference _ spelling => spelling

/-- What a piece is expanded to: a reference to a variable that is not set stays as it is. -/
def expansion (value? : Text → Option Text) : Piece → Text
  | plain text => text
  | reference name spelling => (value? name).getD spelling

end Piece

/-- Whether some pieces end a name before them: they begin with a reference or with a character that
is none of a name, or there are none. -/
def endsName : List Piece → Bool
  | [] => true
  | .reference _ _ :: _ => true
  | .plain [] :: rest => endsName rest
  | .plain (c :: _) :: _ => !Text.isWordChar c

/-- Pieces that can stand side by side: what follows a name without a closing character ends it. -/
def WellPieced : List Piece → Prop
  | [] => True
  | .plain text :: rest => '$' ∉ text ∧ '%' ∉ text ∧ WellPieced rest
  | .reference name spelling :: rest =>
    IsName name ∧ spelling ∈ referencesTo name ∧ (spelling = '$' :: name → endsName rest = true) ∧
      WellPieced rest

theorem not_isWordChar_of_referencesTo {name ref : Text} (member : ref ∈ referencesTo name)
    (t : Text) : ∀ c ∈ (ref ++ t).head?, Text.isWordChar c = false := by
  simp only [referencesTo, List.mem_cons, List.not_mem_nil, or_false] at member
  rcases member with rfl | rfl | rfl <;> rintro c ⟨⟩ <;> rfl

theorem not_isWordChar_of_endsName {pieces : List Piece} (ends : endsName pieces = true)
    (well : WellPieced pieces) :
    ∀ c ∈ (pieces.flatMap Piece.spelling).head?, Text.isWordChar c = false := by
  induction pieces with
  | nil => nofun
  | cons piece rest ih =>
      cases piece with
      | reference name spelling => exact not_isWordChar_of_referencesTo well.2.1 _
      | plain text =>
          cases text with
          | nil => exact ih ends well.2.2
          | cons c text =>
              rintro d ⟨⟩
              simpa [endsName] using ends

/-- What each piece is expanded to does not depend on the others. -/
theorem expand_flatMap (value? : Text → Option Text) {pieces : List Piece}
    (well : WellPieced pieces) :
    expand value? (pieces.flatMap Piece.spelling) = pieces.flatMap (Piece.expansion value?) := by
  induction pieces with
  | nil => rfl
  | cons piece rest ih =>
      rw [List.flatMap_cons, List.flatMap_cons]
      cases piece with
      | plain text =>
          obtain ⟨dollar, percent, later⟩ := well
          rw [Piece.spelling, expand_append_of_not_mem value? dollar percent, ih later]
          rfl
      | reference name spelling =>
          obtain ⟨named, member, ends, later⟩ := well
          rw [Piece.spelling, named.expand_reference_append member
            (fun bare => not_isWordChar_of_endsName (ends bare) later) value?, ih later]
          rfl

/-- A variable that is set is listed in some spelling, and one that is not in none. -/
theorem exists_of_get? (e : Environment) (name : Text) :
    match e.get? name with
    | some value => ∃ spelling, (spelling, value) ∈ e.vars.items ∧
        Text.asciiUpper spelling = Text.asciiUpper name
    | none => ∀ item ∈ e.vars.items, Text.asciiUpper item.1 ≠ Text.asciiUpper name := by
  rw [Environment.get?, Variables.get?]
  cases found : e.vars.items.find? fun item => Variables.sameName item.1 name with
  | some item =>
      have same : Variables.sameName item.1 name = true := by
        simpa using List.find?_some found
      exact ⟨item.1, List.mem_of_find?_eq_some found, beq_iff_eq.1 same⟩
  | none =>
      intro item member same
      exact List.find?_eq_none.1 found item member (beq_iff_eq.2 same)

/-- A text that is put together from pieces is expanded to what the pieces are expanded to, in their
order: a plain piece to itself, and a reference to the value of its variable, as it is, or to itself
if there is none. The value is that of the listed variable whose name differs from the one that is
referred to at most in the case of ASCII letters. -/
theorem expand_pieces (e : Environment) {pieces : List Piece} (well : WellPieced pieces) :
    expand e.get? (pieces.flatMap Piece.spelling) = pieces.flatMap (Piece.expansion e.get?) ∧
      ∀ name, match e.get? name with
        | some value => ∃ spelling, (spelling, value) ∈ e.vars.items ∧
            Text.asciiUpper spelling = Text.asciiUpper name
        | none => ∀ item ∈ e.vars.items, Text.asciiUpper item.1 ≠ Text.asciiUpper name :=
  ⟨expand_flatMap e.get? well, exists_of_get? e⟩

theorem expand_pieces_touching :
    let e := Environment.start { assets := [] }
      [("A".toList, "$B%".toList), ("b".toList, "x".toList)] "/".toList "host".toList
    let pieces : List Piece :=
      [.reference "a".toList "$a".toList, .reference "B".toList "%B%".toList, .plain "-".toList,
        .reference "no".toList "$no".toList, .reference "B".toList "$\x7bB\x7d".toList,
        .reference "A".toList "$A".toList, .plain [], .plain ".c".toList]
    WellPieced pieces ∧
      expand e.get? "$a%B%-$no$\x7bB\x7d$A.c".toList = "$B%x-$nox$B%.c".toList := by
  intro e pieces
  have named (name : Text) (shown : name ≠ []) (word : name.all Text.isWordChar = true) :
      IsName name := ⟨shown, List.all_eq_true.1 word⟩
  have well : WellPieced pieces :=
    ⟨named _ (by decide) (by decide), by decide, fun _ => rfl,
      named _ (by decide) (by decide), by decide, fun _ => rfl, by decide, by decide,
      named _ (by decide) (by decide), by decide, fun _ => rfl,
      named _ (by decide) (by decide), by decide, fun _ => rfl,
      named _ (by decide) (by decide), by decide, fun _ => by decide, by decide, by decide,
      by decide, by decide, trivial⟩
  exact ⟨well, (expand_pieces e well).1.trans (by decide)⟩

end CommandShell.Line
