import CommandShell.Text.Basic

/-!
Blank characters: the code points with the property White_Space.

Quoting, word splitting and trimming all ask this one predicate, so the no-break space and the
ideographic space separate words as the ordinary space does, and the zero-width space does not.
-/
namespace CommandShell.Text

def isBlank (c : Char) : Bool :=
  let n := c.toNat
  (0x9 ≤ n && n ≤ 0xD) || n == 0x20 || n == 0x85 || n == 0xA0 || n == 0x1680 ||
    (0x2000 ≤ n && n ≤ 0x200A) || n == 0x2028 || n == 0x2029 || n == 0x202F || n == 0x205F ||
    n == 0x3000

/-- Whether a text holds nothing but blank characters. -/
def allBlank (s : Text) : Bool := s.all isBlank

/-- `s` without the blank characters at its start. -/
def trimStart (s : Text) : Text := s.dropWhile isBlank

/-- `s` without the blank characters at its end. -/
def trimEnd (s : Text) : Text := dropEndWhile isBlank s

/-- `s` without the blank characters at either end. -/
def trim (s : Text) : Text := trimEnd (trimStart s)

/-- The maximal runs of characters that are not blank; `pending` is the run being read, reversed. -/
def blankSplitFrom (pending : Text) : Text → List Text
  | [] => if pending.isEmpty then [] else [pending.reverse]
  | c :: s =>
    if isBlank c then
      if pending.isEmpty then blankSplitFrom [] s else pending.reverse :: blankSplitFrom [] s
    else blankSplitFrom (c :: pending) s

/-- The maximal runs of characters that are not blank, in order. -/
def blankSplit (s : Text) : List Text := blankSplitFrom [] s

end CommandShell.Text
