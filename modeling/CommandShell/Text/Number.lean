import CommandShell.Text.Basic

/-!
Decimal numerals: reading them within the bounds of a type, and writing them.

A numeral is read digit by digit, and the first digit at which something is wrong decides the
error: a numeral that leaves its bounds before its first bad character is out of bounds.
-/
namespace CommandShell

/-- Why a text is no numeral of the type asked for. -/
inductive NumeralError
  | empty
  | badDigit
  | tooLarge
  | tooSmall
deriving DecidableEq, Repr

def NumeralError.message : NumeralError → Text
  | .empty => "cannot parse integer from empty string".toList
  | .badDigit => "invalid digit found in string".toList
  | .tooLarge => "number too large to fit in target type".toList
  | .tooSmall => "number too small to fit in target type".toList

namespace Text

def digitValue (c : Char) : Nat := c.toNat - '0'.toNat

/-- Reads digits after a value already read; `beyond` is the error once the value passes `limit`. -/
def digitsFrom (limit : Nat) (beyond : NumeralError) (value : Nat) :
    Text → Except NumeralError Nat
  | [] => .ok value
  | c :: s =>
    if c.isDigit then
      let next := value * 10 + digitValue c
      if limit < next then .error beyond else digitsFrom limit beyond next s
    else .error .badDigit

def digits (limit : Nat) (beyond : NumeralError) (s : Text) : Except NumeralError Nat :=
  if s.isEmpty then .error .badDigit else digitsFrom limit beyond 0 s

/-- Reads a numeral of at most `limit`; a plus sign may stand before it. -/
def readNat (limit : Nat) : Text → Except NumeralError Nat
  | [] => .error .empty
  | '+' :: s => digits limit .tooLarge s
  | s => digits limit .tooLarge s

/-- Reads a numeral from `-(limit + 1)` to `limit`; a sign may stand before it. -/
def readInt (limit : Nat) : Text → Except NumeralError Int
  | [] => .error .empty
  | '-' :: s => (digits (limit + 1) .tooSmall s).map fun n => -(n : Int)
  | '+' :: s => (digits limit .tooLarge s).map Int.ofNat
  | s => (digits limit .tooLarge s).map Int.ofNat

def ofNat (n : Nat) : Text := Nat.toDigits 10 n

/-- A number with a minus sign where it is negative. -/
def ofInt : Int → Text
  | .ofNat n => ofNat n
  | .negSucc n => '-' :: ofNat (n + 1)

/-- A number filled on the left with zeros to at least `width` digits. -/
def zeroPadded (width n : Nat) : Text :=
  let digits := ofNat n
  List.replicate (width - digits.length) '0' ++ digits

end Text

end CommandShell
