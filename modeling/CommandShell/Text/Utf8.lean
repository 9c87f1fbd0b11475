import CommandShell.Text.Basic

/-!
UTF-8, with a replacement character for what is not UTF-8.

`decode` reads any bytes at all: a maximal sequence that begins a character but cannot be
continued, or a byte that begins none, becomes one replacement character. `encode` writes the
usual one to four bytes of each character.
-/
namespace CommandShell

abbrev Bytes := List UInt8

namespace Text

def encode (s : Text) : Bytes := s.flatMap String.utf8EncodeChar

/-- What stands for bytes that are not UTF-8. -/
def replacementChar : Char := '\uFFFD'

/-- A character that has been begun: how many bytes it still needs, the range its next byte must
lie in, and the bits read so far. -/
structure Begun where
  owed : Nat
  low : Nat
  high : Nat
  bits : Nat
deriving DecidableEq, Repr

/-- The character that a byte of at least `0x80` begins, or nothing if it begins none. -/
def begin? (b : Nat) : Option Begun :=
  if 0xC2 ≤ b && b ≤ 0xDF then some ⟨1, 0x80, 0xBF, b - 0xC0⟩
  else if b == 0xE0 then some ⟨2, 0xA0, 0xBF, 0⟩
  else if b == 0xED then some ⟨2, 0x80, 0x9F, 0xD⟩
  else if 0xE1 ≤ b && b ≤ 0xEF then some ⟨2, 0x80, 0xBF, b - 0xE0⟩
  else if b == 0xF0 then some ⟨3, 0x90, 0xBF, 0⟩
  else if 0xF1 ≤ b && b ≤ 0xF3 then some ⟨3, 0x80, 0xBF, b - 0xF0⟩
  else if b == 0xF4 then some ⟨3, 0x80, 0x8F, 4⟩
  else none

/-- What a byte that continues no character gives: the characters that are now complete, and the
character it begins. -/
def fresh (b : Nat) : Text × Option Begun :=
  if b < 0x80 then ([Char.ofNat b], none)
  else
    match begin? b with
    | some begun => ([], some begun)
    | none => ([replacementChar], none)

/-- What a byte gives where a character may have been begun. A byte that cannot continue it ends it
with a replacement character and is then read afresh. -/
def decodeStep : Option Begun → Nat → Text × Option Begun
  | none, b => fresh b
  | some begun, b =>
    if begun.low ≤ b && b ≤ begun.high then
      let bits := begun.bits * 64 + (b - 0x80)
      if begun.owed ≤ 1 then ([Char.ofNat bits], none)
      else ([], some ⟨begun.owed - 1, 0x80, 0xBF, bits⟩)
    else
      let (chars, next) := fresh b
      (replacementChar :: chars, next)

/-- Reads bytes where a character may have been begun. -/
def decodeFrom : Option Begun → Bytes → Text
  | none, [] => []
  | some _, [] => [replacementChar]
  | begun, byte :: rest =>
    let (chars, next) := decodeStep begun byte.toNat
    chars ++ decodeFrom next rest

/-- The text that some bytes spell, with one replacement character for each maximal sequence that
is not UTF-8. -/
def decode (bytes : Bytes) : Text := decodeFrom none bytes

/-- The text that some bytes spell, if they are UTF-8 throughout. -/
def decode? (bytes : Bytes) : Option Text :=
  let text := decode bytes
  if encode text = bytes then some text else none

end Text

end CommandShell
