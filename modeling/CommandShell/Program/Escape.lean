import CommandShell.Text.Utf8

/-!
Escapes: the bytes that a backslash and what follows it stand for.

The dialects of escapes share their letters, and differ in the rest.
-/
namespace CommandShell.Program

/-- Which escapes are read beside letters and octal digits. -/
structure EscapeStyle where
  /-- Up to three octal digits after a zero are one byte; else the zero is one of them. -/
  leadingZero : Bool := false
  hexadecimal : Bool := false
  /-- The letter `c` ends all output. -/
  stops : Bool := false
  quotes : Bool := false
deriving DecidableEq, Repr

/-- Bytes, or the end of all output. -/
inductive Escaped
  | bytes (bytes : Bytes)
  | stop
deriving DecidableEq, Repr

def letterByte? (c : Char) : Option UInt8 :=
  match c with
  | 'a' => some 7
  | 'b' => some 8
  | 'e' => some 27
  | 'f' => some 12
  | 'n' => some 10
  | 'r' => some 13
  | 't' => some 9
  | 'v' => some 11
  | '\\' => some 92
  | _ => none

/-- Whether a character is an octal digit. -/
def isOctal (c : Char) : Bool := '0' ≤ c && c ≤ '7'

def hexValue? (c : Char) : Option Nat :=
  if c.isDigit then some (c.toNat - 48)
  else if 'a' ≤ c && c ≤ 'f' then some (c.toNat - 87)
  else if 'A' ≤ c && c ≤ 'F' then some (c.toNat - 55)
  else none

def octalValue (digits : Text) : Nat := digits.foldl (fun n c => n * 8 + (c.toNat - 48)) 0

/-- Up to `most` octal digits at the start of a text. -/
def octalDigits (most : Nat) (s : Text) : Text := (s.take most).takeWhile isOctal

/-- What a backslash before `rest` stands for, and how many characters of `rest` belong to it. -/
def readEscape (style : EscapeStyle) (rest : Text) : Escaped × Nat :=
  match rest with
  | [] => (.bytes [92], 0)
  | c :: after =>
    let hex := (after.take 2).takeWhile fun d => (hexValue? d).isSome
    if c == 'c' && style.stops then (.stop, 1)
    else if c == 'x' && style.hexadecimal && !hex.isEmpty then
      let value := hex.foldl (fun n d => n * 16 + (hexValue? d).getD 0) 0
      (.bytes [UInt8.ofNat value], 1 + hex.length)
    else if c == '"' && style.quotes then (.bytes [34], 1)
    else if isOctal c then
      if style.leadingZero && c == '0' then
        let digits := octalDigits 3 after
        (.bytes [UInt8.ofNat (octalValue digits)], 1 + digits.length)
      else
        let digits := octalDigits 3 (c :: after)
        (.bytes [UInt8.ofNat (octalValue digits)], digits.length)
    else
      match letterByte? c with
      | some b => (.bytes [b], 1)
      | none => (.bytes (92 :: Text.encode [c]), 1)

/-- The bytes of a text with escapes, after `skip` more characters have been passed over, and
whether output ends with them. -/
def unescapeFrom (style : EscapeStyle) : (skip : Nat) → Text → Bytes × Bool
  | _, [] => ([], false)
  | skip + 1, _ :: rest => unescapeFrom style skip rest
  | 0, '\\' :: rest =>
    match readEscape style rest with
    | (.stop, _) => ([], true)
    | (.bytes bytes, used) =>
      let (more, ended) := unescapeFrom style used rest
      (bytes ++ more, ended)
  | 0, c :: rest =>
    let (more, ended) := unescapeFrom style 0 rest
    (Text.encode [c] ++ more, ended)

/-- The bytes of a text with escapes, and whether output ends with them. -/
def unescape (style : EscapeStyle) (s : Text) : Bytes × Bool := unescapeFrom style 0 s

end CommandShell.Program
