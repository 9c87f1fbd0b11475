import CommandShell.Program.Source

/-!
The filter `cat`: sources one after the other, as they are or with what is hidden in them shown.
-/
namespace CommandShell.Program

/-- What `cat` shows beside the bytes of its sources. -/
structure CatStyle where
  numbers : Bool
  /-- Numbers only lines that are not empty. -/
  sparse : Bool
  /-- Shows only the first of several empty lines. -/
  squeezes : Bool
  ends : Bool
  tabs : Bool
  controls : Bool
deriving DecidableEq, Repr

namespace CatStyle

def ofOptions (o : Options) : CatStyle where
  numbers := o.has 'n'
  sparse := o.has 'b'
  squeezes := o.has 's'
  ends := o.has 'E' || o.has 'A' || o.has 'e'
  tabs := o.has 'T' || o.has 'A' || o.has 't'
  controls := o.has 'v' || o.has 'A' || o.has 'e' || o.has 't'

/-- A byte below 128 with a caret where it controls a terminal. -/
def caret (b : UInt8) : Bytes :=
  if b < 32 then [94, b + 64] else if b = 127 then [94, 63] else [b]

/-- How a byte is shown. -/
def shown (style : CatStyle) (b : UInt8) : Bytes :=
  if b = 9 then if style.tabs then caret b else [b]
  else if !style.controls then [b]
  else if b < 128 then caret b
  else [77, 45] ++ caret (b - 128)

/-- How a line is shown. A return before its end is shown together with the end. -/
def line (style : CatStyle) (piece : Bytes) : Bytes :=
  let body := piece.filter (· != Drain.newline)
  let closing : Bytes := if body.length = piece.length then []
    else if style.ends then [36, Drain.newline] else [Drain.newline]
  if style.ends && !closing.isEmpty && body.getLast? == some 13 then
    body.dropLast.flatMap style.shown ++ caret 13 ++ closing
  else body.flatMap style.shown ++ closing

/-- How lines are shown; the next number is `count`, and `blank` says that an empty line came
before. -/
def lines (style : CatStyle) : (count : Nat) → (blank : Bool) → List Bytes → Bytes
  | _, _, [] => []
  | count, blank, piece :: rest =>
    let isEmpty := piece == [Drain.newline]
    if style.squeezes && blank && isEmpty then style.lines count true rest
    else if (if style.sparse then !isEmpty else style.numbers) then
      Text.encode (Text.padLeft 6 (Text.ofNat count) ++ ['\t']) ++ style.line piece ++
        style.lines (count + 1) isEmpty rest
    else style.line piece ++ style.lines count isEmpty rest

end CatStyle

/-- Writes its sources one after the other. -/
def cat : Program :=
  withOptions ['n', 'b', 's', 'E', 'T', 'v', 'A', 'e', 't', 'u'] [] 1 fun o =>
    overSources o.operands <| replyTo nameAndReason fun sources =>
      (CatStyle.ofOptions o).lines 1 false (Drain.pieces (sources.flatMap Source.bytes))

end CommandShell.Program
