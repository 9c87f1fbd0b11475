import CommandShell.Program.Option
import CommandShell.Program.Quoting
import CommandShell.Text.Number

/-!
The utility `seq`: numbers from one to another in equal steps.

Numbers are decimals with so many places, and are written with as many as the first one or the step
has.
-/
namespace CommandShell.Program

/-- A decimal: `units` of the last of `places` decimal places; `width` characters spell it. -/
structure Decimal where
  units : Int
  places : Nat := 0
  width : Nat := 1
deriving DecidableEq, Repr

namespace Decimal

/-- Reads a decimal; a sign may stand before it. -/
def read? (s : Text) : Option Decimal :=
  let (negative, digits) : Bool × Text := match s with
    | '-' :: rest => (true, rest)
    | '+' :: rest => (false, rest)
    | _ => (false, s)
  let whole := digits.takeWhile (· != '.')
  let decimals := (digits.drop whole.length).drop 1
  if (whole ++ decimals).isEmpty || !(whole ++ decimals).all Char.isDigit then none
  else
    let value : Nat := (whole ++ decimals).foldl (fun n c => n * 10 + Text.digitValue c) 0
    some
      { units := if negative then -(value : Int) else value
        places := decimals.length
        width := s.length }

/-- The units of a decimal that is given at least so many places. -/
def scaled (d : Decimal) (places : Nat) : Int := d.units * Int.pow 10 (places - d.places)

/-- The characters that spell a decimal with so many places. -/
def widthAt (d : Decimal) (places : Nat) : Nat :=
  if places = 0 then d.width - (if d.places = 0 then 0 else d.places + 1)
  else d.width + (if d.places = 0 then 1 else 0) + places - d.places

end Decimal

/-- Units written with so many places, and with zeros after the sign to a width. -/
def spellDecimal (places width : Nat) (units : Int) : Text :=
  let digits := Text.zeroPadded (places + 1) units.natAbs
  let whole := digits.take (digits.length - places)
  let rest := if places = 0 then [] else '.' :: digits.drop (digits.length - places)
  let sign : Text := if units < 0 then ['-'] else []
  sign ++ List.replicate (width - (sign ++ whole ++ rest).length) '0' ++ whole ++ rest

/-- The numbers from one to another, at most `count` of them. -/
def progression (step last : Int) : (count : Nat) → Int → List Int
  | 0, _ => []
  | count + 1, n =>
    if (0 < step && last < n) || (step < 0 && n < last) then []
    else n :: progression step last count (n + step)

/-- How numbers are written one after the other. -/
structure SeqStyle where
  separator : Text := ['\n']
  evenly : Bool := false
deriving DecidableEq, Repr

/-- The style that the arguments begin with, and the other arguments. -/
def readStyle (style : SeqStyle) : List Text → SeqStyle × List Text
  | ['-', 's'] :: separator :: rest => readStyle { style with separator } rest
  | ['-', 'w'] :: rest => readStyle { style with evenly := true } rest
  | ['-', '-'] :: rest => (style, rest)
  | ('-' :: 's' :: separator) :: rest => readStyle { style with separator } rest
  | arguments => (style, arguments)

/-- The numbers from `first` to `last` as they are written. -/
def SeqStyle.spell (style : SeqStyle) (first step last : Decimal) : Text :=
  let places := max first.places step.places
  let common := max places last.places
  let width := if style.evenly then max (first.widthAt places) (last.widthAt places) else 0
  let start := first.scaled common
  let stride := step.scaled common
  let stop := last.scaled common
  let numbers := progression stride stop (((stop - start) / stride).toNat + 1) start
  if numbers.isEmpty then []
  else
    Text.line (List.intercalate style.separator (numbers.map fun n =>
      spellDecimal places width (n / Int.pow 10 (common - places))))

def seq : Program := Program.immediate fun c =>
  let (style, operands) := readStyle {} c.arguments
  let usage (message : Text) : Reply := usageComplaint c message 1
  let run (first step last : Text) : Reply :=
    match Decimal.read? first, Decimal.read? step, Decimal.read? last with
    | some a, some s, some b =>
      if s.units = 0 then
        usage ("invalid Zero increment value: ".toList ++ quoteEscaped step)
      else { output := Text.encode (style.spell a s b) }
    | a, s, _ =>
      let bad := if a.isNone then first else if s.isNone then step else last
      usage ("invalid floating point argument: ".toList ++ quoteEscaped bad)
  match operands with
  | [] => usage "missing operand".toList
  | [last] => run ['1'] ['1'] last
  | [first, last] => run first ['1'] last
  | [first, step, last] => run first step last
  | _ :: _ :: _ :: extra :: _ => usage ("extra operand ".toList ++ quoteEscaped extra)

end CommandShell.Program
