import CommandShell.Program.Source

/-!
The filter `sort`: the lines of all sources in order.

Lines compare first by what the options ask for, then by their bytes. Sources are read only once
all of them can be opened.
-/
namespace CommandShell.Program

def bytesPrecede : Bytes → Bytes → Bool
  | [], _ => true
  | _ :: _, [] => false
  | a :: s, b :: t => if a = b then bytesPrecede s t else a < b

/-- Whether a byte is a digit. -/
def isDigitByte (b : UInt8) : Bool := 48 ≤ b && b ≤ 57

/-- Whether a byte is a blank. -/
def isBlankByte (b : UInt8) : Bool := b = 32 || b = 9

def digitsValue (digits : Bytes) : Nat := digits.foldl (fun n b => n * 10 + (b.toNat - 48)) 0

/-- The number that a line begins with, in units of the twentieth decimal place. -/
def leadingNumber (line : Bytes) : Int :=
  let line := line.dropWhile isBlankByte
  let (negative, line) : Bool × Bytes := match line with
    | 45 :: rest => (true, rest)
    | line => (false, line)
  let whole := line.takeWhile isDigitByte
  let decimals := match line.dropWhile isDigitByte with
    | 46 :: rest => (rest.takeWhile isDigitByte).take 20
    | _ => []
  let units := digitsValue (whole ++ decimals ++ List.replicate (20 - decimals.length) 48)
  if negative then -(units : Int) else units

def foldLine (line : Bytes) : Bytes := line.map fun b => if 97 ≤ b && b ≤ 122 then b - 32 else b

/-- How lines are compared. -/
structure SortOrder where
  numeric : Bool
  fold : Bool
  skipsBlanks : Bool
  reverse : Bool
  unique : Bool
  stable : Bool
deriving DecidableEq, Repr

/-- A line with what of it is compared first. -/
structure SortItem where
  line : Bytes
  number : Int
  key : Bytes
deriving DecidableEq, Repr

namespace SortOrder

def ofOptions (o : Options) : SortOrder where
  numeric := o.has 'n'
  fold := o.has 'f'
  skipsBlanks := o.has 'b'
  reverse := o.has 'r'
  unique := o.has 'u'
  stable := o.has 's'

/-- A line with what of it is compared first: the number it begins with, or its bytes. -/
def item (o : SortOrder) (line : Bytes) : SortItem :=
  if o.numeric then ⟨line, leadingNumber line, []⟩
  else
    let key := if o.skipsBlanks then line.dropWhile isBlankByte else line
    ⟨line, 0, if o.fold then foldLine key else key⟩

/-- Whether two lines are equal in what is compared first. -/
def same (a b : SortItem) : Bool := a.number == b.number && a.key == b.key

/-- Whether a line may stand before another. Lines that are equal in what is compared first are
ordered by their bytes, unless they keep their order or only one of them is kept. -/
def precedes (o : SortOrder) (a b : SortItem) : Bool :=
  let (a, b) := if o.reverse then (b, a) else (a, b)
  if same a b then o.unique || o.stable || bytesPrecede a.line b.line
  else if o.numeric then a.number ≤ b.number
  else bytesPrecede a.key b.key

/-- Keeps the first of each run of equal lines. -/
def dropRepeats : List SortItem → List SortItem
  | [] => []
  | [item] => [item]
  | a :: b :: rest =>
    match dropRepeats (b :: rest) with
    | [] => [a]
    | first :: kept => if same a b then a :: kept else a :: first :: kept

def arrange (o : SortOrder) (lines : List Bytes) : List Bytes :=
  let sorted := (lines.map o.item).mergeSort o.precedes
  (if o.unique then dropRepeats sorted else sorted).map SortItem.line

end SortOrder

/-- Writes the lines of its sources in order; it writes nothing if one of them cannot be read. -/
def sort : Program :=
  withOptions ['r', 'n', 'u', 'f', 'b', 's'] [] 2 fun o =>
    overSources o.operands fun c sources =>
      let fail (wording : String) (source : Source) : Reply :=
        complaint c (wording.toList ++
          nameAndReason source.name (source.error?.getD .notFound)) 2
      match sources.find? fun source => !source.isOpen, sources.find? (·.error?.isSome) with
      | some source, _ => fail "cannot read: " source
      | none, some source => fail "read failed: " source
      | none, none =>
        { output := unlines ((SortOrder.ofOptions o).arrange
            (sources.flatMap fun source => byteLines source.bytes)) }

end CommandShell.Program
