import CommandShell.Program.Source

/-!
The filters `head` and `tail`: so many lines or bytes at one end of a source, or all but them.
-/
namespace CommandShell.Program

/-- A part of a source at one of its ends. -/
structure Extent where
  /-- Counts bytes, not lines. -/
  inBytes : Bool := false
  count : Nat := 10
  /-- Counts from the other end: `head` leaves out the last ones, `tail` begins at the one of that
  number. -/
  opposite : Bool := false
deriving DecidableEq, Repr

namespace Extent

def parts (e : Extent) (bytes : Bytes) : List Bytes :=
  if e.inBytes then bytes.map fun b => [b] else Drain.pieces bytes

def first (e : Extent) (bytes : Bytes) : Bytes :=
  let parts := e.parts bytes
  (parts.take (if e.opposite then parts.length - e.count else e.count)).flatten

def last (e : Extent) (bytes : Bytes) : Bytes :=
  let parts := e.parts bytes
  (parts.drop (if e.opposite then e.count - 1 else parts.length - e.count)).flatten

def maxCount : Nat := 18446744073709551615

/-- The extent that options ask for, or a message. A count after `mark` counts from the other
end. -/
def ofOptions (mark : Char) (o : Options) : Except Text Extent :=
  let read (inBytes : Bool) (value : Text) : Except Text Extent :=
    let (opposite, digits) : Bool × Text := match value with
      | c :: rest => if c == mark then (true, rest) else (false, value)
      | [] => (false, [])
    let digits := if digits.head? == some '-' then digits.drop 1 else digits
    match Text.readNat maxCount digits with
    | .ok count => .ok { inBytes, count, opposite }
    | .error _ =>
      let unit := if inBytes then "bytes" else "lines"
      .error ("invalid number of ".toList ++ unit.toList ++ ": ".toList ++ quoteEscaped value)
  match o.value? 'c', o.value? 'n' with
  | some value, _ => read true value
  | none, some value => read false value
  | none, none => .ok {}

end Extent

/-- Reads a first argument such as `-5` as a count of lines. -/
def countArgument (c : Call) : Call :=
  match c.arguments with
  | ('-' :: d :: digits) :: rest =>
    if (d :: digits).all Char.isDigit then
      { c with arguments := ['-', 'n'] :: (d :: digits) :: rest }
    else c
  | _ => c

def heading (name : Text) : Bytes :=
  let name := if name.isEmpty || name == inputOperand then "standard input".toList else name
  Text.encode ("==> ".toList ++ name ++ " <==\n".toList)

/-- Parts of sources one after the other; each that can be opened has a heading if several were
asked for. -/
def headed (o : Options) (part : Bytes → Bytes) (sources : List Source) : Bytes :=
  let blocks := (sources.filter Source.isOpen).map fun source =>
    if o.has 'v' || (sources.length > 1 && !o.has 'q') then
      heading source.name ++ part source.bytes
    else part source.bytes
  let separator : Bytes :=
    if o.has 'v' || (sources.length > 1 && !o.has 'q') then [Drain.newline] else []
  List.intercalate separator blocks

/-- Writes the start of its sources. An endless input is read only as far as it has to be. -/
def head : Program := fun c =>
  withOptions ['q', 'v'] ['n', 'c'] 1 (fun o c =>
    match Extent.ofOptions '-' o with
    | .error message => ⟨(complaint c message 1).at 0, c.files, false⟩
    | .ok extent =>
      let reply := replyTo openOrRead (headed o extent.first)
      if c.input.isEndless && !extent.opposite && readsInput o.operands then
        let bytes := c.input.bytes ++ (List.replicate extent.count c.input.chunk).flatten
        ⟨(reply c (sources { c with input := { bytes } } o.operands)).at 0, c.files, true⟩
      else overSources o.operands reply c) (countArgument c)

def tail : Program := fun c =>
  withOptions ['q', 'v'] ['n', 'c'] 1 (fun o c =>
    match Extent.ofOptions '+' o with
    | .error message => ⟨(complaint c message 1).at 0, c.files, false⟩
    | .ok extent =>
      if extent.count = 0 && !extent.opposite then ⟨Reply.at {} 0, c.files, false⟩
      else overSources o.operands (replyTo openOrRead (headed o extent.last)) c) (countArgument c)

end CommandShell.Program
