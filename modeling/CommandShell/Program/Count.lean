import CommandShell.Program.Source

/-!
The filter `wc`: how many lines, words and bytes its sources have.
-/
namespace CommandShell.Program

/-- Whether a byte ends a word. -/
def isSpaceByte (b : UInt8) : Bool := b = 32 || (9 ≤ b && b ≤ 13)

/-- Whether a byte can be seen. One that cannot be seen neither starts nor ends a word. -/
def isVisibleByte (b : UInt8) : Bool := 33 ≤ b && b ≤ 126

/-- The number of words in some bytes; `inWord` says that the bytes before end within one. -/
def countWords : (inWord : Bool) → Bytes → Nat
  | _, [] => 0
  | inWord, b :: rest =>
    if isSpaceByte b then countWords false rest
    else if !inWord && isVisibleByte b then 1 + countWords true rest
    else countWords inWord rest

/-- The columns that a line fills; tabs go to the next multiple of eight. -/
def lineWidth (line : Bytes) : Nat :=
  line.foldl (fun column b =>
    if b = 9 then column + (8 - column % 8)
    else if 32 ≤ b && b ≤ 126 then column + 1 else column) 0

/-- The counts of some bytes that are asked for, in their order. -/
def counts (o : Options) (bytes : Bytes) : List Nat :=
  let all := !(['l', 'w', 'c', 'm', 'L'].any o.has)
  (if all || o.has 'l' then [bytes.count Drain.newline] else []) ++
    (if all || o.has 'w' then [countWords false bytes] else []) ++
    (if o.has 'm' then [bytes.length] else []) ++
    (if all || o.has 'c' then [bytes.length] else []) ++
    (if o.has 'L' then [((byteLines bytes).map lineWidth).foldl max 0] else [])

/-- The last row: sums, and the largest width of a line. -/
def totals (o : Options) (rows : List (List Nat)) : List Nat :=
  let columns := (counts o []).length
  (List.range columns).map fun i =>
    let column := rows.map fun row => row[i]?.getD 0
    if o.has 'L' && i + 1 = columns then column.foldl max 0 else column.foldl (· + ·) 0

/-- One row of counts, each filled to a width, and the name they belong to. -/
def countRow (width : Nat) (numbers : List Nat) (name : Text) : Text :=
  let cells := numbers.map fun n => Text.padLeft width (Text.ofNat n)
  Text.line (Text.unwords (if name.isEmpty then cells else cells ++ [name]))

/-- The width of the counts: a lone count has none to spare, and the size of what is no regular
file is not known before. -/
def countWidth (o : Options) (sources : List Source) : Nat :=
  if sources.length = 1 && (counts o []).length = 1 then 1
  else
    let isUnknown (source : Source) : Bool :=
      source.isOpen && (source.error?.isSome || source.name.isEmpty || source.name == inputOperand)
    let size := Text.ofNat ((sources.map fun source => source.bytes.length).foldl (· + ·) 0)
    if sources.any isUnknown then max 7 size.length else size.length

/-- Counts the lines, words and bytes of its sources. -/
def wc : Program :=
  withOptions ['l', 'w', 'c', 'm', 'L'] [] 1 fun o =>
    overSources o.operands <| replyTo nameAndReason fun sources =>
      let rows := (sources.filter Source.isOpen).map fun source =>
        (source.name, counts o source.bytes)
      let rows :=
        if sources.length ≤ 1 then rows
        else rows ++ [("total".toList, totals o (rows.map Prod.snd))]
      Text.encode (rows.flatMap fun row => countRow (countWidth o sources) row.2 row.1)

end CommandShell.Program
