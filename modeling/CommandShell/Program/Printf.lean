import CommandShell.Program.Escape
import CommandShell.Text.Number

/-!
Formatted output: a format with escapes and directives, used again until the arguments are used up.
-/
namespace CommandShell.Program.Printf

/-- A width or precision. -/
inductive Count
  | none
  | given (n : Nat)
  /-- Taken from the arguments. -/
  | argument
deriving DecidableEq, Repr

/-- One part of a format. -/
inductive Item
  | bytes (bytes : Bytes)
  /-- A directive as it is spelled, and what it says. -/
  | directive (spelling flags : Text) (width precision : Count) (conversion : Char)
  | stop
deriving DecidableEq, Repr

def flagChars : Text := ['-', '+', ' ', '#', '0']

/-- Reads a width or precision, and tells how many characters it takes. -/
def readCount (s : Text) : Count × Nat :=
  match s with
  | '*' :: _ => (.argument, 1)
  | s =>
    match s.takeWhile Char.isDigit with
    | [] => (.none, 0)
    | digits => (.given (digits.foldl (fun n c => n * 10 + (c.toNat - 48)) 0), digits.length)

/-- The directive after a percent sign, and how many characters it takes. -/
def readDirective (whole : Text) : Option (Item × Nat) :=
  let flags := whole.takeWhile flagChars.contains
  let s := whole.drop flags.length
  let (width, widthLength) := readCount s
  let s := s.drop widthLength
  let (precision, precisionLength) : Count × Nat := match s with
    | '.' :: rest =>
      match readCount rest with
      | (.none, _) => (.given 0, 1)
      | (count, used) => (count, used + 1)
    | _ => (.none, 0)
  match s.drop precisionLength with
  | [] => none
  | conversion :: _ =>
    let used := flags.length + widthLength + precisionLength + 1
    some (.directive ('%' :: whole.take used) flags width precision conversion, used)

/-- The escapes of a format, and those of an argument that is written with its escapes. -/
structure Dialect where
  format : EscapeStyle := {}
  argument : EscapeStyle := {}
deriving DecidableEq, Repr

/-- The parts of a format, after `skip` more characters have been passed over. -/
def itemsFrom (style : EscapeStyle) : (skip : Nat) → Text → List Item
  | _, [] => []
  | skip + 1, _ :: rest => itemsFrom style skip rest
  | 0, '%' :: rest =>
    match rest with
    | '%' :: _ => .bytes [37] :: itemsFrom style 1 rest
    | _ =>
      match readDirective rest with
      | some (item, used) => item :: itemsFrom style used rest
      | none => .bytes [37] :: itemsFrom style 0 rest
  | 0, '\\' :: rest =>
    match readEscape style rest with
    | (.stop, _) => [.stop]
    | (.bytes bytes, used) => .bytes bytes :: itemsFrom style used rest
  | 0, c :: rest => .bytes (Text.encode [c]) :: itemsFrom style 0 rest

def items (style : EscapeStyle) (format : Text) : List Item := itemsFrom style 0 format

/-- Whether a part takes an argument. -/
def Item.takesArgument : Item → Bool
  | .directive .. => true
  | _ => false

/-- What is wrong with an argument that should be a number, or with a directive. -/
inductive Complaint
  | notNumeric (argument : Text)
  | trailing (argument : Text)
  | unknown (directive : Text)
deriving DecidableEq, Repr

/-- Digits of a base at the start of a text: their value and their number. -/
def readDigits (base : Nat) (s : Text) : Nat × Nat :=
  let digits := s.takeWhile fun c => (hexValue? c).any (· < base)
  (digits.foldl (fun n c => n * base + (hexValue? c).getD 0) 0, digits.length)

/-- The number that an argument spells: decimal, octal after a zero, hexadecimal after `0x`, or
the code of the character after a quote. -/
def readNumber (argument : Text) : Int × List Complaint :=
  match argument with
  | '\'' :: c :: _ | '"' :: c :: _ => (c.toNat, [])
  | _ =>
    let s := argument.dropWhile Char.isWhitespace
    let (negative, s) : Bool × Text := match s with
      | '-' :: rest => (true, rest)
      | '+' :: rest => (false, rest)
      | s => (false, s)
    let (base, s) : Nat × Text := match s with
      | '0' :: x :: rest =>
        if (x == 'x' || x == 'X') && (rest.head?.bind hexValue?).isSome then (16, rest)
        else (8, '0' :: x :: rest)
      | s => (10, s)
    let (value, used) := readDigits base s
    let signed : Int := if negative then -(value : Int) else value
    if used = 0 then (0, if argument.isEmpty then [] else [.notNumeric argument])
    else if used < s.length then (signed, [.trailing argument])
    else (signed, [])

def fill (left : Bool) (width : Nat) (bytes : Bytes) : Bytes :=
  let blanks := List.replicate (width - bytes.length) 32
  if left then bytes ++ blanks else blanks ++ bytes

def digitsIn (base n : Nat) (upper : Bool) : Text :=
  let digits := Nat.toDigits base n
  if upper then digits.map Char.toUpper else digits

def numeral (flags : Text) (width : Nat) (precision : Option Nat) (conversion : Char) (n : Int) :
    Bytes :=
  let isSigned := conversion == 'd' || conversion == 'i'
  let magnitude : Nat :=
    if isSigned then n.natAbs else (n % 18446744073709551616).toNat
  let base := if conversion == 'o' then 8
    else if conversion == 'x' || conversion == 'X' then 16 else 10
  let digits := digitsIn base magnitude (conversion == 'X')
  let digits := List.replicate (precision.getD 1 - digits.length) '0' ++ digits
  let lead : Text :=
    if isSigned then
      if n < 0 then ['-']
      else if flags.contains '+' then ['+']
      else if flags.contains ' ' then [' '] else []
    else if flags.contains '#' && magnitude != 0 then
      if conversion == 'x' then ['0', 'x'] else if conversion == 'X' then ['0', 'X']
      else if conversion == 'o' then ['0'] else []
    else []
  let zeros :=
    if flags.contains '0' && !flags.contains '-' && precision.isNone then
      List.replicate (width - (lead.length + digits.length)) '0'
    else []
  fill (flags.contains '-') width (Text.encode (lead ++ zeros ++ digits))

/-- What has come of a format so far. -/
structure Progress where
  output : Bytes := []
  complaints : List Complaint := []
  left : List Text
  stopped : Bool := false
deriving DecidableEq, Repr

/-- Takes the next argument; a missing one is empty. -/
def Progress.next (p : Progress) : Text × Progress :=
  (p.left.headD [], { p with left := p.left.tail })

def Progress.count (p : Progress) : Count → Option Int × Progress
  | .none => (none, p)
  | .given n => (some n, p)
  | .argument =>
    let (argument, p) := p.next
    let (n, complaints) := if argument.isEmpty then (0, []) else readNumber argument
    (some n, { p with complaints := p.complaints ++ complaints })

def Progress.put (p : Progress) (bytes : Bytes) : Progress := { p with output := p.output ++ bytes }

/-- Whether a conversion writes a number. -/
def isNumeric (conversion : Char) : Bool := "diouxX".toList.contains conversion

def Item.run (dialect : Dialect) (p : Progress) (item : Item) : Progress :=
  if p.stopped then p
  else
    match item with
    | .bytes literal => p.put literal
    | .stop => { p with stopped := true }
    | .directive spelling flags width precision conversion =>
      let (width, p) := p.count width
      let (precision, p) := p.count precision
      let flags := if width.any (· < 0) then '-' :: flags else flags
      let width := (width.getD 0).natAbs
      let precision := precision.bind fun n => if n < 0 then none else some n.toNat
      let (argument, p) := p.next
      let cut (whole : Bytes) : Bytes := precision.elim whole whole.take
      match conversion with
      | 's' => p.put (fill (flags.contains '-') width (cut (Text.encode argument)))
      | 'c' =>
        let first : Bytes := if argument.isEmpty then [0] else (Text.encode argument).take 1
        p.put (fill (flags.contains '-') width first)
      | 'b' =>
        let (expanded, ended) := unescape dialect.argument argument
        { p.put (fill (flags.contains '-') width (cut expanded)) with stopped := ended }
      | _ =>
        if isNumeric conversion then
          let (n, complaints) := readNumber argument
          { p.put (numeral flags width precision conversion n) with
            complaints := p.complaints ++ complaints }
        else { p with complaints := p.complaints ++ [.unknown spelling], stopped := true }

/-- Uses a format until the arguments are used up, at most `rounds` more times. -/
def repeatFormat (dialect : Dialect) (items : List Item) : (rounds : Nat) → Progress → Progress
  | 0, p => p
  | rounds + 1, p =>
    let p := items.foldl (Item.run dialect) p
    if p.stopped || p.left.isEmpty then p else repeatFormat dialect items rounds p

/-- The output of a format with its arguments. A format without directives is used once. -/
def format (dialect : Dialect) (format : Text) (arguments : List Text) : Progress :=
  let items := items dialect.format format
  let start : Progress := { left := arguments }
  if items.any Item.takesArgument then repeatFormat dialect items (arguments.length + 1) start
  else items.foldl (Item.run dialect) start

end CommandShell.Program.Printf
