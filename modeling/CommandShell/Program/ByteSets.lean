import CommandShell.Program.Escape
import CommandShell.Program.Option
import CommandShell.Program.Quoting

/-!
Sets of bytes, and `tr`, which replaces, deletes and squeezes the bytes of such sets in its input.
-/
namespace CommandShell.Program

def byteRange (low high : UInt8) : Bytes :=
  (List.range (high.toNat + 1 - low.toNat)).map fun i => UInt8.ofNat (low.toNat + i)

/-- The bytes of a named class, in order. -/
def classBytes? (name : Text) : Option Bytes :=
  let all (p : Char → Bool) : Bytes :=
    (List.range 128).filterMap fun n => if p (Char.ofNat n) then some (UInt8.ofNat n) else none
  if name == "upper".toList then some (all Char.isUpper)
  else if name == "lower".toList then some (all Char.isLower)
  else if name == "alpha".toList then some (all Char.isAlpha)
  else if name == "digit".toList then some (all Char.isDigit)
  else if name == "alnum".toList then some (all Char.isAlphanum)
  else if name == "blank".toList then some [9, 32]
  else if name == "space".toList then some [9, 10, 11, 12, 13, 32]
  else if name == "cntrl".toList then some (byteRange 0 31 ++ [127])
  else if name == "print".toList then some (byteRange 32 126)
  else if name == "graph".toList then some (byteRange 33 126)
  else if name == "punct".toList then
    some (byteRange 33 47 ++ byteRange 58 64 ++ byteRange 91 96 ++ byteRange 123 126)
  else none

/-- One member of a set as it is written: some bytes, and how many characters spell them. -/
def readMember (s : Text) : Bytes × Nat :=
  match s with
  | '[' :: ':' :: rest =>
    match Text.cutAt? [':', ']'] rest with
    | some (name, _) =>
      match classBytes? name with
      | some bytes => (bytes, name.length + 4)
      | none => ([91], 1)
    | none => ([91], 1)
  | '\\' :: rest =>
    match readEscape {} rest with
    | (.bytes [92, b], used) => ([b], used + 1)
    | (.bytes bytes, used) => (bytes, used + 1)
    | (.stop, used) => ([99], used + 1)
  | c :: _ => (Text.encode [c], 1)
  | [] => ([], 0)

/-- The bytes of a set, in order, after `skip` more characters have been passed over. -/
def setFrom : (skip : Nat) → Text → Bytes
  | _, [] => []
  | skip + 1, _ :: rest => setFrom skip rest
  | 0, c :: rest =>
    let (bytes, used) := readMember (c :: rest)
    match bytes, (c :: rest).drop used with
    | [low], '-' :: d :: after =>
      match readMember (d :: after) with
      | ([high], more) => byteRange low high ++ setFrom (used + more) rest
      | _ => low :: setFrom (used - 1) rest
    | _, _ => bytes ++ setFrom (used - 1) rest

/-- The bytes of a set, in order. -/
def setBytes (s : Text) : Bytes := setFrom 0 s

/-- The byte that another one is replaced by; the last target stands for all that are missing. -/
def replaced (source target : Bytes) (b : UInt8) : UInt8 :=
  match source.reverse.findIdx? (· == b) with
  | none => b
  | some fromEnd => (target[source.length - 1 - fromEnd]?).getD (target.getLastD b)

/-- Keeps the first of each run of a byte in a set. -/
def squeeze (set : Bytes) : (last : Option UInt8) → Bytes → Bytes
  | _, [] => []
  | last, b :: rest =>
    if last == some b && set.contains b then squeeze set last rest
    else b :: squeeze set (some b) rest

/-- All bytes that a set does not have. -/
def complement (set : Bytes) : Bytes := (byteRange 0 255).filter fun b => !set.contains b

def operandFault? (o : Options) : Option Text :=
  let both := o.has 'd' && o.has 's'
  let fewest := if o.has 'd' = o.has 's' then 2 else 1
  let most := if o.has 'd' && !both then 1 else 2
  match o.operands with
  | [] => some "missing operand".toList
  | [first] =>
    if fewest = 1 then none
    else
      some ("missing operand after ".toList ++ quoteEscaped first ++
        (if both then "\nTwo strings must be given when both deleting and squeezing repeats."
          else "\nTwo strings must be given when translating.").toList)
  | operands =>
    match operands.drop most with
    | [] => none
    | extra :: _ =>
      some ("extra operand ".toList ++ quoteEscaped extra ++
        (if operands.length = 2 then
          "\nOnly one string may be given when deleting without squeezing repeats."
        else "").toList)

def replaceBytes (o : Options) (source target : Bytes) (bytes : Bytes) : Bytes :=
  let source := if o.has 't' then source.take target.length else source
  let bytes := bytes.map (replaced source target)
  if o.has 's' then squeeze target none bytes else bytes

/-- Replaces, deletes and squeezes bytes. -/
def tr : Program :=
  withOptions ['d', 's', 'c', 'C', 't'] [] 1 fun o =>
    let set (s : Text) : Bytes :=
      if o.has 'c' || o.has 'C' then complement (setBytes s) else setBytes s
    let keep (s : Text) (bytes : Bytes) : Bytes := bytes.filter fun b => !(set s).contains b
    let filtering (body : Bytes → Bytes) : Program := Program.draining fun c =>
      { output := body c.input.bytes }
    match operandFault? o with
    | some message => Program.immediate fun c => usageComplaint c message 1
    | none =>
      match o.has 'd', o.operands with
      | true, [gone] => filtering (keep gone)
      | true, gone :: repeated :: _ => filtering fun bytes =>
        squeeze (setBytes repeated) none (keep gone bytes)
      | _, [repeated] => filtering (squeeze (set repeated) none)
      | _, [_, []] => Program.immediate fun c =>
        complaint c "when not truncating set1, string2 must be non-empty".toList 1
      | _, source :: target :: _ => filtering (replaceBytes o (set source) (setBytes target))
      | _, [] => filtering id

end CommandShell.Program
