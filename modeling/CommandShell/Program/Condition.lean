import CommandShell.Program.Quoting
import CommandShell.Program.Run
import CommandShell.Text.Number

/-!
Conditions on texts, numbers and files, as `test` and `[` decide them.

The grammar is the usual one: `-o` binds weakest, then `-a`, then `!`. The number of words decides
short expressions, so an operator can also be an operand.
-/
namespace CommandShell.Program.Condition

/-- Why a condition has no answer. -/
inductive Fault
  | missing (argument : Text)
  /-- A word that does not belong to the condition, after the last one that does. -/
  | unexpected (last word : Text)
  | notInteger (word : Text)
deriving DecidableEq, Repr

/-- The wording of a fault in a condition of so many words. -/
def Fault.message (count : Nat) : Fault → Text
  | .missing argument => "missing argument after ".toList ++ quoteEscaped argument
  | .unexpected _ word =>
    if count = 2 then "missing argument after ".toList ++ quoteEscaped word
    else if count = 3 then quoteEscaped word ++ ": binary operator expected".toList
    else "extra argument ".toList ++ quoteEscaped word
  | .notInteger word => "invalid integer ".toList ++ quoteEscaped word

def contentAt (c : Call) (follow : Bool) (path : Text) : Option Node :=
  match c.files.locate follow (Path.join c.directory path) with
  | .ok place => c.files.nodes[place.id]?
  | .error _ => none

def unary? (c : Call) (op word : Text) : Option Bool :=
  let node := contentAt c true word
  match op with
  | ['-', 'n'] => some !word.isEmpty
  | ['-', 'z'] => some word.isEmpty
  | ['-', 'e'] | ['-', 'r'] | ['-', 'w'] => some node.isSome
  | ['-', 'f'] =>
    some (node.any fun n => match n.content with | .file _ => true | _ => false)
  | ['-', 'd'] =>
    some (node.any fun n => match n.content with | .directory _ => true | _ => false)
  | ['-', 'L'] | ['-', 'h'] =>
    some ((contentAt c false word).any fun n => match n.content with | .link _ => true | _ => false)
  | ['-', 's'] =>
    some (node.any fun n => match n.content with | .file bytes => !bytes.isEmpty | _ => true)
  | ['-', 'x'] => some (node.any Node.isExecutable)
  | _ => none

/-- An integer operand, blanks around it allowed. -/
def integer (word : Text) : Except Fault Int :=
  match Text.readInt 9223372036854775807 ((word.dropWhile (· == ' ')).takeWhile (· != ' ')) with
  | .ok n => .ok n
  | .error _ => .error (.notInteger word)

def compare (holds : Int → Int → Bool) (a b : Text) : Except Fault Bool :=
  match integer a, integer b with
  | .ok a, .ok b => .ok (holds a b)
  | .error fault, _ => .error fault
  | _, .error fault => .error fault

def binary? (op a b : Text) : Option (Except Fault Bool) :=
  match op with
  | ['='] | ['=', '='] => some (.ok (a == b))
  | ['!', '='] => some (.ok (a != b))
  | ['-', 'e', 'q'] => some (compare (· == ·) a b)
  | ['-', 'n', 'e'] => some (compare (· != ·) a b)
  | ['-', 'l', 't'] => some (compare (· < ·) a b)
  | ['-', 'l', 'e'] => some (compare (· ≤ ·) a b)
  | ['-', 'g', 't'] => some (compare (· > ·) a b)
  | ['-', 'g', 'e'] => some (compare (· ≥ ·) a b)
  | _ => none

/-- The condition that some words begin with, without connectives, and the words after it. -/
def term (c : Call) (words : List Text) : Except Fault (Bool × List Text) :=
  match words with
  | [] => .error (.missing [])
  | [word] => .ok (!word.isEmpty, [])
  | a :: op :: b :: rest =>
    match binary? op a b with
    | some (.ok answer) => .ok (answer, rest)
    | some (.error fault) => .error fault
    | none =>
      match unary? c a op with
      | some answer => .ok (answer, b :: rest)
      | none => .ok (!a.isEmpty, op :: b :: rest)
  | [op, word] =>
    match unary? c op word with
    | some answer => .ok (answer, [])
    | none => .ok (!op.isEmpty, [word])

def negated (c : Call) : List Text → Except Fault (Bool × List Text)
  | ['!'] :: word :: rest =>
    match binary? word ['!'] (rest.headD []) with
    | some _ =>
      if rest.isEmpty then invert (negated c (word :: rest)) else term c (['!'] :: word :: rest)
    | none => invert (negated c (word :: rest))
  | words => term c words
where
  /-- The opposite answer. -/
  invert (r : Except Fault (Bool × List Text)) : Except Fault (Bool × List Text) :=
    r.map fun (answer, rest) => (!answer, rest)

def endsBefore (words rest : List Text) : Fault :=
  .unexpected ((words[words.length - rest.length - 1]?).getD []) (rest.headD [])

/-- Joins conditions; `any` and `all` are the answers of the alternatives and of the conjunction
read so far, `words` are all words and `rest` those still to be read. -/
def joined (c : Call) (words : List Text) :
    (rounds : Nat) → (any all : Bool) → (rest : List Text) → Except Fault Bool
  | 0, _, _, rest => .error (endsBefore words rest)
  | rounds + 1, any, all, rest =>
    match negated c rest with
    | .error fault => .error fault
    | .ok (answer, []) => .ok (any || (all && answer))
    | .ok (answer, ['-', 'a'] :: rest) => joined c words rounds any (all && answer) rest
    | .ok (answer, ['-', 'o'] :: rest) => joined c words rounds (any || (all && answer)) true rest
    | .ok (_, rest) => .error (endsBefore words rest)

/-- Whether a condition holds. No words never do. -/
def holds (c : Call) (words : List Text) : Except Fault Bool :=
  if words.isEmpty then .ok false else joined c words words.length false true words

end CommandShell.Program.Condition
