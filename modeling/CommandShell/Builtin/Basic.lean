import CommandShell.Builtin.Arguments
import CommandShell.Shell.Result
import CommandShell.Shell.State
import CommandShell.Text.Blank

/-!
Built-in commands, and how they are declared.

A declared command is given the switches that its words begin with, literally, and all other words
as operands, whatever they look like. The one exception is a lone `--help`, literally, which shows
the usage of the commands that have one.
-/
namespace CommandShell

/-- What running a built-in command comes to. -/
inductive Answer
  | result (result : Result)
  /-- The process of the shell ends. -/
  | quits (code : Int)
  /-- The command broke off with a message, if it had one. -/
  | broke (message : Option Text)
deriving DecidableEq, Repr

/-- A built-in command. It is given its words with their quotes. -/
structure Builtin where
  name : Text
  description : Text
  run : List Text → State → State × Answer

/-- A named operand, and how it is read from a word. -/
structure Operand (α : Type) where
  name : Text
  doc : Text
  read : Text → Except NumeralError α

namespace Operand

def word (name doc : String) : Operand Text := ⟨name.toList, doc.toList, .ok⟩

def pid (doc : String) : Operand Nat := ⟨"pid".toList, doc.toList, Text.readNat 4294967295⟩

def code (doc : String) : Operand Int := ⟨"code".toList, doc.toList, Text.readInt 2147483647⟩

def readWord (o : Operand α) (word : Text) : Except OperandError α :=
  match o.read word with
  | .ok value => .ok value
  | .error cause => .error (.unreadable o.name word cause)

end Operand

/-- The operands of a command: how the usage shows them, and how they are read from words. -/
structure Signature (α : Type) where
  synopsis : Text
  /-- The operands that the usage explains. -/
  explained : List (Text × Text)
  read : List Text → Except OperandError α

namespace Signature

/-- Reads nothing from some words. -/
def readEnd (value : α) : List Text → Except OperandError α
  | [] => .ok value
  | word :: _ => .error (.unrecognized word)

/-- No operand. -/
def none : Signature Unit := ⟨[], [], readEnd ()⟩

/-- All words, however many. -/
def many (name : String) : Signature (List Text) :=
  ⟨" [".toList ++ name.toList ++ "...]".toList, [], .ok⟩

/-- Exactly one operand. -/
def one (o : Operand α) : Signature α where
  synopsis := " [--] <".toList ++ o.name ++ ['>']
  explained := [(o.name, o.doc)]
  read
    | [] => .error (.missing [o.name])
    | word :: rest => (o.readWord word).bind fun value => readEnd value rest

/-- One operand or none. -/
def optional (o : Operand α) : Signature (Option α) where
  synopsis := " [--] [<".toList ++ o.name ++ ">]".toList
  explained := [(o.name, o.doc)]
  read
    | [] => .ok .none
    | word :: rest => (o.readWord word).bind fun value => readEnd (some value) rest

/-- Exactly two operands. -/
def two (a : Operand α) (b : Operand β) : Signature (α × β) where
  synopsis := " [--] <".toList ++ a.name ++ "> <".toList ++ b.name ++ ['>']
  explained := [(a.name, a.doc), (b.name, b.doc)]
  read
    | [] => .error (.missing [a.name, b.name])
    | [word] => (a.readWord word).bind fun _ => .error (.missing [b.name])
    | first :: second :: rest =>
      (a.readWord first).bind fun x => (b.readWord second).bind fun y => readEnd (x, y) rest

def explanationColumn : Nat := 20

/-- A name and its explanation, one row of a usage. -/
def row (name doc : Text) : Text :=
  Text.line (Text.padRight explanationColumn (' ' :: ' ' :: name) ++ doc)

def table (heading : String) (rows : List (Text × Text)) : Text :=
  heading.toList ++ '\n' :: rows.flatMap fun (name, doc) => row name doc

def usage (s : Signature α) (name doc : Text) : Text :=
  "Usage: ".toList ++ name ++ s.synopsis ++ "\n\n".toList ++ doc ++ "\n\n".toList ++
    (if s.explained.isEmpty then []
      else table "Positional Arguments:" s.explained ++ ['\n']) ++
    table "Options:" [("--help, help".toList, "display usage information".toList)]

end Signature

namespace Builtin

/-- A command as it is declared: its switches, its operands, and what it does with both. -/
structure Declared (α : Type) where
  description : String
  doc : String
  /-- The switches that are options where the words begin with them. -/
  leading : List Text := []
  /-- Every spelling of a switch. -/
  flags : List Text := []
  /-- Whether a lone request for the usage is one. -/
  showsUsage : Bool := true
  signature : Signature α
  body : List Text → α → State → State × Answer
  /-- A leading switch is declared, and it can be nothing else, also when it is unquoted. -/
  spelled : ∀ switch ∈ leading,
    switch ∈ flags ∧ isOption switch ∧ Line.unquote switch = switch := by decide

/-- The answer where operands cannot be read. -/
def misread (error : OperandError) : Answer :=
  .result (Result.failure (Text.trimEnd error.message) 1)

namespace Declared
variable (d : Declared α)

/-- Runs the command on switches and operands. -/
def perform (switches operands : List Text) (s : State) : State × Answer :=
  match d.signature.read operands with
  | .ok value => d.body switches value s
  | .error error => (s, misread error)

/-- Runs the command on the words of a user, whose vector is read by some reader. -/
def runBy (reader : VectorReader) (name : Text) (words : List Text) (s : State) :
    State × Answer :=
  match reader d.flags (vector d.leading d.showsUsage words) with
  | .ok .usage => (s, .result (Result.ok (d.signature.usage name d.doc.toList)))
  | .ok (.given switches operands) => d.perform switches operands s
  | .error error => (s, misread error)

def builtin (name : Text) : Builtin where
  name
  description := d.description.toList
  run := d.runBy readVector name

/-- The command is given the switches that its words begin with, and every other word unquoted. -/
theorem runBy_eq {reader : VectorReader} (separates : Separates reader) (name : Text)
    {words : List Text}
    (other : d.showsUsage → words ≠ [helpWord]) (s : State) :
    d.runBy reader name words s =
      d.perform (words.takeWhile d.leading.contains)
        ((words.dropWhile d.leading.contains).map Line.unquote) s := by
  have stays : ∀ switch ∈ d.leading, Line.unquote switch = switch :=
    fun switch member => (d.spelled switch member).2.2
  have declared : ∀ switch ∈ words.takeWhile d.leading.contains,
      switch ∈ d.flags ∧ isOption switch := by
    intro switch member
    have leads := List.all_eq_true.1 List.all_takeWhile switch member
    obtain ⟨flag, option, -⟩ := d.spelled switch (List.contains_iff_mem.1 leads)
    exact ⟨flag, option⟩
  rw [runBy, vector_eq stays other, separates _ _ _ declared]

end Declared

/-- A command without switches. -/
def ofSignature (name : Text) (description doc : String) (signature : Signature α)
    (body : α → State → State × Answer) : Builtin :=
  Declared.builtin { description, doc, signature, body := fun _ => body } name

/-- Without switches all words are operands, unless they are a lone request for the usage. -/
theorem ofSignature_eq (name : Text) (description doc : String) (signature : Signature α)
    (body : α → State → State × Answer) :
    ofSignature name description doc signature body =
      { name
        description := description.toList
        run := fun words s =>
          if words = [helpWord] then
            (s, .result (Result.ok (signature.usage name doc.toList)))
          else
            match signature.read (words.map Line.unquote) with
            | .ok operands => body operands s
            | .error error => (s, misread error) } := by
  let d : Declared α := { description, doc, signature, body := fun _ => body }
  have run : d.runBy readVector name = fun words s =>
      if words = [helpWord] then (s, .result (Result.ok (signature.usage name doc.toList)))
      else d.perform [] (words.map Line.unquote) s := by
    funext words s
    split
    · next help =>
      rw [help]
      rfl
    · next other =>
      have all : words.dropWhile ([] : List Text).contains = words := by cases words <;> rfl
      have none : words.takeWhile ([] : List Text).contains = [] := by cases words <;> rfl
      rw [d.runBy_eq separates_readVector name (fun _ => other) s, all, none]
  exact congrArg (Builtin.mk name description.toList) run

/-- An answer that changes nothing else. -/
def reply (s : State) (result : Result) : State × Answer := (s, .result result)

/-- Output that changes nothing else. -/
def say (s : State) (output : Text) : State × Answer := reply s (Result.ok output)

/-- A failure that changes nothing else. -/
def refuse (s : State) (error : Text) : State × Answer := reply s (Result.failure error 1)

def because (context : Text) (cause : IoError) : Text := context ++ ": ".toList ++ cause.message

/-- The result of a command, where breaking off counts as a failure that names the command. -/
def Answer.contained (name : Text) : Answer → Answer
  | .broke message =>
    .result (Result.failure (name ++ ": internal error: ".toList ++
      message.getD "unknown panic".toList) 1)
  | answer => answer

/-- Runs a command; one that breaks off fails. -/
def invoke (b : Builtin) (words : List Text) (s : State) : State × Answer :=
  let (s, answer) := b.run words s
  (s, Answer.contained b.name answer)

end Builtin

end CommandShell
