import CommandShell.Line.Quote
import CommandShell.Text.Number

/-!
Argument vectors: which words of a built-in command are switches and which are operands.

The words of a user are not read for options as they are. A vector is made of them in which a
separator stands after the switches that they begin with, so that whatever follows is an operand.
-/
namespace CommandShell

/-- Why operands cannot be read. -/
inductive OperandError
  | unrecognized (word : Text)
  | missing (names : List Text)
  | unreadable (name word : Text) (cause : NumeralError)
deriving DecidableEq, Repr

def OperandError.message : OperandError → Text
  | .unrecognized word => "Unrecognized argument: ".toList ++ word
  | .missing names =>
    "Required positional arguments not provided:".toList ++
      names.flatMap fun name => "\n    ".toList ++ name
  | .unreadable name word cause =>
    "Error parsing positional argument '".toList ++ name ++ "' with value '".toList ++ word ++
      "': ".toList ++ cause.message

namespace Builtin

def helpWord : Text := "--help".toList

/-- The words that ask for the usage where options are read. -/
def helpWords : List Text := [helpWord, "help".toList]

/-- The word that ends the options. -/
def separator : Text := ['-', '-']

/-- Whether a word can be a switch: it begins with a dash, and says nothing else about options. -/
def isOption (word : Text) : Bool :=
  word.head? == some '-' && word != separator && !helpWords.contains word

/-- What a vector is read as. -/
inductive Reading
  /-- It asks for the usage. -/
  | usage
  | given (switches operands : List Text)
deriving DecidableEq, Repr

def Reading.withSwitch (switch : Text) : Reading → Reading
  | .usage => .usage
  | .given switches operands => .given (switch :: switches) operands

/-- A way to read a vector, given the switches that a command declares. -/
abbrev VectorReader := (flags vector : List Text) → Except OperandError Reading

/-- Options are read up to the separator or to the first word that is none. -/
def readVector (flags : List Text) : List Text → Except OperandError Reading
  | [] => .ok (.given [] [])
  | word :: rest =>
    if helpWords.contains word then .ok .usage
    else if word == separator then .ok (.given [] rest)
    else if flags.contains word then (readVector flags rest).map (.withSwitch word)
    else if word.head? == some '-' then .error (.unrecognized word)
    else .ok (.given [] (word :: rest))

/-- A reader of vectors takes every word after the first separator for an operand, and lets declared
switches stand before it, also repeated. -/
def Separates (reader : VectorReader) : Prop :=
  ∀ flags switches operands, (∀ switch ∈ switches, switch ∈ flags ∧ isOption switch) →
    reader flags (switches ++ separator :: operands) = .ok (.given switches operands)

theorem separates_readVector : Separates readVector := by
  intro flags switches operands declared
  induction switches with
  | nil => rfl
  | cons switch rest ih =>
      obtain ⟨flag, option⟩ := declared switch List.mem_cons_self
      simp only [isOption, Bool.and_eq_true, bne_iff_ne, Bool.not_eq_true'] at option
      have read := ih fun s member => declared s (List.mem_cons_of_mem _ member)
      simp only [List.cons_append, readVector, option.2, Bool.false_eq_true, if_false,
        beq_eq_false_iff_ne.2 option.1.2, List.contains_iff_mem.2 flag, if_true, read]
      rfl

/-- The vector that is made of the words of a user: they are unquoted, and the separator stands
after the words that literally are switches, as far as the words begin with them. Only a lone
request for the usage stays one, where it may. -/
def vector (leading : List Text) (showsUsage : Bool) (words : List Text) : List Text :=
  if showsUsage ∧ words = [helpWord] then [helpWord]
  else
    (words.map Line.unquote).insertIdx (words.takeWhile leading.contains).length separator

variable {leading : List Text} {showsUsage : Bool}

/-- The switches are counted before unquoting and the separator is put in afterwards; it still
stands right after them. -/
theorem vector_eq (stays : ∀ switch ∈ leading, Line.unquote switch = switch) {words : List Text}
    (other : showsUsage → words ≠ [helpWord]) :
    vector leading showsUsage words =
      words.takeWhile leading.contains ++
        separator :: (words.dropWhile leading.contains).map Line.unquote := by
  rw [vector, if_neg fun h => other h.1 h.2]
  clear other
  induction words with
  | nil => rfl
  | cons word rest ih =>
      cases switch : leading.contains word with
      | true =>
          have same := stays word (List.contains_iff_mem.1 switch)
          rw [List.takeWhile_cons_of_pos switch, List.dropWhile_cons_of_pos switch, List.map_cons,
            same, List.length_cons, List.insertIdx_succ_cons, ih, List.cons_append]
      | false =>
          have ends : ¬leading.contains word = true := Bool.not_eq_true _ ▸ switch
          rw [List.takeWhile_cons_of_neg ends, List.dropWhile_cons_of_neg ends]
          rfl

end Builtin

end CommandShell
