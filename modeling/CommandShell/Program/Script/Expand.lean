import CommandShell.Program.Script.Syntax

/-!
Expansion of the words of a script to fields.

A value that is not quoted is split at blanks; quoted text never is, and makes a field even where
it is empty. The quoted parameters `"$@"` make one field each.
-/
namespace CommandShell.Program.Script

/-- What the words of a script are expanded with. -/
structure Values where
  vars : List (Text × Text)
  name : Text
  parameters : List Text
  status : Nat
  pid : Nat
deriving DecidableEq, Repr

/-- The value of a variable or special parameter; an unset one is empty. -/
def Values.value (v : Values) (name : Text) : Text :=
  match name with
  | ['?'] => Text.ofNat v.status
  | ['#'] => Text.ofNat v.parameters.length
  | ['$'] => Text.ofNat v.pid
  | ['@'] | ['*'] => Text.unwords v.parameters
  | ['0'] => v.name
  | [c] =>
    if c.isDigit then (v.parameters[Text.digitValue c - 1]?).getD []
    else (v.vars.lookup name).getD []
  | _ => (v.vars.lookup name).getD []

/-- Fields that are complete, and the one being put together. -/
structure Fields where
  complete : List Text := []
  pending : Option Text := none
deriving DecidableEq, Repr

namespace Fields

def add (f : Fields) (text : Text) : Fields :=
  { f with pending := some (f.pending.getD [] ++ text) }

def close (f : Fields) : Fields := ⟨f.complete ++ f.pending.toList, none⟩

/-- Whether a character splits fields. -/
def isSplit (c : Char) : Bool := c == ' ' || c == '\t' || c == '\n'

def addSplit (f : Fields) : Text → Fields
  | [] => f
  | c :: rest => if isSplit c then f.close.addSplit rest else (f.add [c]).addSplit rest

/-- Adds some texts as fields of their own; the first and the last join what stands beside them. -/
def addEach (f : Fields) : List Text → Fields
  | [] => f
  | [text] => f.add text
  | text :: rest => (f.add text).close.addEach rest

def addPiece (v : Values) (f : Fields) : Piece → Fields
  | .plain text | .quoted text => f.add text
  | .variable ['@'] true => f.addEach v.parameters
  | .variable name true => f.add (v.value name)
  | .variable name false => f.addSplit (v.value name)

end Fields

def expandWord (v : Values) (word : Word) : List Text :=
  (word.foldl (Fields.addPiece v) {}).close.complete

def expandWords (v : Values) (words : List Word) : List Text := words.flatMap (expandWord v)

/-- A word as one text, which is not split. -/
def expandWhole (v : Values) (word : Word) : Text :=
  word.flatMap fun
    | .plain text | .quoted text => text
    | .variable name _ => v.value name

def assignment? : Word → Option (Text × Word)
  | .plain text :: rest =>
    let name := text.takeWhile isNameChar
    match name, text.drop name.length with
    | c :: _, '=' :: value => if c.isDigit then none else some (name, .plain value :: rest)
    | _, _ => none
  | _ => none

/-- The assignments that some words begin with, and the other words. -/
def splitAssignments : List Word → List (Text × Word) × List Word
  | [] => ([], [])
  | word :: rest =>
    match assignment? word with
    | some item =>
      let (items, words) := splitAssignments rest
      (item :: items, words)
    | none => ([], word :: rest)

end CommandShell.Program.Script
