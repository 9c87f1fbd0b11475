import CommandShell.Line.Reference
import CommandShell.Line.Segment
import CommandShell.Line.Word

/-!
Parsed commands: a line as the commands between its unquoted pipes.

Each command holds the words before its first redirection and the last target of each direction.
The commands of a line form a list, the first one first; a blank rest after a pipe adds none.
-/
namespace CommandShell.Line

/-- Where a command's streams are redirected to, after expansion. An operator without a target
leaves none. -/
structure Redirects where
  input : Option Text := none
  output : Option Text := none
  append : Bool := false
deriving DecidableEq, Repr

namespace Redirects

def set (r : Redirects) (op : Operator) (target : Option Text) : Redirects :=
  match op with
  | .input => { r with input := target }
  | .append => { r with output := target, append := true }
  | .output | .pipe => { r with output := target, append := false }

/-- Reads the operators of a command in order; the text right after an operator is its target
unless it is blank. -/
def read (value? : Text → Option Text) (r : Redirects) : List Segment → Redirects
  | [] => r
  | .text _ :: rest => read value? r rest
  | .operator op _ :: .text content :: rest =>
    let target := if Text.allBlank content then none else some (expand value? (Text.trim content))
    read value? (r.set op target) rest
  | .operator op _ :: rest => read value? (r.set op none) rest

end Redirects

/-- One command of a line. -/
structure Command where
  /-- The line from the start of this command to its end. -/
  raw : Text
  /-- The first word; empty if there is none. -/
  name : Text
  /-- The other words, with their quotes. -/
  arguments : List Text
  redirects : Redirects
deriving DecidableEq, Repr

/-- The text of a command before its first operator. -/
def plainText : List Segment → Text
  | .text content :: rest => content ++ plainText rest
  | _ => []

def Command.ofSegments (value? : Text → Option Text) (raw : Text) (segments : List Segment) :
    Command :=
  let words := words (expand value? (plainText segments))
  { raw
    name := words.headD []
    arguments := words.tail
    redirects := Redirects.read value? {} segments }

/-- What some segments say: those before the first pipe, the text of all of them, and the commands
after the first pipe. -/
structure Outline where
  first : List Segment
  raw : Text
  later : List Command
deriving DecidableEq, Repr

/-- The command that an outline begins with and those after it, if its text is not blank. -/
def Outline.commands (value? : Text → Option Text) (o : Outline) : List Command :=
  if Text.allBlank o.raw then [] else Command.ofSegments value? o.raw o.first :: o.later

def outline (value? : Text → Option Text) : List Segment → Outline
  | [] => ⟨[], [], []⟩
  | segment :: rest =>
    let o := outline value? rest
    match segment with
    | .operator .pipe spelling => ⟨[], spelling ++ o.raw, o.commands value?⟩
    | other => ⟨other :: o.first, other.spelled ++ o.raw, o.later⟩

/-- The commands of a line, of which there are none exactly if the line is blank. -/
def parse (value? : Text → Option Text) (line : Text) : List Command :=
  (outline value? (segments line)).commands value?

theorem raw_outline (value? : Text → Option Text) (segments : List Segment) :
    (outline value? segments).raw = Segment.spelledAll segments := by
  induction segments with
  | nil => rfl
  | cons segment rest ih =>
    simp only [outline]
    split <;> simp [ih, Segment.spelled]

theorem parse_eq_nil_iff (value? : Text → Option Text) (line : Text) :
    parse value? line = [] ↔ Text.allBlank line := by
  unfold parse Outline.commands
  rw [raw_outline, spelledAll_segments]
  split <;> simp_all

end CommandShell.Line
