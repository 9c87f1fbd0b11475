import CommandShell.Line.Quote

/-!
Segments: a line cut at its unquoted operators.

An operator is one of `|`, `>` and `<`, or the same character twice. Each operator is a segment of
its own and the text between two operators is one segment, so the segments' texts concatenate to
the line.
-/
namespace CommandShell.Line

/-- What an operator asks for. -/
inductive Operator
  | pipe
  | output
  | append
  | input
deriving DecidableEq, Repr

namespace Operator

def ofChar? (c : Char) : Option Operator :=
  if c = '|' then some .pipe
  else if c = '>' then some .output
  else if c = '<' then some .input
  else none

/-- The operator spelled by the same character twice. Only `>` means something else doubled. -/
def doubled : Operator → Operator
  | .output => .append
  | op => op

end Operator

/-- A stretch of plain text, or an operator with its spelling. -/
inductive Segment
  | text (content : Text)
  | operator (op : Operator) (spelling : Text)
deriving DecidableEq, Repr

namespace Segment

def spelled : Segment → Text
  | text content => content
  | operator _ spelling => spelling

def spelledAll (segments : List Segment) : Text := segments.flatMap spelled

@[simp] theorem spelledAll_nil : spelledAll [] = [] := rfl

@[simp] theorem spelledAll_cons (segment : Segment) (rest : List Segment) :
    spelledAll (segment :: rest) = segment.spelled ++ spelledAll rest := rfl

/-- Puts a plain character before some segments, in the text they begin with if they begin with
one. -/
def consChar (c : Char) : List Segment → List Segment
  | text content :: rest => text (c :: content) :: rest
  | rest => text [c] :: rest

@[simp] theorem spelledAll_consChar (c : Char) (segments : List Segment) :
    spelledAll (consChar c segments) = c :: spelledAll segments := by
  unfold consChar
  split <;> rfl

end Segment

/-- `segments` where the scan already stands at `s`. -/
def segmentsFrom (s : Scan) : Text → List Segment
  | [] => []
  | [c] =>
    match Operator.ofChar? c with
    | some op => if s.inside then [.text [c]] else [.operator op [c]]
    | none => [.text [c]]
  | c :: d :: rest =>
    match Operator.ofChar? c with
    | some op =>
      if s.inside then Segment.consChar c (segmentsFrom (s.read c) (d :: rest))
      else if d = c then .operator op.doubled [c, c] :: segmentsFrom (s.read c) rest
      else .operator op [c] :: segmentsFrom (s.read c) (d :: rest)
    | none => Segment.consChar c (segmentsFrom (s.read c) (d :: rest))

def segments (line : Text) : List Segment := segmentsFrom {} line

theorem spelledAll_segmentsFrom (s : Scan) (line : Text) :
    Segment.spelledAll (segmentsFrom s line) = line := by
  fun_induction segmentsFrom s line <;> simp_all [Segment.spelled]

theorem spelledAll_segments (line : Text) : Segment.spelledAll (segments line) = line :=
  spelledAll_segmentsFrom {} line

end CommandShell.Line
