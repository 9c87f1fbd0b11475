import CommandShell.Text.Basic

/-!
Quoting: which characters of a line stand inside a quoted span.

A span is opened by a single or double quote and closed by the same character; a quote right after
a backslash does neither. Segments, words and unquoting all read this one scan, so they agree on
what a delimiter is.
-/
namespace CommandShell.Line

/-- Where a scan stands: the quote that opened the current span, if it is in one, and the character
read last. -/
structure Scan where
  opened : Option Char := none
  last : Option Char := none
deriving DecidableEq, Repr

def isQuote (c : Char) : Bool := c == '"' || c == '\''

namespace Scan

/-- Whether the character read next opens or closes a span. -/
def toggles (s : Scan) (c : Char) : Bool :=
  isQuote c && s.last != some '\\' &&
    match s.opened with
    | none => true
    | some q => q == c

def read (s : Scan) (c : Char) : Scan where
  opened := if s.toggles c then (if s.opened.isNone then some c else none) else s.opened
  last := some c

/-- Whether the scan stands inside a quoted span. -/
def inside (s : Scan) : Bool := s.opened.isSome

def readAll (s : Scan) (text : Text) : Scan := text.foldl read s

theorem readAll_append (s : Scan) (t u : Text) :
    s.readAll (t ++ u) = (s.readAll t).readAll u := List.foldl_append

end Scan

/-- Whether a text begins with a quote character. -/
def startsWithQuote : Text → Bool
  | [] => false
  | c :: _ => isQuote c

/-- `unquote` where the scan already stands at `s`. -/
def unquoteFrom (s : Scan) : Text → Text
  | [] => []
  | c :: rest =>
    if (c == '\\' && startsWithQuote rest) || s.toggles c then unquoteFrom (s.read c) rest
    else c :: unquoteFrom (s.read c) rest

/-- A word without the quotes that delimit spans and without the backslash before a quote; every
other character stays. -/
def unquote (word : Text) : Text := unquoteFrom {} word

theorem sublist_unquoteFrom (s : Scan) (word : Text) : (unquoteFrom s word).Sublist word := by
  fun_induction unquoteFrom s word with
  | case1 => exact .slnil
  | case2 _ _ _ _ ih => exact ih.cons _
  | case3 _ _ _ _ ih => exact ih.cons_cons _

/-- Unquoting only leaves characters out. -/
theorem sublist_unquote (word : Text) : (unquote word).Sublist word := sublist_unquoteFrom {} word

end CommandShell.Line
