import CommandShell.Text.Utf8

/-!
Names in the messages of utilities: quoted for a command line, or with escapes.

A name is quoted for a command line so that it could be pasted into one; an escaped one shows what
could not be seen.
-/
namespace CommandShell.Program

/-- Whether a character stands for itself on a command line. -/
def isInert (c : Char) : Bool := c.isAlphanum || "%+,-./:@]_".toList.contains c

/-- Whether a character may stand between double quotes beside a single quote. -/
def isTame (c : Char) : Bool := isInert c || " #~'".toList.contains c

/-- Whether a character is in plain sight: anything but a character of ASCII that can be printed
is not. -/
def isSeen (c : Char) : Bool := ' ' ≤ c && c ≤ '~'

def octalEscape (b : UInt8) : Text :=
  let digit (n : Nat) : Char := Char.ofNat ('0'.toNat + n % 8)
  ['\\', digit (b.toNat / 64), digit (b.toNat / 8), digit b.toNat]

/-- A character that cannot be seen, with escapes. -/
def escapeUnseen (c : Char) : Text :=
  if c == '\n' then ['\\', 'n']
  else if c == '\t' then ['\\', 't']
  else if c == '\r' then ['\\', 'r']
  else (Text.encode [c]).flatMap octalEscape

/-- The rest of a text between single quotes; what cannot be seen is between quotes of its own
after a dollar sign, and `escaped` says that those are open. -/
def quoteRest : (escaped : Bool) → Text → Text
  | _, [] => ['\'']
  | escaped, c :: rest =>
    if isSeen c then
      let reopen := if escaped then ['\'', '\''] else []
      reopen ++ (if c == '\'' then "'\\''".toList else [c]) ++ quoteRest false rest
    else (if escaped then [] else ['\'', '$', '\'']) ++ escapeUnseen c ++ quoteRest true rest

/-- A text between quotes, for a command line. -/
def quoteAlways (s : Text) : Text :=
  if s.contains '\'' && s.all isTame then '"' :: s ++ ['"'] else '\'' :: quoteRest false s

/-- A text as it is written on a command line. A hash sign or tilde matters only at the start, a
brace only on its own. -/
def quoteIfNeeded (s : Text) : Text :=
  let isPlain (c : Char) : Bool := isInert c || c == '#' || c == '~' || c == '\x7b' || c == '\x7d'
  match s with
  | [] => quoteAlways s
  | [c] => if isInert c then s else quoteAlways s
  | c :: rest =>
    if c != '#' && c != '~' && (c :: rest).all isPlain then s else quoteAlways s

/-- A text between single quotes; a quote or backslash has a backslash before it, and what cannot
be seen is escaped. -/
def quoteEscaped (s : Text) : Text :=
  '\'' :: s.flatMap (fun c =>
    if c == '\'' || c == '\\' then ['\\', c] else if isSeen c then [c] else escapeUnseen c) ++
    ['\'']

end CommandShell.Program
