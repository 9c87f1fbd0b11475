import CommandShell.Text.WordChar

/-!
References to variables: `$name`, `${name}` and `%name%`.

Expansion reads the text once from left to right. A reference to a variable that is not set stays
as it is written, and inserted values are not read again.
-/
namespace CommandShell.Line

/-- A reference found at the start of a text: the name it refers to and its spelling. -/
structure Reference where
  name : Text
  spelling : Text
deriving DecidableEq, Repr

/-- The longest run of word characters at the start of a text, and what follows it. -/
def spanName (s : Text) : Text × Text := (s.takeWhile Text.isWordChar, s.dropWhile Text.isWordChar)

/-- A name of at least one character that is followed by `close`. -/
def closedName? (close : Char) (s : Text) : Option Text :=
  match spanName s with
  | ([], _) => none
  | (name, c :: _) => if c = close then some name else none
  | (_, []) => none

/-- The reference that begins with the first character of a text. -/
def reference? : Text → Option Reference
  | '$' :: '\x7b' :: rest =>
    (closedName? '\x7d' rest).map fun name => ⟨name, '$' :: '\x7b' :: name ++ ['\x7d']⟩
  | '$' :: rest =>
    match (spanName rest).1 with
    | [] => none
    | name => some ⟨name, '$' :: name⟩
  | '%' :: rest => (closedName? '%' rest).map fun name => ⟨name, '%' :: name ++ ['%']⟩
  | _ => none

def expandFrom (value? : Text → Option Text) : (skip : Nat) → Text → Text
  | _, [] => []
  | skip + 1, _ :: rest => expandFrom value? skip rest
  | 0, c :: rest =>
    match reference? (c :: rest) with
    | none => c :: expandFrom value? 0 rest
    | some ref =>
      (value? ref.name).getD ref.spelling ++ expandFrom value? (ref.spelling.length - 1) rest

/-- A text with each reference to a set variable replaced by its value. -/
def expand (value? : Text → Option Text) (text : Text) : Text := expandFrom value? 0 text

end CommandShell.Line
