import CommandShell.Text.Utf8
import CommandShell.Text.Number

/-!
The text of a script: words, operators, and the commands they make up.

The language is that of simple commands with assignments and redirections, joined by pipes, `&&`,
`||`, `;` and newlines; a `&` counts as `;`. A word is kept as its pieces, because quoting decides
how the value of a variable is split.
-/
namespace CommandShell.Program.Script

/-- A piece of a word. -/
inductive Piece
  | plain (text : Text)
  | quoted (text : Text)
  | variable (name : Text) (quoted : Bool)
deriving DecidableEq, Repr

/-- A word, in pieces. -/
abbrev Word := List Piece

/-- A redirection operator. -/
inductive Arrow
  | write (append : Bool)
  | read
  /-- Makes one stream go where another one goes. -/
  | share
deriving DecidableEq, Repr

/-- A token. -/
inductive Token
  | word (word : Word)
  /-- A redirection of a stream; the next word is its target. -/
  | arrow (stream : Nat) (arrow : Arrow)
  | pipe
  | both
  | either
  | stop
  | newline
deriving DecidableEq, Repr

/-- Why a script cannot be read. -/
inductive Fault
  | unterminated
  | unexpected (wording : Text)
deriving DecidableEq, Repr

def Fault.message : Fault → Text
  | .unterminated => "Syntax error: Unterminated quoted string".toList
  | .unexpected wording => "Syntax error: ".toList ++ wording ++ " unexpected".toList

/-- What the characters being read belong to. -/
inductive Mode
  | plain
  | single
  /-- Between double quotes; `fresh` says that nothing has been read since the first one. -/
  | double (fresh : Bool)
  | comment
deriving DecidableEq, Repr

/-- Tokens read so far, last first, and the word being read, its last piece first. -/
structure Reader where
  tokens : List Token := []
  word : Option Word := none
  mode : Mode := .plain
deriving DecidableEq, Repr

namespace Reader

/-- Adds a piece to the word being read; characters of one kind are put together. -/
def addPiece (r : Reader) (piece : Piece) : Reader :=
  { r with
    word := some (match r.word.getD [], piece with
      | .plain a :: rest, .plain b => .plain (a ++ b) :: rest
      | .quoted a :: rest, .quoted b => .quoted (a ++ b) :: rest
      | pieces, piece => piece :: pieces) }

def endWord (r : Reader) : Reader :=
  match r.word with
  | some pieces => { r with tokens := .word pieces.reverse :: r.tokens, word := none }
  | none => r

def addToken (r : Reader) (token : Token) : Reader :=
  let r := r.endWord
  { r with tokens := token :: r.tokens }

/-- Adds a redirection. A word of digits right before it is the number of its stream. -/
def addArrow (r : Reader) (stream : Nat) (arrow : Arrow) : Reader :=
  match r.word with
  | some [.plain digits] =>
    if digits.all Char.isDigit then
      let number := digits.foldl (fun n c => n * 10 + Text.digitValue c) 0
      { r with tokens := .arrow number arrow :: r.tokens, word := none }
    else r.addToken (.arrow stream arrow)
  | _ => r.addToken (.arrow stream arrow)

def enter (r : Reader) (mode : Mode) : Reader := { r with mode }

end Reader

/-- Whether a character may stand in the name of a variable. -/
def isNameChar (c : Char) : Bool := c.isAlphanum || c == '_'

/-- The name that follows a dollar sign, and how many characters it takes. -/
def readName (s : Text) : Option (Text × Nat) :=
  match s with
  | '\x7b' :: rest =>
    let name := rest.takeWhile (· != '\x7d')
    if name.isEmpty || rest.length = name.length then none else some (name, name.length + 2)
  | c :: rest =>
    if c.isDigit || ['?', '#', '$', '@', '*', '!', '-'].contains c then some ([c], 1)
    else if isNameChar c then
      let name := c :: rest.takeWhile isNameChar
      some (name, name.length)
    else none
  | [] => none

/-- The characters that a backslash takes the meaning from between double quotes. -/
def escapable : Text := ['$', '"', '\\', '\x60']

/-- Reads one character between double quotes, and tells how many more it takes. -/
def readDoubled (r : Reader) (fresh : Bool) (c : Char) (rest : Text) : Reader × Nat :=
  let r := r.enter (.double false)
  match c, rest with
  | '"', _ => ((if fresh then r.addPiece (.quoted []) else r).enter .plain, 0)
  | '\\', '\n' :: _ => (r, 1)
  | '\\', d :: _ =>
    if escapable.contains d then (r.addPiece (.quoted [d]), 1) else (r.addPiece (.quoted [c]), 0)
  | '$', _ =>
    match readName rest with
    | some (name, used) => (r.addPiece (.variable name true), used)
    | none => (r.addPiece (.quoted [c]), 0)
  | _, _ => (r.addPiece (.quoted [c]), 0)

/-- Reads one character outside quotes, and tells how many more it takes. -/
def readPlain (r : Reader) (c : Char) (rest : Text) : Reader × Nat :=
  match c, rest with
  | '\'', _ => ((r.addPiece (.quoted [])).enter .single, 0)
  | '"', _ => (r.enter (.double true), 0)
  | '\\', '\n' :: _ => (r, 1)
  | '\\', d :: _ => (r.addPiece (.quoted [d]), 1)
  | '$', _ =>
    match readName rest with
    | some (name, used) => (r.addPiece (.variable name false), used)
    | none => (r.addPiece (.plain [c]), 0)
  | '#', _ =>
    if r.word.isNone then (r.enter .comment, 0) else (r.addPiece (.plain [c]), 0)
  | ' ', _ | '\t', _ => (r.endWord, 0)
  | '\n', _ => (r.addToken .newline, 0)
  | ';', _ => (r.addToken .stop, 0)
  | '|', '|' :: _ => (r.addToken .either, 1)
  | '|', _ => (r.addToken .pipe, 0)
  | '&', '&' :: _ => (r.addToken .both, 1)
  | '&', _ => (r.addToken .stop, 0)
  | '>', '>' :: _ => (r.addArrow 1 (.write true), 1)
  | '>', '&' :: _ => (r.addArrow 1 .share, 1)
  | '>', _ => (r.addArrow 1 (.write false), 0)
  | '<', '&' :: _ => (r.addArrow 0 .share, 1)
  | '<', _ => (r.addArrow 0 .read, 0)
  | _, _ => (r.addPiece (.plain [c]), 0)

def readFrom : (skip : Nat) → Reader → Text → Reader
  | _, r, [] => r
  | skip + 1, r, _ :: rest => readFrom skip r rest
  | 0, r, c :: rest =>
    match r.mode with
    | .plain =>
      let (r, used) := readPlain r c rest
      readFrom used r rest
    | .single =>
      if c == '\'' then readFrom 0 (r.enter .plain) rest
      else readFrom 0 (r.addPiece (.quoted [c])) rest
    | .double fresh =>
      let (r, used) := readDoubled r fresh c rest
      readFrom used r rest
    | .comment =>
      if c == '\n' then readFrom 0 ((r.enter .plain).addToken .newline) rest
      else readFrom 0 r rest

def tokens (script : Text) : Except Fault (List Token) :=
  let r := readFrom 0 {} script
  match r.mode with
  | .single | .double _ => .error .unterminated
  | .plain | .comment => .ok r.endWord.tokens.reverse

/-- A simple command: its words, among them assignments, its redirections, and the line it stands
on. -/
structure Simple where
  words : List Word := []
  arrows : List (Nat × Arrow × Word) := []
  line : Nat := 1
deriving DecidableEq, Repr

/-- When a pipeline is run: always, or depending on the one before it. -/
inductive Condition
  | always
  | afterSuccess
  | afterFailure
deriving DecidableEq, Repr

/-- Commands joined by pipes. -/
structure Pipeline where
  condition : Condition
  negated : Bool
  stages : List Simple
deriving DecidableEq, Repr

/-- Pipelines read so far, last first, with the commands and the command being read. -/
structure Builder where
  pipelines : List Pipeline := []
  condition : Condition := .always
  stages : List Simple := []
  current : Simple := {}
  /-- The redirection whose target has not been read. -/
  arrow : Option (Nat × Arrow) := none
deriving DecidableEq, Repr

namespace Builder

/-- Whether the command being read has nothing in it. -/
def isIdle (b : Builder) : Bool := b.current.words.isEmpty && b.current.arrows.isEmpty

/-- Whether a command has to follow. -/
def isOwed (b : Builder) : Bool := !b.stages.isEmpty || b.condition != .always

def endCommand (b : Builder) : Builder :=
  { b with stages := b.stages ++ [b.current], current := { line := b.current.line } }

/-- Ends the pipeline being read; the next one runs under `condition`. -/
def endPipeline (b : Builder) (condition : Condition) : Builder :=
  let b := b.endCommand
  let (negated, stages) : Bool × List Simple := match b.stages with
    | first :: rest =>
      match first.words with
      | [.plain ['!']] :: words => (true, { first with words } :: rest)
      | _ => (false, b.stages)
    | [] => (false, [])
  { b with
    pipelines := ⟨b.condition, negated, stages⟩ :: b.pipelines
    condition
    stages := [] }

/-- The wording of a token that cannot stand where it does. -/
def wording : Token → Text
  | .word _ => "word".toList
  | .arrow .. => "redirection".toList
  | .pipe => "\"|\"".toList
  | .both => "\"&&\"".toList
  | .either => "\"||\"".toList
  | .stop => "\";\"".toList
  | .newline => "newline".toList

def read (b : Builder) (token : Token) : Except Fault Builder :=
  match b.arrow, token with
  | some (stream, arrow), .word target =>
    .ok { b with
      arrow := none
      current := { b.current with arrows := b.current.arrows ++ [(stream, arrow, target)] } }
  | some _, token => .error (.unexpected (wording token))
  | none, .word word =>
    .ok { b with current := { b.current with words := b.current.words ++ [word] } }
  | none, .arrow stream arrow => .ok { b with arrow := some (stream, arrow) }
  | none, .newline =>
    let next (b : Builder) : Builder :=
      { b with current := { b.current with line := b.current.line + 1 } }
    if b.isIdle then .ok (next b) else .ok (next (b.endPipeline .always))
  | none, token =>
    if b.isIdle then .error (.unexpected (wording token))
    else
      match token with
      | .pipe => .ok b.endCommand
      | .both => .ok (b.endPipeline .afterSuccess)
      | .either => .ok (b.endPipeline .afterFailure)
      | _ => .ok (b.endPipeline .always)

def readAll (b : Builder) : List Token → Except Fault Builder
  | [] => .ok b
  | token :: rest =>
    match b.read token with
    | .ok b => b.readAll rest
    | .error fault => .error fault

end Builder

def parse (script : Text) : Except Fault (List Pipeline) :=
  match tokens script with
  | .error fault => .error fault
  | .ok tokens =>
    match Builder.readAll {} tokens with
    | .error fault => .error fault
    | .ok b =>
      if b.arrow.isSome || (b.isIdle && b.isOwed) then
        .error (.unexpected "end of file".toList)
      else
        let b := if b.isIdle then b else b.endPipeline .always
        .ok b.pipelines.reverse

end CommandShell.Program.Script
