import CommandShell.Files.Walk
import CommandShell.Shell.Config
import CommandShell.Shell.Variables

/-!
The environment of a session: variables, the current directory with a stack of earlier ones, and
the history of lines.

Paths are taken as seen from the current directory, which is always a path without links. The
history keeps a fixed number of lines, the latest ones.
-/
namespace CommandShell

/-- The state of a session that commands see. -/
structure Environment where
  vars : Variables
  directory : Text
  /-- Directories to return to, the latest first. -/
  stack : List Text := []
  /-- Lines that were typed, the oldest first. -/
  history : List Text := []
  capacity : Nat
  user : Text
  machine : Text
  home : Text
deriving DecidableEq, Repr

/-- Why there is no directory to return to. -/
inductive PopError
  | empty
  | missing (path : Text)
deriving DecidableEq, Repr

def PopError.message : PopError → Text
  | .empty => "Directory stack is empty".toList
  | .missing path => "Cannot find path: ".toList ++ path

namespace Environment

/-- The name of the variable that holds the template of the prompt. -/
def promptName : Text := "PROMPT".toList

/-- The environment of a new session, from the variables of the process it runs in. -/
def start (config : Config) (inherited : List (Text × Text)) (directory machine : Text) :
    Environment :=
  let vars := Variables.setAll {} inherited
  let value? (name : String) : Option Text := vars.get? name.toList
  { vars := vars.set promptName config.prompt
    directory
    capacity := max config.historyCapacity 1
    user := ((value? "USER").or (value? "USERNAME")).getD "user".toList
    machine
    home := ((value? "HOME").or (value? "USERPROFILE")).getD directory }

def get? (e : Environment) (name : Text) : Option Text := e.vars.get? name

def set (e : Environment) (name value : Text) : Environment :=
  { e with vars := e.vars.set name value }

def resolve (e : Environment) (path : Text) : Text := Path.join e.directory path

/-- The environment in another directory, if the path leads to one. -/
def changeDirectory? (e : Environment) (files : Files) (path : Text) : Option Environment :=
  match files.canonical (e.resolve path) with
  | .ok directory => if files.isDirectory directory then some { e with directory } else none
  | .error _ => none

/-- The environment in another directory, with the current one to return to. -/
def pushDirectory? (e : Environment) (files : Files) (path : Text) : Option Environment :=
  (e.changeDirectory? files path).map fun changed =>
    { changed with stack := e.directory :: e.stack }

/-- Returns to the directory that was left last. One that is gone is forgotten. -/
def popDirectory (e : Environment) (files : Files) : Environment × Except PopError Text :=
  match e.stack with
  | [] => (e, .error .empty)
  | directory :: stack =>
    if files.isDirectory directory then ({ e with directory, stack }, .ok directory)
    else ({ e with stack }, .error (.missing directory))

/-- The last `count` items of a list. -/
def lastItems (count : Nat) (items : List α) : List α := items.drop (items.length - count)

/-- Adds a line to the history, unless it is blank. -/
def addHistory (e : Environment) (line : Text) : Environment :=
  if Text.allBlank line then e
  else { e with history := lastItems e.capacity (e.history ++ [line]) }

def promptTemplate (e : Environment) : Text := (e.get? promptName).getD defaultPrompt

end Environment

end CommandShell
