import CommandShell.Process.Status

/-!
Events: what is told about external processes while and after they run.
-/
namespace CommandShell

/-- Something that a process did. -/
inductive Event
  | outputLine (pid : Pid) (line : Text)
  | errorLine (pid : Pid) (line : Text)
  | jobCompleted (pid : Pid) (code : Int)
deriving DecidableEq, Repr

namespace Event

def pid : Event → Pid
  | outputLine pid _ | errorLine pid _ | jobCompleted pid _ => pid

def text : Event → Text
  | outputLine _ line | errorLine _ line => line
  | jobCompleted pid code =>
    "[Background job ".toList ++ Text.ofNat pid ++ " completed with exit code: ".toList ++
      Text.ofInt code ++ [']']

/-- What the events of one process say: its output lines, its error lines and its completions. -/
structure Account where
  output : List Text := []
  error : List Text := []
  completed : List Int := []
deriving DecidableEq, Repr

def account (pid : Pid) (events : List Event) : Account where
  output := events.filterMap fun
    | .outputLine p line => if p = pid then some line else none
    | _ => none
  error := events.filterMap fun
    | .errorLine p line => if p = pid then some line else none
    | _ => none
  completed := events.filterMap fun
    | .jobCompleted p code => if p = pid then some code else none
    | _ => none

def accounts (events : List Event) : List Account :=
  ((events.map pid).eraseDups).map fun p => account p events

end Event

end CommandShell
