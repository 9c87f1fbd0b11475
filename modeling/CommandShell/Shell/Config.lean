import CommandShell.Text.Blank
import CommandShell.Text.Number

/-!
Settings of a shell, read from the environment that it is started in.
-/
namespace CommandShell

/-- The template of the prompt where none is set. -/
def defaultPrompt : Text := "WS$G".toList

/-- Settings of a shell. `grace` is how long its end waits for processes, in milliseconds. -/
structure Config where
  historyCapacity : Nat := 1000
  prompt : Text := defaultPrompt
  assets : Text
  grace : Nat := 2000
deriving DecidableEq, Repr

namespace Config

def maxCapacity : Nat := 18446744073709551615

/-- The settings that some variables ask for, whose names have to be spelled exactly. A capacity
that is no positive number and an empty prompt are passed over. -/
def ofVariables (assets : Text) (vars : List (Text × Text)) : Config :=
  let value? (name : String) : Option Text := vars.lookup name.toList
  let base : Config := { assets }
  let base := match (value? "NATIVESH_HISTORY").map fun raw =>
      Text.readNat maxCapacity (Text.trim raw) with
    | some (.ok (n + 1)) => { base with historyCapacity := n + 1 }
    | _ => base
  let base := match value? "NATIVESH_PROMPT" with
    | some (c :: rest) => { base with prompt := c :: rest }
    | _ => base
  match value? "NATIVESH_ASSETS" with
  | some assets => { base with assets }
  | none => base

end Config

end CommandShell
