import CommandShell.Shell.Result

/-!
Pipelines: commands of which each reads what the one before it writes.
-/
namespace CommandShell

/-- One command of a pipeline. `builtin` tells whether it is the name of a built-in command. -/
structure Stage where
  command : Text
  arguments : List Text
  builtin : Bool
deriving DecidableEq, Repr

/-- Two stages or more. -/
structure Pipeline where
  stages : List Stage
  two_le_length : 2 ≤ stages.length
deriving DecidableEq

namespace Pipeline

/-- The pipeline of some stages, if they are enough. -/
def ofStages (stages : List Stage) : Except SyntaxError Pipeline :=
  if h : 2 ≤ stages.length then .ok ⟨stages, h⟩ else .error .tooFewStages

end Pipeline

end CommandShell
