import CommandShell.Text.Basic

/-!
Variables: names with values, looked up without regard to the case of ASCII letters.

A variable is listed under the spelling that it was first set with. A store is filled by `set`
alone, which never adds a second name for a variable that is there.
-/
namespace CommandShell

/-- Variables in the order in which they were first set. -/
structure Variables where
  items : List (Text × Text) := []
deriving DecidableEq, Repr

namespace Variables

def fold (name : Text) : Text := Text.asciiUpper name

/-- Whether two names are the same variable. -/
def sameName (a b : Text) : Bool := fold a == fold b

def get? (v : Variables) (name : Text) : Option Text :=
  (v.items.find? fun item => sameName item.1 name).map Prod.snd

/-- Sets a variable in a list, at its place or at the end. -/
def setIn (name value : Text) : List (Text × Text) → List (Text × Text)
  | [] => [(name, value)]
  | (other, old) :: rest =>
    if sameName other name then (other, value) :: rest else (other, old) :: setIn name value rest

def set (v : Variables) (name value : Text) : Variables := ⟨setIn name value v.items⟩

/-- Setting a variable changes its value and no other one. -/
theorem get?_set (v : Variables) (name value other : Text) :
    (v.set name value).get? other =
      if sameName name other then some value else v.get? other := by
  obtain ⟨items⟩ := v
  simp only [set, get?]
  induction items with
  | nil => by_cases h : sameName name other <;> simp [setIn, h]
  | cons item rest ih =>
    simp only [setIn, List.find?_cons]
    grind [sameName]

def setAll (v : Variables) (items : List (Text × Text)) : Variables :=
  items.foldl (fun v item => v.set item.1 item.2) v

def sorted (v : Variables) : List (Text × Text) :=
  v.items.mergeSort fun a b => Text.precedes a.1 b.1

def listing (v : Variables) : Text :=
  v.sorted.flatMap fun (name, value) => Text.line (name ++ '=' :: value)

end Variables

end CommandShell
