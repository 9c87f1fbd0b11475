import CommandShell.Shell.Execution
import Mathlib.Tactic.SplitIfs

/-!
When a program is not started for what it would be handed: exactly if an argument or a variable
holds the character NUL. No failure of a path, and none of the search for the program, is reported
in the same way.
-/
namespace CommandShell

namespace Files
variable {f : Files} {follow closed : Bool} {path : Text}

theorem walkNames_ne_nulInData {next : Bool → Place → List Text → Except IoError Spot}
    (h : ∀ closed place names, next closed place names ≠ .error .nulInData) (place : Place)
    (names : List Text) : f.walkNames follow closed next place names ≠ .error .nulInData := by
  induction names generalizing place with
  | nil =>
      rw [walkNames]
      split <;> nofun
  | cons name rest ih =>
      rw [walkNames]
      split
      · nofun
      · split
        · exact ih _
        · split
          · exact ih _
          · split
            · nofun
            · split
              · split <;> nofun
              · split
                · exact ih _
                · split
                  · nofun
                  · exact h _ _ _

theorem walkLinks_ne_nulInData (links : Nat) (place : Place) (names : List Text) :
    f.walkLinks follow links closed place names ≠ .error .nulInData := by
  induction links generalizing closed place names with
  | zero =>
      refine walkNames_ne_nulInData (fun _ _ _ => ?_) place names
      nofun
  | succ links ih => exact walkNames_ne_nulInData (fun _ _ _ => ih _ _) place names

theorem pathError?_ne_nulInData : pathError? path ≠ some .nulInData := by
  unfold pathError?
  split_ifs <;> nofun

theorem locate_ne_nulInData : f.locate follow path ≠ .error .nulInData := by
  intro failed
  have walked : f.walk follow path = .error .nulInData := by
    rw [locate] at failed
    split at failed
    · cases failed
    · cases failed
    · next walked =>
      cases failed
      exact walked
  rw [walk] at walked
  split at walked
  · next early =>
    cases walked
    exact pathError?_ne_nulInData early
  · exact walkLinks_ne_nulInData _ _ _ walked

theorem contentAt_ne_nulInData : f.contentAt path ≠ .error .nulInData := by
  rw [contentAt]
  split
  · next located =>
    rintro ⟨⟩
    exact locate_ne_nulInData located
  · cases f.content? _ <;> nofun

end Files

namespace Program

theorem findAt_ne_nulInData {files : Files} {directory : Text} (scripts : Nat) (path name : Text)
    (arguments : List Text) :
    findAt files directory scripts path name arguments ≠ .error .nulInData := by
  induction scripts generalizing path name arguments with
  | zero => nofun
  | succ scripts ih =>
      rw [findAt]
      split
      · next located =>
        rintro ⟨⟩
        exact Files.locate_ne_nulInData located
      · split
        · split
          · nofun
          · split
            · exact ih _ _ _
            · split <;> nofun
        · nofun

theorem findFirst_ne_nulInData {find : Text → Except IoError Image}
    (h : ∀ path, find path ≠ .error .nulInData) (denied : Bool) (paths : List Text) :
    findFirst find denied paths ≠ .error .nulInData := by
  induction paths generalizing denied with
  | nil => cases denied <;> nofun
  | cons path rest ih =>
      rw [findFirst]
      split
      · exact ih _
      · exact ih _
      · exact ih _
      · exact h path

theorem find_ne_nulInData (path : Text) (c : Call) : find path c ≠ .error .nulInData := by
  rw [find]
  dsimp only
  split
  · exact findAt_ne_nulInData _ _ _ _
  · exact findFirst_ne_nulInData (fun _ => findAt_ne_nulInData _ _ _ _) _ _

end Program

theorem Machine.spawn_eq_nulInData_iff (m : Machine) (l : Launch) :
    m.spawn l = .error .nulInData ↔ hasNul l = true := by
  rw [spawn]
  split
  · next nul => exact iff_of_true rfl nul
  · next clean =>
    refine iff_of_false (fun failed => ?_) clean
    split at failed
    · next there =>
      cases failed
      exact Files.contentAt_ne_nulInData there
    · dsimp only at failed
      split at failed
      · next found =>
        cases failed
        exact Program.find_ne_nulInData _ _ found
      · cases failed
    · cases failed

/-- A command that has been found is not started for what it would be handed exactly if an argument
of it or a variable of the shell holds the character NUL. -/
theorem State.begin_eq_nulInData_iff (s : State) (command : Text) (arguments : List Text) :
    s.begin command arguments = .error (.notStarted .nulInData) ↔
      s.resolveCommand command ≠ none ∧
        ((∃ word ∈ arguments, '\x00' ∈ Line.unquote word) ∨
          ∃ item ∈ s.environment.vars.sorted, '\x00' ∈ item.1 ∨ '\x00' ∈ item.2) := by
  rw [begin]
  cases s.resolveCommand command with
  | none => exact iff_of_false nofun fun h => h.1 rfl
  | some path =>
      dsimp only
      generalize launched : (Launch.mk path (arguments.map Line.unquote) _ _) = l
      have nul : Machine.hasNul l = true ↔
          (∃ word ∈ arguments, '\x00' ∈ Line.unquote word) ∨
            ∃ item ∈ s.environment.vars.sorted, '\x00' ∈ item.1 ∨ '\x00' ∈ item.2 := by
        subst launched
        simp [Machine.hasNul]
      rw [← nul, ← s.machine.spawn_eq_nulInData_iff]
      cases s.machine.spawn l with
      | error cause => simp
      | ok started => simp

end CommandShell
