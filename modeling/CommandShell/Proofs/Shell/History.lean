import CommandShell.Shell.Session

/-!
What does not depend on the history of lines. Supervisors see nothing of it and nothing of the
variables and the files, so letting them take their steps goes together with any change of these.
-/
namespace CommandShell

namespace Machine

def withFiles (m : Machine) (files : Files) : Machine := { m with files }

theorem child?_withFiles (m : Machine) (f : Files) (pid : Pid) :
    (m.withFiles f).child? pid = m.child? pid := rfl

theorem status?_withFiles (m : Machine) (f : Files) (pid : Pid) :
    (m.withFiles f).status? pid = m.status? pid := rfl

theorem kill_withFiles (m : Machine) (f : Files) (pid : Pid) :
    (m.withFiles f).kill pid = ((m.kill pid).1.withFiles f, (m.kill pid).2) := by
  rw [kill, kill, child?_withFiles]
  cases m.child? pid <;> rfl

end Machine

namespace State

/-- The state with another environment and other files. -/
def refit (s : State) (e : Environment) (f : Files) : State := (s.withEnvironment e).withFiles f

theorem machine_refit (s : State) (e : Environment) (f : Files) :
    (s.refit e f).machine = s.machine.withFiles f := rfl

theorem supervision_refit (s : State) (e : Environment) (f : Files) :
    (s.refit e f).supervision = s.supervision := rfl

theorem settleOne_refit (s : State) (e : Environment) (f : Files) (t : Supervisor) :
    (s.refit e f).settleOne t = (s.settleOne t).refit e f := by
  simp only [settleOne, machine_refit, supervision_refit, Machine.kill_withFiles,
    Machine.child?_withFiles, Machine.status?_withFiles]
  split
  · rfl
  · split
    · cases (s.machine.kill t.pid).1.child? t.pid with
      | none => rfl
      | some c => cases (s.machine.kill t.pid).1.status? t.pid <;> rfl
    · cases s.machine.child? t.pid with
      | none => rfl
      | some c => cases s.machine.status? t.pid <;> rfl

theorem settle_refit (s : State) (e : Environment) (f : Files) :
    (s.refit e f).settle = s.settle.refit e f := by
  have all (supervisors : List Supervisor) (s : State) :
      supervisors.foldl settleOne (s.refit e f) = (supervisors.foldl settleOne s).refit e f := by
    induction supervisors generalizing s with
    | nil => rfl
    | cons t rest ih => rw [List.foldl_cons, List.foldl_cons, settleOne_refit, ih]
  exact all _ s

theorem environment_settle (s : State) : s.settle.environment = s.environment := by
  have settled := congrArg environment (settle_refit s s.environment s.files)
  exact settled

theorem files_settle (s : State) : s.settle.files = s.files := by
  have settled := congrArg files (settle_refit s s.environment s.files)
  exact settled

theorem settle_withEnvironment (s : State) (e : Environment) :
    (s.withEnvironment e).settle = s.settle.withEnvironment e := by
  calc (s.withEnvironment e).settle
    _ = s.settle.refit e s.files := settle_refit s e s.files
    _ = s.settle.refit e s.settle.files := by rw [files_settle]
    _ = s.settle.withEnvironment e := rfl

theorem settle_withFiles (s : State) (f : Files) :
    (s.withFiles f).settle = s.settle.withFiles f := by
  calc (s.withFiles f).settle
    _ = s.settle.refit s.environment f := settle_refit s s.environment f
    _ = s.settle.refit s.settle.environment f := by rw [environment_settle]
    _ = s.settle.withFiles f := rfl

/-- The state with another history. -/
def withHistory (s : State) (history : List Text) : State :=
  s.withEnvironment { s.environment with history }

/-- The state without its history. -/
def forget (s : State) : State := s.withHistory []

/-- What has come out, history aside. -/
def forgetIn (o : State × α) : State × α := (o.1.forget, o.2)

theorem settle_withHistory (s : State) (history : List Text) :
    (s.withHistory history).settle = s.settle.withHistory history := by
  rw [withHistory, settle_withEnvironment, withHistory, environment_settle]

theorem eq_of_forgetIn {o p : State × α} (h : forgetIn o = forgetIn p) :
    ∃ history, o = (p.1.withHistory history, p.2) := by
  obtain ⟨state, value⟩ := o
  obtain ⟨same, rfl⟩ := Prod.mk.inj h
  have restored := congrArg (withHistory · state.environment.history) same
  exact ⟨state.environment.history, congrArg (·, p.2) restored⟩

theorem exists_withHistory_addHistory (s : State) (line : Text) :
    ∃ history, s.withEnvironment (s.environment.addHistory line) = s.withHistory history := by
  unfold Environment.addHistory
  split
  · exact ⟨s.environment.history, rfl⟩
  · exact ⟨_, rfl⟩

/-- A line that is not blank is recorded, and then run. -/
theorem runLine_of_shown (t : BuiltinTable) (s : State) {line : Text}
    (shown : Text.allBlank line = false) (cancelled : Bool) :
    runLine t s line cancelled =
      timed s.machine.clock
        (runKind t (s.withEnvironment (s.environment.addHistory line)) line cancelled) := by
  rw [runLine, shown]
  rfl

/-- Whether running a line comes to the same with every history. -/
def ReadsNoHistory (t : BuiltinTable) (s : State) (line : Text) (cancelled : Bool) : Prop :=
  ∀ history, forgetIn (runKind t (s.withHistory history) line cancelled) =
    forgetIn (runKind t s line cancelled)

end State

end CommandShell
