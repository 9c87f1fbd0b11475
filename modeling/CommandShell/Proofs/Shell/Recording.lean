import CommandShell.Machine.Standard
import CommandShell.Proofs.Shell.Effects

/-!
The history of a session. A line that is not blank enters it before anything of the line is read,
and nothing else that the session is asked touches it, however the line comes out. So the history is
a bounded suffix of the lines that were run.
-/
namespace CommandShell

namespace Environment

/-- Keeping the last items after each of two additions is keeping the last items of all. -/
theorem lastItems_concat (n : Nat) (items : List α) (item : α) :
    lastItems n (lastItems n items ++ [item]) = lastItems n (items ++ [item]) := by
  have within : items.length - n ≤ items.length := Nat.sub_le _ _
  simp only [lastItems, List.length_append, List.length_drop, List.length_singleton]
  rw [← List.drop_append_of_le_length within, List.drop_drop]
  congr 1
  omega

/-- An environment with the same history as another one, kept to the same length. -/
structure SameRecord (e after : Environment) : Prop where
  history : after.history = e.history
  capacity : after.capacity = e.capacity

namespace SameRecord
variable {e other after : Environment}

theorem refl (e : Environment) : e.SameRecord e := ⟨rfl, rfl⟩

theorem trans (first : e.SameRecord other) (second : other.SameRecord after) :
    e.SameRecord after :=
  ⟨second.history.trans first.history, second.capacity.trans first.capacity⟩

theorem of_eq (same : after = e) : e.SameRecord after := same ▸ refl e

end SameRecord

theorem Follows.sameRecord {e after : Environment} {made : List (Text × Text)}
    (h : e.Follows made after) : e.SameRecord after := by
  rw [show after = _ from h]
  exact ⟨rfl, rfl⟩

theorem sameRecord_perform (e : Environment) (c : DirectoryCall) :
    e.SameRecord (e.perform c).1 := by
  have done := e.does_perform c
  generalize (e.perform c).1 = after, (e.perform c).2 = x at done ⊢
  cases done <;> exact ⟨rfl, rfl⟩

theorem capacity_addHistory (e : Environment) (line : Text) :
    (e.addHistory line).capacity = e.capacity := by
  unfold addHistory
  split <;> rfl

theorem history_addHistory (e : Environment) {line : Text} (shown : Text.allBlank line = false) :
    (e.addHistory line).history = lastItems e.capacity (e.history ++ [line]) := by
  rw [addHistory, shown]
  rfl

end Environment

namespace Builtin

/-- A command that leaves the history alone, whatever it is given and however it ends. -/
def KeepsRecord (b : Builtin) : Prop :=
  ∀ (words : List Text) (s : State), s.environment.SameRecord (b.run words s).1.environment

theorem keepsRecord_of_standard : ∀ b ∈ BuiltinTable.standard.commands, b.KeepsRecord := by
  intro b member words s
  rcases quiet_or_sets_of_standard b member with quiet | rfl | rfl
  · exact (quiet words s).sameRecord
  · exact (follows_set _ words s).sameRecord
  · exact (follows_prompt _ words s).sameRecord

end Builtin

/-- Commands all of which leave the history alone. -/
def BuiltinTable.KeepsRecord (t : BuiltinTable) : Prop := ∀ b ∈ t.commands, b.KeepsRecord

theorem BuiltinTable.KeepsRecord.register {t : BuiltinTable} (kept : t.KeepsRecord) {b : Builtin}
    (added : b.KeepsRecord) : (t.register b).KeepsRecord :=
  List.forall_mem_cons.2 ⟨added, fun other member => kept other (List.mem_of_mem_filter member)⟩

namespace State
variable {t : BuiltinTable} (kept : t.KeepsRecord)
include kept

theorem sameRecord_dispatch (s : State) (name : Text) (arguments : List Text) (cancelled : Bool) :
    s.environment.SameRecord (dispatch t s name arguments cancelled).1.environment := by
  rw [dispatch]
  split
  · next b found => exact kept b (List.mem_of_find?_eq_some found) arguments s
  · exact .of_eq (environment_execute s name arguments cancelled)

theorem sameRecord_runStagesWith (s : State) (pipeline : Pipeline) (cancelled : Bool) :
    s.environment.SameRecord (runStagesWith t s pipeline cancelled).1.environment := by
  unfold runStagesWith
  split
  · next first rest _ =>
    have head := sameRecord_dispatch kept s first.command first.arguments cancelled
    split
    · split
      · next ran =>
        rw [ran] at head
        split
        · exact head.trans (.of_eq (environment_runStages _ _ _ _))
        · exact head
      · next ran =>
        rw [ran] at head
        exact head
    · exact .of_eq (environment_runStages s _ _ _)
  · exact .refl _

theorem sameRecord_carryOut (s : State) (cancelled : Bool) (p : Plan) :
    s.environment.SameRecord (carryOut t s cancelled p).1.environment := by
  cases p with
  | command name arguments target? =>
      rw [carryOut, environment_redirect]
      exact sameRecord_dispatch kept s name arguments cancelled
  | background name arguments => exact .of_eq (environment_executeBackground s name arguments)
  | pipeline pipeline target? =>
      have ran := sameRecord_runStagesWith kept s pipeline cancelled
      rw [carryOut]
      split
      · next outcome =>
        rw [outcome] at ran
        rw [environment_redirect]
        exact ran
      · next outcome =>
        rw [outcome] at ran
        exact ran

/-- However a line is run, the history is what it was when the line had been added. -/
theorem sameRecord_runLine (s : State) (line : Text) (cancelled : Bool) :
    (s.environment.addHistory line).SameRecord (runLine t s line cancelled).1.environment := by
  cases shown : Text.allBlank line with
  | true =>
      rw [runLine, Environment.addHistory, if_pos shown, if_pos shown]
      exact .refl _
  | false =>
      rw [runLine_of_kind t s shown, timed_fst, runKind_eq_plan]
      cases plan t (s.recorded line) line with
      | error cause => exact .refl _
      | ok p => exact sameRecord_carryOut kept (s.recorded line) cancelled p

end State

namespace Session

/-- Something that a session is asked, or that happens to it. -/
inductive Use
  | run (line : Text) (cancelled : Bool)
  | register (b : Builtin)
  /-- A built-in command is called by itself. -/
  | builtin (name : Text) (words : List Text)
  | execute (command : Text) (arguments : List Text) (cancelled : Bool)
  | background (command : Text) (arguments : List Text)
  | stages (stages : List Stage) (input : Text) (cancelled : Bool)
  | set (name value : Text)
  | move (movement : Movement)
  | kill (pid : Pid)
  | killRunning
  | toForeground (pid : Pid)
  /-- Time goes on, and supervisors see what has ended. -/
  | pass (time : Nat)
  | shutdown

/-- The line that a use runs. -/
def Use.line? : Use → Option Text
  | .run line _ => some line
  | _ => none

/-- What a session is after something that it is asked. -/
def use (s : Session) : Use → Session
  | .run line cancelled => (s.execute line cancelled).1
  | .register b => s.register b
  | .builtin name words =>
    s.withState ((s.builtins.lookup name).elim s.state fun b => (b.invoke words s.state).1)
  | .execute command arguments cancelled =>
    s.withState (s.state.execute command arguments cancelled).1
  | .background command arguments => s.withState (s.state.executeBackground command arguments).1
  | .stages stages input cancelled => s.withState (s.state.runStages stages input cancelled).1
  | .set name value => s.withState (s.state.withEnvironment (s.state.environment.set name value))
  | .move movement =>
    s.withState (s.state.withEnvironment
      (s.state.environment.perform ⟨movement, s.state.files⟩).1)
  | .kill pid => s.withState (s.state.kill pid).1
  | .killRunning => s.withState s.state.killRunning.1
  | .toForeground pid => s.withState (s.state.toForeground pid).1
  | .pass time => s.withState (s.state.advance time).settle
  | .shutdown => s.withState s.state.shutdown

/-- What a session is after some uses. -/
def useAll (s : Session) (uses : List Use) : Session := uses.foldl use s

/-- The commands that a use adds leave the history alone. -/
def Use.KeepsRecord : Use → Prop
  | .register b => b.KeepsRecord
  | _ => True

theorem keepsRecord_use {s : Session} (kept : s.builtins.KeepsRecord) {u : Use}
    (keeps : u.KeepsRecord) : (s.use u).builtins.KeepsRecord := by
  cases u with
  | register b => exact kept.register keeps
  | _ => exact kept

/-- A use adds the line that it runs to the history, and changes nothing else of it. -/
theorem sameRecord_use {s : Session} (kept : s.builtins.KeepsRecord) (u : Use) :
    (u.line?.elim s.state.environment s.state.environment.addHistory).SameRecord
      (s.use u).state.environment := by
  cases u with
  | run line cancelled =>
      have ran := State.sameRecord_runLine kept s.state line cancelled
      exact ran.trans (.of_eq (State.environment_settle _))
  | register b => exact .refl _
  | builtin name words =>
      rw [use]
      cases found : s.builtins.lookup name with
      | none => exact .refl _
      | some b => exact kept b (List.mem_of_find?_eq_some found) words s.state
  | execute command arguments cancelled => exact .of_eq (State.environment_execute _ _ _ _)
  | background command arguments => exact .of_eq (State.environment_executeBackground _ _ _)
  | stages stages input cancelled => exact .of_eq (State.environment_runStages _ _ _ _)
  | set name value => exact ⟨rfl, rfl⟩
  | move movement => exact Environment.sameRecord_perform _ _
  | kill pid => exact .of_eq (Builtin.environment_kill _ _)
  | killRunning | toForeground pid => exact .refl _
  | pass time | shutdown => exact .of_eq (State.environment_settle _)

/-- The lines that some uses run, blank ones left out. -/
def recordable (uses : List Use) : List Text :=
  (uses.filterMap Use.line?).filter fun line => !Text.allBlank line

theorem recordable_concat (uses : List Use) (u : Use) :
    recordable (uses ++ [u]) =
      recordable uses ++ u.line?.toList.filter fun line => !Text.allBlank line := by
  rw [recordable, List.filterMap_append, List.filter_append, recordable]
  cases ran : u.line? <;> simp [ran]

/-- What holds of the history after every run from a new session. -/
structure Recorded (limit : Nat) (uses : List Use) (s : Session) : Prop where
  kept : s.builtins.KeepsRecord
  capacity : s.state.environment.capacity = limit
  history : s.state.environment.history = (recordable uses).rtake limit

theorem recorded_use {limit : Nat} {uses : List Use} {s : Session}
    (h : Recorded limit uses s) {u : Use} (keeps : u.KeepsRecord) :
    Recorded limit (uses ++ [u]) (s.use u) := by
  have same := sameRecord_use h.kept u
  refine ⟨keepsRecord_use h.kept keeps, ?_, ?_⟩
  · rw [same.capacity, ← h.capacity]
    cases u.line? with
    | none => rfl
    | some line => exact Environment.capacity_addHistory _ line
  · rw [same.history, recordable_concat]
    cases u.line? with
    | none => simpa using h.history
    | some line =>
        cases shown : Text.allBlank line with
        | true => simpa [Environment.addHistory, shown] using h.history
        | false =>
            simp only [Option.elim_some, Environment.history_addHistory _ shown, h.capacity,
              h.history, Option.toList_some, List.filter_cons, shown, List.filter_nil]
            exact Environment.lastItems_concat limit _ line

theorem recorded_useAll (config : Config) (inherited : List (Text × Text)) (machine : Machine)
    {uses : List Use} (keeps : ∀ u ∈ uses, u.KeepsRecord) :
    Recorded (max config.historyCapacity 1) uses
      ((start config inherited machine).useAll uses) := by
  induction uses using List.reverseRecOn with
  | nil => exact ⟨Builtin.keepsRecord_of_standard, rfl, (List.rtake_nil _).symm⟩
  | append_singleton uses u ih =>
      obtain ⟨before, last⟩ := List.forall_mem_append.1 keeps
      rw [useAll, List.foldl_append]
      exact recorded_use (ih before) (last u (List.mem_singleton_self u))

/-- The history of a session holds the last lines that it has run and that are not blank, as they
were typed and in their order, as many as the settings allow and at least one: whatever each line
came to, whatever else the session was asked in between, and whatever commands were added that leave
the history alone. Every command of every shell does, and a blank line changes nothing at all. -/
theorem history_after_uses (config : Config) (inherited : List (Text × Text)) (machine : Machine)
    {uses : List Use} (keeps : ∀ u ∈ uses, u.KeepsRecord) :
    ((start config inherited machine).useAll uses).state.environment.history =
        (recordable uses).rtake (max config.historyCapacity 1) ∧
      (∀ b ∈ BuiltinTable.standard.commands, ∀ (words : List Text) (s : State),
        (b.run words s).1.environment.history = s.environment.history) ∧
      ∀ (t : BuiltinTable) (s : State) (line : Text) (cancelled : Bool),
        Text.allBlank line = true → State.runLine t s line cancelled = (s, .result {}) :=
  ⟨(recorded_useAll config inherited machine keeps).history,
    fun b member words s => (Builtin.keepsRecord_of_standard b member words s).history,
    fun _ _ _ _ blank => if_pos blank⟩

/-- A command that breaks off, a line that is refused, one that is cancelled, and other uses. -/
theorem history_after_uses_mixed :
    let broken : Builtin := ⟨"broken".toList, [], fun _ s => (s, .broke none)⟩
    let uses : List Use := [.register broken, .run "history".toList false,
      .run "broken  x".toList false, .run " \t ".toList false, .killRunning,
      .run "sort < a < b".toList false, .builtin "history".toList [], .run " sleep 9".toList true,
      .move .pop]
    let history (capacity : Nat) :=
      ((start { historyCapacity := capacity, assets := [] } []
        (Machine.standard 0 "/".toList)).useAll uses).state.environment.history
    (∀ u ∈ uses, u.KeepsRecord) ∧
      history 3 = ["broken  x".toList, "sort < a < b".toList, " sleep 9".toList] ∧
      history 0 = [" sleep 9".toList] := by
  intro broken uses history
  have keeps : ∀ u ∈ uses, u.KeepsRecord := by
    simp only [uses, List.forall_mem_cons]
    exact ⟨fun _ _ => .refl _, trivial, trivial, trivial, trivial, trivial, trivial, trivial,
      trivial, nofun⟩
  exact ⟨keeps, (history_after_uses _ _ _ keeps).1.trans (by decide),
    (history_after_uses _ _ _ keeps).1.trans (by decide)⟩

end Session

end CommandShell
