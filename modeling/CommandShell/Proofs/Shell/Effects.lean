import CommandShell.Proofs.Shell.Directories
import CommandShell.Proofs.Shell.Refusals
import CommandShell.Proofs.Shell.Uniform
import CommandShell.Proofs.Shell.Variables

/-!
What a line does to the environment of a shell. External commands leave it as it is, and so do all
built-in commands but those that move to another directory and the two that set variables. So what
becomes of the variables follows from the assignments that the lines of a run make, and the store
that a shell starts with and then assigns to never has two names for one variable.
-/
namespace CommandShell

/-- An environment after some assignments. Only the directories may differ besides. -/
def Environment.Follows (e : Environment) (made : List (Text × Text)) (after : Environment) :
    Prop :=
  after =
    { e with vars := e.vars.setAll made, directory := after.directory, stack := after.stack }

theorem Environment.follows_of_eq {e after : Environment} (same : after = e) :
    e.Follows [] after := by
  subst same
  rfl

theorem Environment.Follows.vars {e after : Environment} {made : List (Text × Text)}
    (h : e.Follows made after) : after.vars = e.vars.setAll made := by
  rw [show after = _ from h]

/-- Of variables that are inherited under names equal up to case a new session has one. -/
theorem Environment.apart_vars_start (config : Config) (inherited : List (Text × Text))
    (directory machine : Text) :
    Variables.Apart (start config inherited directory machine).vars.items :=
  Variables.apart_set (Variables.apart_setAll .nil inherited) promptName config.prompt

namespace State

theorem environment_begin {s s' : State} {command : Text} {arguments : List Text} {pid : Pid}
    (h : s.begin command arguments = .ok (s', pid)) : s'.environment = s.environment := by
  obtain ⟨l, image, rfl, -⟩ := exists_populate_of_begin h
  rfl

theorem environment_beginAll (s : State) (started : List Pid) (stages : List Stage) :
    match s.beginAll started stages with
    | .ok (s', _) => s'.environment = s.environment
    | .error (s', _) => s'.environment = s.environment := by
  induction stages generalizing s started with
  | nil => rfl
  | cons stage rest ih =>
      rw [beginAll]
      cases begun : s.begin stage.command stage.arguments with
      | error error => rfl
      | ok next =>
          have first := environment_begin begun
          rw [← first]
          exact ih next.1 (started ++ [next.2])

theorem environment_superviseAll (s : State) (pids : List Pid) (stages : List Stage) :
    (s.superviseAll pids stages).environment = s.environment := by
  unfold superviseAll
  induction pids.zip stages generalizing s with
  | nil => rfl
  | cons item rest ih => exact ih _

theorem environment_await (s : State) (pids : List Pid) (last : Pid) (cancelled : Bool) :
    (s.await pids last cancelled).1.environment = s.environment := by
  unfold await
  split
  · exact environment_settle _
  · rfl

theorem environment_execute (s : State) (command : Text) (arguments : List Text)
    (cancelled : Bool) : (s.execute command arguments cancelled).1.environment = s.environment := by
  rw [execute]
  split
  · rfl
  · next begun =>
    have same := environment_begin begun
    exact (environment_await _ _ _ _).trans same

theorem environment_executeBackground (s : State) (command : Text) (arguments : List Text) :
    (s.executeBackground command arguments).1.environment = s.environment := by
  rw [executeBackground]
  split
  · rfl
  · next begun =>
    have same := environment_begin begun
    exact same

theorem environment_runStages (s : State) (stages : List Stage) (input : Text)
    (cancelled : Bool) : (s.runStages stages input cancelled).1.environment = s.environment := by
  have begun := environment_beginAll s [] stages
  rw [runStages]
  split
  · rfl
  · split
    · next failed => rwa [failed] at begun
    · next ok =>
      rw [ok] at begun
      exact ((environment_await _ _ _ _).trans (environment_superviseAll _ _ _)).trans begun

theorem environment_redirect (target? : Option (Text × Bool)) (o : State × Answer) :
    (redirect target? o).1.environment = o.1.environment := by
  unfold redirect
  split
  · split
    · split
      · unfold deliver
        split <;> rfl
      · rfl
    · rfl
  · rfl

theorem timed_fst (start : Nat) (o : State × Answer) : (timed start o).1 = o.1 := by
  unfold timed
  split <;> rfl

end State

namespace Builtin

/-- A command that sets no variable, whatever it is given. -/
def Quiet (b : Builtin) : Prop :=
  ∀ (words : List Text) (s : State), s.environment.Follows [] (b.run words s).1.environment

section Signatures
variable {α : Type} {name : Text} {description doc : String} {signature : Signature α}
  {body : α → State → State × Answer}

theorem quiet_ofSignature
    (h : ∀ operands (s : State), s.environment.Follows [] (body operands s).1.environment) :
    (ofSignature name description doc signature body).Quiet := by
  intro words s
  rw [ofSignature_eq]
  dsimp only
  split
  · rfl
  · split
    · exact h _ s
    · rfl

/-- A command whose body leaves the environment as it is. -/
theorem quiet_of_environment
    (h : ∀ operands s, (body operands s).1.environment = s.environment) :
    (ofSignature name description doc signature body).Quiet :=
  quiet_ofSignature fun operands s => Environment.follows_of_eq (h operands s)

end Signatures

section Directories
variable (name : Text)

theorem quiet_cd : (cd name).Quiet := by
  refine quiet_ofSignature fun words s => ?_
  split
  · rfl
  · dsimp only
    split
    · next moved =>
      obtain ⟨directory, -, rfl⟩ := Environment.exists_of_changeDirectory? moved
      rfl
    · rfl

theorem quiet_pushd : (pushd name).Quiet := by
  refine quiet_ofSignature fun words s => ?_
  dsimp only
  split
  · next moved =>
    obtain ⟨directory, -, rfl⟩ := Environment.exists_of_pushDirectory? moved
    rfl
  · rfl

theorem follows_popDirectory (e : Environment) (files : Files) :
    e.Follows [] (e.popDirectory files).1 := by
  unfold Environment.popDirectory
  split
  · rfl
  · split <;> rfl

theorem quiet_popd : (popd name).Quiet := by
  refine quiet_ofSignature fun _ s => ?_
  have popped := follows_popDirectory s.environment s.files
  dsimp only
  split <;> exact popped

theorem quiet_dir : (dir name).Quiet := by
  refine quiet_of_environment fun words s => ?_
  dsimp only
  split
  · rfl
  · split <;> rfl

theorem quiet_pwd : (pwd name).Quiet := quiet_of_environment fun _ _ => rfl

theorem environment_changed (s : State) (command done path : Text) (change : Change) :
    (changed s command done path change).1.environment = s.environment := by
  unfold changed
  dsimp only
  split <;> rfl

theorem quiet_mkdir : (mkdir name).Quiet := by
  refine quiet_of_environment fun words s => ?_
  split
  · rfl
  · exact environment_changed _ _ _ _ _

theorem quiet_rmdir : (rmdir name).Quiet := by
  refine quiet_of_environment fun words s => ?_
  split
  · rfl
  · exact environment_changed _ _ _ _ _

end Directories

section Files
variable (name : Text)

theorem quiet_del : (del name).Quiet := by
  refine quiet_of_environment fun words s => ?_
  split
  · rfl
  · dsimp only
    split <;> rfl

theorem environment_transferred (s : State) (command done source target : Text)
    (files : Except Stopped Files) :
    (transferred s command done source target files).1.environment = s.environment := by
  cases files <;> rfl

theorem quiet_copy : (copy name).Quiet :=
  quiet_of_environment fun _ _ => environment_transferred _ _ _ _ _ _

theorem quiet_move : (move name).Quiet :=
  quiet_of_environment fun _ _ => environment_transferred _ _ _ _ _ _

theorem quiet_type : (type name).Quiet := by
  refine quiet_of_environment fun words s => ?_
  split
  · rfl
  · dsimp only
    split <;> rfl

end Files

section Session
variable (name : Text)

theorem quiet_echo : (echo name).Quiet := by
  intro words s
  rw [run_echo]
  rfl

theorem quiet_env : (env name).Quiet := quiet_of_environment fun _ _ => rfl

theorem quiet_clear : (clear name).Quiet := quiet_of_environment fun _ _ => rfl

theorem quiet_exit : (exit name).Quiet := quiet_of_environment fun _ _ => rfl

theorem quiet_history : (history name).Quiet := quiet_of_environment fun _ _ => rfl

theorem quiet_help : (help name).Quiet := quiet_of_environment fun _ _ => rfl

theorem quiet_art (description : String) : (art description name).Quiet := by
  intro words s
  unfold art
  dsimp only
  split
  · rfl
  · split <;> rfl

end Session

section Processes
variable (name : Text)

theorem quiet_jobs : (jobs name).Quiet := quiet_of_environment fun _ _ => rfl

theorem quiet_fg : (fg name).Quiet := quiet_of_environment fun _ _ => rfl

theorem quiet_bg : (bg name).Quiet := by
  refine quiet_of_environment fun pid s => ?_
  split <;> rfl

theorem environment_kill (s : State) (pid : Pid) : (s.kill pid).1.environment = s.environment := by
  unfold State.kill
  split <;> rfl

theorem environment_killEach (s : State) (words : List Text) :
    (killEach s words).1.environment = s.environment := by
  induction words generalizing s with
  | nil => rfl
  | cons word rest ih =>
      rw [killEach]
      split
      · exact ih s
      · exact (ih _).trans (environment_kill s _)

theorem quiet_kill : (kill name).Quiet := by
  refine quiet_of_environment fun words s => ?_
  split
  · rfl
  · exact environment_killEach s words

end Processes

/-- The assignment that a command makes with some words, if it makes one: `set` does where they
spell one, and `prompt` does unless it has none. -/
def made? (name : Text) (words : List Text) : Option (Text × Text) :=
  if words = [helpWord] then none
  else if Text.asciiLower name = "set".toList then
    assignment? (Text.unwords (words.map Line.unquote))
  else if Text.asciiLower name = "prompt".toList ∧ words ≠ [] then
    some (Environment.promptName, Text.unwords (words.map Line.unquote))
  else none

/-- Of the commands of every shell only two set variables. -/
theorem quiet_or_sets_of_standard : ∀ b ∈ BuiltinTable.standard.commands,
    b.Quiet ∨ b = set "set".toList ∨ b = prompt "prompt".toList := by
  have quiet {command : Text → Builtin} (h : ∀ name, (command name).Quiet) (names : List String) :
      ∀ b ∈ BuiltinTable.named command names,
        b.Quiet ∨ b = set "set".toList ∨ b = prompt "prompt".toList :=
    forall_mem_named (fun name => .inl (h name)) names
  have setting : ∀ b ∈ BuiltinTable.named set ["set"],
      b.Quiet ∨ b = set "set".toList ∨ b = prompt "prompt".toList :=
    fun b member => .inr (.inl (List.mem_singleton.1 member))
  have prompting : ∀ b ∈ BuiltinTable.named prompt ["prompt"],
      b.Quiet ∨ b = set "set".toList ∨ b = prompt "prompt".toList :=
    fun b member => .inr (.inr (List.mem_singleton.1 member))
  unfold BuiltinTable.standard
  simp only [List.forall_mem_append, and_assoc]
  exact ⟨quiet quiet_cd _, quiet quiet_dir _, quiet quiet_pwd _, quiet quiet_echo _, setting,
    quiet quiet_env _, quiet quiet_clear _, quiet quiet_exit _, quiet quiet_help _,
    quiet quiet_history _, quiet quiet_pushd _, quiet quiet_popd _, quiet quiet_mkdir _,
    quiet quiet_rmdir _, quiet quiet_del _, quiet quiet_copy _, quiet quiet_move _,
    quiet quiet_type _, prompting, quiet quiet_jobs _, quiet quiet_fg _, quiet quiet_bg _,
    quiet quiet_kill _, quiet (quiet_art · _) _, quiet (quiet_art · _) _,
    quiet (quiet_art · _) _⟩

theorem follows_set (name : Text) (words : List Text) (s : State) :
    s.environment.Follows (made? "set".toList words).toList
      ((set name).run words s).1.environment := by
  unfold made? set Signature.many
  rw [ofSignature_eq]
  dsimp only
  split
  · rfl
  · rw [if_pos (by rfl)]
    cases words with
    | nil => rfl
    | cons word rest =>
        rw [List.map_cons]
        cases assignment? (Text.unwords (Line.unquote word :: rest.map Line.unquote)) <;> rfl

theorem follows_prompt (name : Text) (words : List Text) (s : State) :
    s.environment.Follows (made? "prompt".toList words).toList
      ((prompt name).run words s).1.environment := by
  unfold made? prompt Signature.many
  rw [ofSignature_eq]
  dsimp only
  split
  · rfl
  · rw [if_neg (by decide)]
    cases words with
    | nil => rfl
    | cons word rest => rfl

end Builtin

/-- The assignment of what a line asks for, made by its first command. -/
def Plan.made? : Plan → Option (Text × Text)
  | .command name arguments _ => Builtin.made? name arguments
  | .background _ _ => none
  | .pipeline p _ =>
    match p.stages with
    | first :: _ =>
      if first.builtin then Builtin.made? first.command first.arguments else none
    | [] => none

namespace State

theorem follows_dispatch (s : State) (name : Text) (arguments : List Text) (cancelled : Bool) :
    s.environment.Follows (Builtin.made? name arguments).toList
      (dispatch .standard s name arguments cancelled).1.environment := by
  have same (other : Text) (h : Text.asciiLower name = Text.asciiLower other) :
      Builtin.made? name arguments = Builtin.made? other arguments := by
    rw [Builtin.made?, Builtin.made?, h]
  -- Commands are looked up by the folded name, and so are the two that set variables told apart.
  rw [dispatch]
  by_cases sets : Text.asciiLower name = "set".toList
  · rw [BuiltinTable.lookup_congr (b := "set".toList) _ sets, same "set".toList sets]
    exact Builtin.follows_set _ _ s
  · by_cases prompts : Text.asciiLower name = "prompt".toList
    · rw [BuiltinTable.lookup_congr (b := "prompt".toList) _ prompts,
        same "prompt".toList prompts]
      exact Builtin.follows_prompt _ _ s
    · have unmade : Builtin.made? name arguments = none := by
        have unnamed : ¬(Text.asciiLower name = "prompt".toList ∧ arguments ≠ []) :=
          fun h => prompts h.1
        rw [Builtin.made?, if_neg sets, if_neg unnamed, ite_self]
      rw [unmade]
      split
      · next b found =>
        have named : BuiltinTable.isNamed name b = true := by simpa using List.find?_some found
        replace named : Text.asciiLower b.name = Text.asciiLower name := beq_iff_eq.1 named
        rcases Builtin.quiet_or_sets_of_standard b (List.mem_of_find?_eq_some found) with
          quiet | rfl | rfl
        · exact quiet arguments s
        · exact absurd named.symm sets
        · exact absurd named.symm prompts
      · exact Environment.follows_of_eq (environment_execute s name arguments cancelled)

theorem follows_runStagesWith (s : State) (pipeline : Pipeline) (target? : Option (Text × Bool))
    (cancelled : Bool) :
    s.environment.Follows (Plan.pipeline pipeline target?).made?.toList
      (runStagesWith .standard s pipeline cancelled).1.environment := by
  obtain ⟨stages, enough⟩ := pipeline
  cases stages with
  | nil => rfl
  | cons first rest =>
      have head := follows_dispatch s first.command first.arguments cancelled
      unfold runStagesWith Plan.made?
      dsimp only
      split
      · split
        · next ran =>
          rw [ran] at head
          split
          · unfold Environment.Follows at head ⊢
            rw [environment_runStages]
            exact head
          · exact head
        · next ran =>
          rw [ran] at head
          exact head
      · exact Environment.follows_of_eq (environment_runStages s _ _ _)

theorem follows_carryOut (s : State) (cancelled : Bool) (p : Plan) :
    s.environment.Follows p.made?.toList (carryOut .standard s cancelled p).1.environment := by
  cases p with
  | command name arguments target? =>
      have ran := follows_dispatch s name arguments cancelled
      rw [carryOut, environment_redirect]
      exact ran
  | background name arguments =>
      exact Environment.follows_of_eq (environment_executeBackground s name arguments)
  | pipeline pipeline target? =>
      have ran := follows_runStagesWith s pipeline target? cancelled
      rw [carryOut]
      split
      · next outcome =>
        rw [outcome] at ran
        rw [environment_redirect]
        exact ran
      · next outcome =>
        rw [outcome] at ran
        exact ran

/-- The assignment that a line makes in a state, if it makes one. -/
def made? (s : State) (line : Text) : Option (Text × Text) :=
  if Text.allBlank line then none
  else
    match plan .standard (s.recorded line) line with
    | .ok p => p.made?
    | .error _ => none

/-- A line leaves the environment as its assignment does, the line itself in the history. -/
theorem follows_runLine (s : State) (line : Text) (cancelled : Bool) :
    (s.environment.addHistory line).Follows (s.made? line).toList
      (runLine .standard s line cancelled).1.environment := by
  rw [made?]
  cases shown : Text.allBlank line with
  | true =>
      rw [runLine, shown, Environment.addHistory, shown]
      rfl
  | false =>
      rw [runLine_of_kind .standard s shown, timed_fst, runKind_eq_plan]
      cases plan .standard (s.recorded line) line with
      | error cause => rfl
      | ok p => exact follows_carryOut (s.recorded line) cancelled p

end State

namespace Session

/-- A session after some lines, each of which may be cancelled. -/
def executeAll (s : Session) (lines : List (Text × Bool)) : Session :=
  lines.foldl (fun s line => (s.execute line.1 line.2).1) s

/-- The assignments that the lines of a run make, in order. -/
def assignments (s : Session) : List (Text × Bool) → List (Text × Text)
  | [] => []
  | line :: rest =>
    (s.state.made? line.1).toList ++ (s.execute line.1 line.2).1.assignments rest

theorem vars_execute {s : Session} (standard : s.builtins = .standard) (line : Text)
    (cancelled : Bool) :
    (s.execute line cancelled).1.state.environment.vars =
      s.state.environment.vars.setAll (s.state.made? line).toList := by
  have ran := (s.state.follows_runLine line cancelled).vars
  have recorded : (s.state.environment.addHistory line).vars = s.state.environment.vars := by
    unfold Environment.addHistory
    split <;> rfl
  rw [← recorded, ← ran, execute, standard]
  exact congrArg Environment.vars (State.environment_settle _)

/-- The variables after a run are those before it with the assignments of its lines. -/
theorem vars_executeAll {s : Session} (standard : s.builtins = .standard)
    (lines : List (Text × Bool)) :
    (s.executeAll lines).state.environment.vars =
      s.state.environment.vars.setAll (s.assignments lines) := by
  induction lines generalizing s with
  | nil => rfl
  | cons line rest ih =>
      have later := ih (s := (s.execute line.1 line.2).1) standard
      rw [executeAll, List.foldl_cons, ← executeAll, later, vars_execute standard, assignments]
      exact List.foldl_append.symm

/-- Lines keep the names of the variables apart. -/
theorem apart_vars_executeAll {s : Session} (standard : s.builtins = .standard)
    (h : Variables.Apart s.state.environment.vars.items) (lines : List (Text × Bool)) :
    Variables.Apart (s.executeAll lines).state.environment.vars.items := by
  rw [vars_executeAll standard]
  exact Variables.apart_setAll h _

/-- Whatever a shell inherits and whatever lines it runs, no two of its variables have names that
are equal up to case. -/
theorem apart_vars_of_start (config : Config) (inherited : List (Text × Text)) (m : Machine)
    (lines : List (Text × Bool)) :
    Variables.Apart ((start config inherited m).executeAll lines).state.environment.vars.items :=
  apart_vars_executeAll rfl (Environment.apart_vars_start config inherited _ m.host) lines

end Session

end CommandShell
