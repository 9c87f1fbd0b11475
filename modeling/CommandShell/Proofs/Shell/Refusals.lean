import CommandShell.Proofs.Shell.Pipelines

/-!
Lines that are refused as they are written. Whether a line is refused, and why, is decided by its
text alone, before a command of it is looked up. So a refused line comes to the same with all
built-in commands in all states: it enters the history, and its refusal is the answer. A line that
is read without an error is never refused later.
-/
namespace CommandShell

namespace Line

/-- The number of parts of a line between its spaced pipes that are not blank. -/
def stageCount (line : Text) : Nat :=
  (Text.pieces spacedPipe line).countP (!Text.allBlank ·)

/-- Why a line is refused as it is written, if it is. -/
def refusal? (line : Text) : Option SyntaxError :=
  match kind line with
  | .pipeline =>
    if hasBackgroundMark line then some .backgroundCombined
    else if stageCount line < 2 then some .tooFewStages
    else none
  | .background command =>
    if Text.allBlank command then some .noCommand
    else if (Cut.ofSegments (segments command)).shows then some .backgroundCombined
    else none
  | .redirection =>
    match redirection line with
    | .error cause => some (.badRedirection cause)
    | .ok _ => none
  | .simple => none

theorem shown_of_cutRedirection {d : Direction} {line : Text} {r : Redirection}
    (h : cutRedirection d line = .ok r) : Text.allBlank r.command = false := by
  rw [cutRedirection] at h
  split at h
  · next command target cut =>
    split at h
    · cases h
    · next shown =>
      cases h
      have member : command ∈ (Text.pieces d.mark line).map Text.trim := by simp [cut]
      obtain ⟨part, -, rfl⟩ := List.mem_map.1 member
      refine Bool.eq_false_iff.2 fun blank => shown ?_
      rw [Text.allBlank_trim] at blank
      simp [(Text.trim_eq_nil_iff part).2 blank]
  · cases h

/-- What is left of the operator of a redirection is not blank. -/
theorem shown_of_redirection {line : Text} {r : Redirection} (h : redirection line = .ok r) :
    Text.allBlank r.command = false := by
  rw [redirection] at h
  split_ifs at h
  · exact shown_of_cutRedirection h
  · exact shown_of_cutRedirection h
  · exact shown_of_cutRedirection h

theorem not_allBlank_of_redirection {line : Text} (h : kind line = .redirection) :
    Text.allBlank line = false := by
  obtain ⟨d, found⟩ := exists_has_of_kind_redirection h
  refine Text.not_allBlank_of_mem (((Text.has_iff _ _).1 found).subset d.sign_mem_mark) ?_
  cases d <;> rfl

/-- A blank line is not refused. -/
theorem not_allBlank_of_refusal? {line : Text} {cause : SyntaxError}
    (h : refusal? line = some cause) : Text.allBlank line = false := by
  rw [refusal?] at h
  split at h
  · next pipeline => exact State.not_allBlank_of_kind_pipeline pipeline
  · next background => exact not_allBlank_of_kind_background background
  · next redirection => exact not_allBlank_of_redirection redirection
  · cases h

end Line

theorem Pipeline.ofStages_eq_error_iff {stages : List Stage} {cause : SyntaxError} :
    ofStages stages = .error cause ↔ stages.length < 2 ∧ .tooFewStages = cause := by
  rw [ofStages]
  split
  · next enough => simp [Nat.not_lt.2 enough]
  · next few => simp [Nat.lt_of_not_le few]

theorem map_eq_error_iff {α β : Type} {f : α → β} {x : Except SyntaxError α}
    {cause : SyntaxError} : x.map f = .error cause ↔ x = .error cause := by
  cases x <;> simp [Except.map]

theorem map_eq_ok_iff {α β : Type} {f : α → β} {x : Except SyntaxError α} {b : β} :
    x.map f = .ok b ↔ ∃ a, x = .ok a ∧ f a = b := by
  cases x <;> simp [Except.map]

/-- What a line asks for, once it has been read. -/
inductive Plan
  | command (name : Text) (arguments : List Text) (target? : Option (Text × Bool))
  | background (name : Text) (arguments : List Text)
  | pipeline (pipeline : Pipeline) (target? : Option (Text × Bool))

namespace State

/-- The first command of a text. -/
def firstCommand (s : State) (text : Text) : Except SyntaxError Line.Command :=
  match s.parse text with
  | [] => .error .noCommand
  | command :: _ => .ok command

/-- The only command of a text, if its streams are not redirected. -/
def loneCommand (s : State) (text : Text) : Except SyntaxError Line.Command :=
  match s.parse text with
  | [] => .error .noCommand
  | command :: later =>
    if !later.isEmpty || command.redirects.output.isSome || command.redirects.input.isSome then
      .error .backgroundCombined
    else .ok command

/-- Reads a line without running anything. -/
def plan (t : BuiltinTable) (s : State) (line : Text) : Except SyntaxError Plan :=
  match Line.kind line with
  | .pipeline =>
    if Line.hasBackgroundMark line then .error .backgroundCombined
    else
      (Pipeline.ofStages ((s.pipedCommands line).map (stageOf t))).map
        (.pipeline · (s.pipedTarget? line))
  | .background text =>
    (s.loneCommand text).map fun command => .background command.name command.arguments
  | .redirection =>
    match Line.redirection line with
    | .error cause => .error (.badRedirection cause)
    | .ok r =>
      (s.firstCommand r.command).map fun command =>
        .command command.name command.arguments (r.direction.target? r.target)
  | .simple =>
    (s.firstCommand line).map fun command => .command command.name command.arguments none

/-- Does what a line asks for. -/
def carryOut (t : BuiltinTable) (s : State) (cancelled : Bool) : Plan → State × Answer
  | .command name arguments target? => redirect target? (dispatch t s name arguments cancelled)
  | .background name arguments =>
    let (s, result) := s.executeBackground name arguments
    (s, .result result)
  | .pipeline pipeline target? =>
    match runStagesWith t s pipeline cancelled with
    | (s, answer, true) => redirect target? (s, answer)
    | (s, answer, false) => (s, answer)

theorem redirect_none (o : State × Answer) : redirect none o = o := by
  obtain ⟨s, answer⟩ := o
  cases answer <;> rfl

/-- A line is read as a whole before anything of it is run. -/
theorem runKind_eq_plan (t : BuiltinTable) (s : State) (line : Text) (cancelled : Bool) :
    runKind t s line cancelled =
      match plan t s line with
      | .error cause => s.failSyntax cause
      | .ok p => carryOut t s cancelled p := by
  rw [runKind, plan]
  cases Line.kind line with
  | pipeline =>
      dsimp only
      rw [runPiped]
      split
      · rfl
      · dsimp only
        cases Pipeline.ofStages ((s.pipedCommands line).map (stageOf t)) <;> rfl
  | background text =>
      dsimp only
      rw [runBackground, loneCommand]
      cases s.parse text with
      | nil => rfl
      | cons command later =>
          cases later with
          | nil =>
              cases h : command.redirects.output.isSome || command.redirects.input.isSome <;>
                simp [h, Except.map, carryOut]
          | cons _ _ => rfl
  | redirection =>
      dsimp only
      rw [runRedirected]
      cases Line.redirection line with
      | error cause => rfl
      | ok r =>
          dsimp only
          rw [firstCommand]
          cases s.parse r.command with
          | nil => rfl
          | cons command later =>
              cases r.direction <;> simp [Except.map, carryOut, Line.Direction.target?]
  | simple =>
      dsimp only
      rw [runSimple, firstCommand]
      cases s.parse line with
      | nil => rfl
      | cons command later => exact (redirect_none _).symm

/-- Each part of a line that is not blank has a first command. -/
theorem length_pipedCommands (s : State) (line : Text) :
    (s.pipedCommands line).length = Line.stageCount line := by
  rw [pipedCommands, List.length_filterMap_eq_countP, Line.stageCount]
  refine List.countP_congr fun part _ => ?_
  have none : s.parse (Text.trim part) = [] ↔ Text.allBlank part = true := by
    rw [parse, Line.parse_eq_nil_iff, Text.allBlank_trim]
  simp [List.isSome_head?, none]

theorem exists_firstCommand (s : State) {text : Text} (shown : Text.allBlank text = false) :
    ∃ command, s.firstCommand text = .ok command := by
  cases parsed : s.parse text with
  | nil => rw [(Line.parse_eq_nil_iff s.value? text).1 parsed] at shown; cases shown
  | cons command later => exact ⟨command, by rw [firstCommand, parsed]⟩

/-- Why a line cannot be read depends on nothing but the line. -/
theorem plan_eq_error_iff (t : BuiltinTable) (s : State) {line : Text}
    (shown : Text.allBlank line = false) (cause : SyntaxError) :
    plan t s line = .error cause ↔ Line.refusal? line = some cause := by
  rw [plan, Line.refusal?]
  cases Line.kind line with
  | pipeline =>
      dsimp only
      split
      · simp
      · rw [map_eq_error_iff, Pipeline.ofStages_eq_error_iff, List.length_map,
          length_pipedCommands]
        simp
  | background text =>
      dsimp only
      rw [map_eq_error_iff, loneCommand]
      cases parsed : s.parse text with
      | nil => simp [(Line.parse_eq_nil_iff s.value? text).1 parsed]
      | cons command later =>
          rw [Line.not_allBlank_of_parse parsed,
            Line.shows_eq_of_parse (Line.Cut.of_ofSegments text) parsed]
          dsimp only
          split
          · simp
          · simp
  | redirection =>
      dsimp only
      cases read : Line.redirection line with
      | error other => simp
      | ok r =>
          obtain ⟨command, first⟩ := s.exists_firstCommand (Line.shown_of_redirection read)
          simp [first, Except.map]
  | simple =>
      obtain ⟨command, first⟩ := s.exists_firstCommand shown
      simp [first, Except.map]

end State

/-- Where the answer to a line can come from, other than from a refusal of the line. -/
inductive Origin (t : BuiltinTable) : Answer → Prop
  | nothing : Origin t (.result {})
  | builtin {b : Builtin} (member : b ∈ t.commands) (words : List Text) (s : State) :
    Origin t (b.invoke words s).2
  | ended (s : State) (pid : Pid) : Origin t (.result (s.resultOf pid))
  | started (text : Text) : Origin t (.result (Result.ok text))
  | error {e : ShellError} (other : ∀ cause, e ≠ .badSyntax cause) : Origin t (.result e.result)
  | delivered {r : Result} (of : Origin t (.result r)) : Origin t (.result { r with output := [] })
  | timed {r : Result} (of : Origin t (.result r)) (elapsed : Nat) :
    Origin t (.result (r.withElapsed elapsed))

namespace State

theorem ne_badSyntax_of_begin {s : State} {command : Text} {arguments : List Text}
    {error : ShellError} (h : s.begin command arguments = .error error) (cause : SyntaxError) :
    error ≠ .badSyntax cause := by
  intro refused
  subst refused
  unfold begin at h
  split at h
  · cases h
  · split at h <;> cases h

theorem ne_badSyntax_of_beginAll {s s' : State} {started : List Pid} {stages : List Stage}
    {error : ShellError} (h : s.beginAll started stages = .error (s', error))
    (cause : SyntaxError) : error ≠ .badSyntax cause := by
  induction stages generalizing s started with
  | nil => cases h
  | cons stage rest ih =>
      rw [beginAll] at h
      split at h
      · exact ih h
      · next other begun =>
        cases h
        exact ne_badSyntax_of_begin begun cause

section
variable (t : BuiltinTable)

theorem origin_await (s : State) (pids : List Pid) (last : Pid) (cancelled : Bool) :
    Origin t (.result (s.await pids last cancelled).2) := by
  unfold await
  split
  · exact .ended _ _
  · exact .error nofun

theorem origin_execute (s : State) (command : Text) (arguments : List Text) (cancelled : Bool) :
    Origin t (.result (s.execute command arguments cancelled).2) := by
  rw [execute]
  split
  · next begun => exact .error (ne_badSyntax_of_begin begun)
  · exact origin_await t _ _ _ _

theorem origin_executeBackground (s : State) (command : Text) (arguments : List Text) :
    Origin t (.result (s.executeBackground command arguments).2) := by
  rw [executeBackground]
  split
  · next begun => exact .error (ne_badSyntax_of_begin begun)
  · exact .started _

/-- Only stages of which there are none are refused once a line has been read. -/
theorem origin_runStages (s : State) {stages : List Stage} (some : stages ≠ []) (input : Text)
    (cancelled : Bool) : Origin t (.result (s.runStages stages input cancelled).2) := by
  rw [runStages, if_neg (by simpa using some)]
  split
  · next begun => exact .error (ne_badSyntax_of_beginAll begun)
  · exact origin_await t _ _ _ _

theorem origin_dispatch (s : State) (command : Text) (arguments : List Text) (cancelled : Bool) :
    Origin t (dispatch t s command arguments cancelled).2 := by
  rw [dispatch]
  split
  · next found => exact .builtin (List.mem_of_find?_eq_some found) _ _
  · exact origin_execute t s command arguments cancelled

theorem origin_runStagesWith (s : State) (pipeline : Pipeline) (cancelled : Bool) :
    Origin t (runStagesWith t s pipeline cancelled).2.1 := by
  obtain ⟨stages, enough⟩ := pipeline
  match stages, enough with
  | first :: second :: rest, enough =>
    have head := origin_dispatch t s first.command first.arguments cancelled
    rw [runStagesWith]
    dsimp only
    split
    · split
      · next ran answered =>
        rw [answered] at head
        split
        · exact origin_runStages t _ (List.cons_ne_nil _ _) _ _
        · exact head
      · next answered =>
        rw [answered] at head
        exact head
    · exact origin_runStages t s (List.cons_ne_nil _ _) _ _

variable {t}

theorem origin_deliver {s : State} {target : Text} {append : Bool} {r : Result}
    (of : Origin t (.result r)) : Origin t (s.deliver target append r).2 := by
  unfold deliver
  split
  · exact .delivered of
  · exact .error nofun

theorem origin_redirect {target? : Option (Text × Bool)} {o : State × Answer}
    (of : Origin t o.2) : Origin t (redirect target? o).2 := by
  unfold redirect
  split
  · split
    · split
      · exact origin_deliver of
      · exact of
    · exact of
  · exact of

theorem origin_timed {start : Nat} {o : State × Answer} (of : Origin t o.2) :
    Origin t (timed start o).2 := by
  unfold timed
  split
  · exact .timed of _
  · exact of

theorem origin_carryOut (s : State) (cancelled : Bool) (p : Plan) :
    Origin t (carryOut t s cancelled p).2 := by
  cases p with
  | command name arguments target? =>
      exact origin_redirect (origin_dispatch t s name arguments cancelled)
  | background name arguments => exact origin_executeBackground t s name arguments
  | pipeline pipeline target? =>
      have ran := origin_runStagesWith t s pipeline cancelled
      rw [carryOut]
      split
      · next outcome =>
        rw [outcome] at ran
        exact origin_redirect ran
      · next outcome =>
        rw [outcome] at ran
        exact ran

end

/-- A line that is refused enters the history, and nothing else changes: with all built-in commands
and in all states its refusal is the answer. No other line is answered with a refusal. -/
theorem runLine_refused_or_run (line : Text) :
    match Line.refusal? line with
    | some cause => ∀ (t : BuiltinTable) (s : State) (cancelled : Bool),
      runLine t s line cancelled =
        (s.withHistory
            (Environment.lastItems s.environment.capacity (s.environment.history ++ [line])),
          .result (Result.failure cause.message 1))
    | none => ∀ (t : BuiltinTable) (s : State) (cancelled : Bool),
      Origin t (runLine t s line cancelled).2 := by
  cases refused : Line.refusal? line with
  | some cause =>
      intro t s cancelled
      have shown := Line.not_allBlank_of_refusal? refused
      have planned := (plan_eq_error_iff t (s.recorded line) shown cause).2 refused
      have history : s.recorded line = s.withHistory
          (Environment.lastItems s.environment.capacity (s.environment.history ++ [line])) := by
        rw [recorded, Environment.addHistory, shown]
        rfl
      rw [runLine_of_kind t s shown, runKind_eq_plan, planned, ← history]
      exact timed_failSyntax s line cause
  | none =>
      intro t s cancelled
      cases shown : Text.allBlank line with
      | true =>
          rw [runLine, if_pos shown]
          exact .nothing
      | false =>
          rw [runLine_of_kind t s shown, runKind_eq_plan]
          apply origin_timed
          cases planned : plan t (s.recorded line) line with
          | error cause =>
              rw [(plan_eq_error_iff t _ shown cause).1 planned] at refused
              cases refused
          | ok p => exact origin_carryOut _ _ p

end State

end CommandShell
