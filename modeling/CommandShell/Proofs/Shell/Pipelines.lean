import CommandShell.Machine.Standard
import CommandShell.Proofs.Shell.Operators
import CommandShell.Proofs.Shell.QuotedEcho
import CommandShell.Proofs.Shell.StageEvents
import CommandShell.Proofs.Shell.Targets

/-!
Pipelines come to the composition of their stages.

On a line with spaced pipes the first command may be built in. It is run by itself, and the others
are fed with its output if it succeeds. If it fails its failure is the answer, and none of them is
started.
-/
namespace CommandShell.State

/-- The target of a line with spaced pipes: that of its last command. -/
def pipedTarget? (s : State) (line : Text) : Option (Text × Bool) :=
  (s.pipedCommands line).getLast?.bind fun last =>
    last.redirects.output.map fun target => (target, last.redirects.append)

theorem not_allBlank_of_kind_pipeline {line : Text} (h : Line.kind line = .pipeline) :
    Text.allBlank line = false := by
  unfold Line.kind at h
  split at h
  · next marked =>
    have inside := (Text.has_iff _ _).1 marked
    exact Text.not_allBlank_of_mem (c := '|') (inside.subset (by decide)) rfl
  · split at h
    · cases h
    · split at h <;> cases h

/-- A line with spaced pipes that is no pipeline is refused, and nothing is run. -/
theorem runLine_of_no_pipeline {t : BuiltinTable} {s : State} {line : Text}
    (kind : Line.kind line = .pipeline)
    (refused : Line.hasBackgroundMark line = true ∨
      ((s.recorded line).pipedCommands line).length < 2) :
    ∃ cause : SyntaxError, runLine t s line false =
      (s.recorded line, .result (Result.failure cause.message 1)) := by
  have run : ∃ cause, runPiped t (s.recorded line) line false =
      (s.recorded line).failSyntax cause := by
    by_cases marked : Line.hasBackgroundMark line = true
    · exact ⟨_, by rw [runPiped, if_pos marked]⟩
    · have short := refused.resolve_left marked
      refine ⟨.tooFewStages, ?_⟩
      rw [runPiped, if_neg marked]
      dsimp only
      rw [Pipeline.ofStages, dif_neg (by rw [List.length_map]; omega)]
  obtain ⟨cause, failed⟩ := run
  refine ⟨cause, ?_⟩
  rw [runLine_of_kind t s (not_allBlank_of_kind_pipeline kind), runKind, kind]
  dsimp only
  rw [failed, timed_failSyntax]

theorem runLine_of_builtin_head {t : BuiltinTable} {s s' : State} {line : Text}
    {first : Line.Command} {rest : List Line.Command} {builtin : Builtin} {head : Result}
    (kind : Line.kind line = .pipeline) (foreground : Line.hasBackgroundMark line = false)
    (commands : (s.recorded line).pipedCommands line = first :: rest) (more : rest ≠ [])
    (named : t.lookup first.name = some builtin)
    (answered : builtin.invoke first.arguments (s.recorded line) = (s', .result head)) :
    runLine t s line false = timed s.machine.clock
      (if head.success then
        redirect ((s.recorded line).pipedTarget? line)
          ((s'.runStages (rest.map (stageOf t)) head.output false).1,
            .result (s'.runStages (rest.map (stageOf t)) head.output false).2)
      else (s', .result head)) := by
  have shown := not_allBlank_of_kind_pipeline kind
  have long : 2 ≤ (stageOf t first :: rest.map (stageOf t)).length := by
    have := List.length_pos_iff.2 more
    simp only [List.length_cons, List.length_map]
    omega
  have formed : Pipeline.ofStages (((s.recorded line).pipedCommands line).map (stageOf t)) =
      .ok ⟨stageOf t first :: rest.map (stageOf t), long⟩ := by
    rw [commands, List.map_cons, Pipeline.ofStages, dif_pos long]
  have dispatched : dispatch t (s.recorded line) first.name first.arguments false =
      (s', .result head) := by
    rw [dispatch, named]
    exact answered
  have builtin : (stageOf t first).builtin = true := by
    rw [stageOf, BuiltinTable.contains, named]
    rfl
  rw [runLine_of_kind t s shown, runKind, kind]
  dsimp only
  rw [runPiped_eq_redirect t _ foreground, pipedOutcome, formed]
  dsimp only
  rw [runStagesWith_of_builtin rfl builtin dispatched]
  cases success : head.success with
  | true => rfl
  | false => exact congrArg (timed _) (redirect_failure success)

theorem performs_recorded (s : State) (line : Text) (calm : Files → Prop) (stage : Stage)
    (f : Behaviour) : (s.recorded line).Performs calm stage f ↔ s.Performs calm stage f := by
  unfold recorded Environment.addHistory
  split <;> rfl

theorem Fresh.recorded {s : State} (fresh : s.Fresh) (line : Text) : (s.recorded line).Fresh :=
  ⟨fresh.children, fresh.supervisors, fresh.tokens⟩

/-- Stages that can all be started, and then reply by functions, come to the composition of these,
with a text for the first of them or, two or more, without. A line with spaced pipes whose first
command is built in runs that, and then the others on its output; if it fails, its failure is the
answer and what it leaves is what is left. -/
theorem pipelines_compose (calm : Files → Prop) :
    (∀ (s : State) stages fs, s.Fresh → calm s.machine.files → stages ≠ [] →
      List.Forall₂ (s.Performs calm) stages fs →
      (∀ input, s.Composes fs input (s.runStages stages input false)) ∧
      ∀ pipeline : Pipeline, pipeline.stages = stages →
        s.Composes fs [] (s.runPipeline pipeline false)) ∧
    ∀ (t : BuiltinTable) (s : State) line, Line.kind line = .pipeline →
      ((Line.hasBackgroundMark line = true ∨
          ((s.recorded line).pipedCommands line).length < 2) →
        ∃ cause : SyntaxError, runLine t s line false =
          (s.recorded line, .result (Result.failure cause.message 1))) ∧
      ∀ first rest builtin s' head, Line.hasBackgroundMark line = false →
        (s.recorded line).pipedCommands line = first :: rest → rest ≠ [] →
        t.lookup first.name = some builtin →
        builtin.invoke first.arguments (s.recorded line) = (s', .result head) →
        (head.success = false → runLine t s line false = timed s.machine.clock (s', .result head)) ∧
        (head.success = true → ∀ fs, s'.Fresh → calm s'.machine.files →
          List.Forall₂ (s'.Performs calm) (rest.map (stageOf t)) fs →
          ∃ after, s'.Composes fs head.output after ∧
            runLine t s line false = timed s.machine.clock
              (redirect ((s.recorded line).pipedTarget? line) (after.1, .result after.2))) := by
  refine ⟨fun s stages fs fresh here some_stage performs => ⟨fun input => ?_, ?_⟩,
    fun t s line kind => ⟨runLine_of_no_pipeline kind, ?_⟩⟩
  · exact runStages_composes fresh here some_stage performs input
  · rintro pipeline rfl
    exact runStages_composes fresh here some_stage performs []
  · intro first rest builtin s' head foreground commands more named answered
    have run := runLine_of_builtin_head kind foreground commands more named answered
    refine ⟨fun failed => by rw [run, failed]; rfl, fun succeeded fs fresh here performs => ?_⟩
    have some_stage : rest.map (stageOf t) ≠ [] := by simpa using more
    refine ⟨_, runStages_composes fresh here some_stage performs head.output, ?_⟩
    rw [run, if_pos succeeded]

section Deleting

/-- A program that deletes some bytes from its input. -/
def deleting (gone : Bytes) : Behaviour := fun input =>
  { output := input.filter fun b => !gone.contains b }

def deleteStage : Stage := ⟨"tr".toList, ["-d".toList, ['a']], false⟩

/-- A session that finds the programs of the standard machine. -/
def searching : State :=
  State.start { assets := [] } [("PATH".toList, "/usr/bin".toList)]
    (Machine.standard 0 "/home".toList)

theorem performs_deleteStage : searching.Performs (fun _ => True) deleteStage (deleting [97]) := by
  have vars : searching.environment.vars.sorted =
      [("PATH".toList, "/usr/bin".toList), (Environment.promptName, defaultPrompt)] := by
    have items : searching.environment.vars.items =
        [("PATH".toList, "/usr/bin".toList), (Environment.promptName, defaultPrompt)] := by
      decide +kernel
    rw [Variables.sorted, items]
    simp [List.mergeSort, List.MergeSort.Internal.splitInTwo, List.merge]
    decide
  have found : searching.resolveCommand deleteStage.command = some "/usr/bin/tr".toList := by
    decide +kernel
  refine performs_of_find ⟨.tr, "/usr/bin/tr".toList, ["-d".toList, ['a']]⟩ found ?_ ?_
    fun pid => ⟨rfl, rfl, fun input files finite _ => ?_⟩
  · rw [launch, vars]
    decide +kernel
  · rw [launch, vars]
    decide +kernel
  · exact ⟨(Program.draining_shows (fun c => deleting [97] c.input.bytes)
      (c := ⟨_, _, _, _, input, pid, files⟩) finite).1, trivial⟩

theorem pipelines_compose_deleting :
    let line := "echo abc | tr -d a".toList
    searching.Performs (fun _ => True) deleteStage (deleting [97]) ∧
    (searching.runStages [deleteStage, deleteStage] "abc".toList false).2 =
      Result.ofExit 0 "bc\n".toList [] ∧
    Line.kind line = .pipeline ∧
    ∃ elapsed, (runLine BuiltinTable.standard searching line false).2 =
      .result ((Result.ofExit 0 "bc\n".toList []).withElapsed elapsed) := by
  intro line
  have performs := performs_deleteStage
  have fresh : searching.Fresh := fresh_start _ _ rfl
  have kind : Line.kind line = .pipeline := by decide +kernel
  obtain ⟨composed, -⟩ := (pipelines_compose fun _ => True).1 searching [deleteStage, deleteStage]
    [deleting [97], deleting [97]] fresh trivial (List.cons_ne_nil _ _)
    (.cons performs (.cons performs .nil))
  obtain ⟨-, typed⟩ := (pipelines_compose fun _ => True).2 BuiltinTable.standard searching line kind
  refine ⟨performs, ?_, kind, ?_⟩
  · obtain ⟨last, final, answer⟩ := (composed "abc".toList).answer
    obtain rfl : deleting [97] (deleting [97] (Text.encode "abc".toList)).output = last :=
      Option.some.inj final
    refine answer.trans ?_
    decide +kernel
  · let first : Line.Command := ⟨"echo abc".toList, "echo".toList, ["abc".toList], {}⟩
    let next : Line.Command :=
      ⟨"tr -d a".toList, deleteStage.command, deleteStage.arguments, {}⟩
    have staged : stageOf BuiltinTable.standard next = deleteStage := by decide +kernel
    have commands : (searching.recorded line).pipedCommands line = [first, next] := by
      decide +kernel
    have echoed : (Builtin.echo "echo".toList).invoke first.arguments (searching.recorded line) =
        (searching.recorded line, .result (.ok "abc\n".toList)) := by
      rw [Builtin.invoke]
      rfl
    have performed : (searching.recorded line).Performs (fun _ => True)
        (stageOf BuiltinTable.standard next) (deleting [97]) := by
      rw [staged, performs_recorded]
      exact performs
    obtain ⟨-, succeeded⟩ := typed first [next] (Builtin.echo "echo".toList) _ _ (by decide +kernel)
      commands (List.cons_ne_nil _ _) rfl echoed
    obtain ⟨after, reached, run⟩ :=
      succeeded rfl [deleting [97]] (fresh.recorded line) trivial (.cons performed .nil)
    obtain ⟨last, final, answer⟩ := reached.answer
    obtain rfl : deleting [97] (Text.encode "abc\n".toList) = last := Option.some.inj final
    have target : (searching.recorded line).pipedTarget? line = none := by decide +kernel
    refine ⟨after.1.machine.clock - searching.machine.clock, ?_⟩
    rw [run, target, redirect, timed, answer]
    rfl

end Deleting

end CommandShell.State
