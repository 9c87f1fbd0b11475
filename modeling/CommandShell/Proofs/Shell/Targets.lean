import CommandShell.Machine.Standard
import CommandShell.Proofs.Line.Stretches
import CommandShell.Proofs.Shell.QuotedEcho
import CommandShell.Proofs.Shell.Redirection
import CommandShell.Proofs.Shell.Stages

/-!
Which file a line writes its output to. A redirected command takes the target as it stands on the
line, and a pipeline takes the one that its last command was read with, where the references are
expanded already. Both are expanded on delivery, so references in the values of variables are
followed by a pipeline alone.
-/
namespace CommandShell

namespace Line

/-- A text of words without quotes and operators. -/
structure Plain (c : Text) : Prop where
  shown : Text.allBlank c = false
  quote : ∀ x ∈ c, isQuote x = false
  unmarked : Unmarked c

theorem Unmarked.isOperatorChar {u : Text} (h : Unmarked u) :
    ∀ x ∈ u, isOperatorChar x = false := by
  intro x hx
  rw [Line.isOperatorChar, h.ofChar?_eq_none x hx]
  rfl

theorem Scan.opened_readAll {t : Text} (h : ∀ x ∈ t, isQuote x = false) (s : Scan) :
    (s.readAll t).opened = s.opened := by
  induction t generalizing s with
  | nil => rfl
  | cons c t ih =>
      obtain ⟨here, later⟩ := List.forall_mem_cons.1 h
      rw [readAll_cons, ih later, read_other here]

section
variable {c u : Text} (hq : ∀ x ∈ c, isQuote x = false) (hc : Unmarked c) (hu : Unmarked u)
include hq hc hu

/-- The operator between the two sides is the only one of the line. -/
theorem sound_redirected : Cut.Sound {} (c ++ [' ']) [⟨.output, ['>'], ' ' :: u⟩] := by
  have first : ∀ x ∈ c ++ [' '], isOperatorChar x = false :=
    List.forall_mem_append.2 ⟨hc.isOperatorChar, List.forall_mem_singleton.2 rfl⟩
  have bare : ∀ x ∈ c ++ [' '], isQuote x = false :=
    List.forall_mem_append.2 ⟨hq, List.forall_mem_singleton.2 rfl⟩
  have after : ∀ x ∈ ' ' :: u, isOperatorChar x = false :=
    List.forall_mem_cons.2 ⟨rfl, hu.isOperatorChar⟩
  refine ⟨Scan.guards_of_forall_not _ first, ?_, .once rfl, ?_, Scan.guards_of_forall_not _ after⟩
  · rw [Scan.inside, Scan.opened_readAll bare]
    rfl
  · rintro _ ⟨⟩
    simp [Cut.spelled]

/-- A redirected command is read with the target expanded. -/
theorem exists_parse_redirected (value? : Text → Option Text)
    (target : Text.allBlank u = false) :
    ∃ command, parse value? (c ++ Direction.output.mark ++ u) = [command] ∧
      command.redirects.output = some (expand value? (Text.trim u)) ∧
      command.redirects.append = false := by
  have sound := sound_redirected hq hc hu
  have spelled : Cut.spelled (c ++ [' ']) [⟨.output, ['>'], ' ' :: u⟩] =
      c ++ Direction.output.mark ++ u := by
    simp [Cut.spelled, Direction.mark]
  have parsed := parse_spelled value? Scan.outside_start sound
  have shown := not_allBlank_spelled sound
  rw [spelled] at parsed shown
  rw [stretches, spelled, chain_cons shown] at parsed
  have described := Stretch.describes_command value?
    (x := ⟨c ++ [' '], [⟨.output, ['>'], ' ' :: u⟩], c ++ Direction.output.mark ++ u⟩)
    (by simp [Part.isPipe])
  refine ⟨_, parsed, described.output.trans ?_, described.append⟩
  have blank : Text.allBlank (' ' :: u) = false := target
  have trimmed : Text.trim (' ' :: u) = Text.trim u := rfl
  simp [Part.isOutput, Part.target?, blank, trimmed]

end

end Line

namespace State

/-- The outcome of the stages of a line with spaced pipes, before its output is delivered. -/
def pipedOutcome (t : BuiltinTable) (s : State) (line : Text) (cancelled : Bool) :
    State × Answer :=
  match Pipeline.ofStages ((s.pipedCommands line).map (stageOf t)) with
  | .error cause => s.failSyntax cause
  | .ok pipeline =>
    let (s, answer, _) := runStagesWith t s pipeline cancelled
    (s, answer)

/-- Only successes are delivered. -/
theorem redirect_of_no_success {s : State} {target? : Option (Text × Bool)} {answer : Answer}
    (failure : ∀ r, answer = .result r → r.success = false) :
    redirect target? (s, answer) = (s, answer) := by
  cases answer with
  | result r => exact redirect_failure (failure r rfl)
  | quits code => rfl
  | broke message => rfl

/-- Where a pipeline stops after its first stage, that one has not been a success. -/
theorem no_success_of_runStagesWith {t : BuiltinTable} {s ran : State} {pipeline : Pipeline}
    {cancelled : Bool} {answer : Answer}
    (h : runStagesWith t s pipeline cancelled = (ran, answer, false)) :
    ∀ r, answer = .result r → r.success = false := by
  obtain ⟨stages, length⟩ := pipeline
  unfold runStagesWith at h
  cases stages with
  | nil => cases length
  | cons first rest =>
      dsimp only at h
      split at h
      · split at h
        -- The first stage is a built-in that has answered: a success would have run the rest.
        · split at h
          · cases h
          · next failure =>
            cases h
            intro r same
            cases same
            simpa using failure
        · next other _ =>
          cases h
          intro r same
          exact absurd same (other r)
      · cases h

theorem runPiped_eq_redirect (t : BuiltinTable) (s : State) {line : Text}
    (foreground : Line.hasBackgroundMark line = false) (cancelled : Bool) :
    runPiped t s line cancelled =
      redirect ((s.pipedCommands line).getLast?.bind fun last =>
          last.redirects.output.map fun target => (target, last.redirects.append))
        (pipedOutcome t s line cancelled) := by
  rw [runPiped, if_neg (by simp [foreground]), pipedOutcome]
  dsimp only
  cases Pipeline.ofStages ((s.pipedCommands line).map (stageOf t)) with
  | error cause => exact (redirect_failure rfl).symm
  | ok pipeline =>
      dsimp only
      cases run : runStagesWith t s pipeline cancelled with
      | mk ran rest =>
          obtain ⟨answer, delivered⟩ := rest
          cases delivered with
          | true => rfl
          | false => exact (redirect_of_no_success (no_success_of_runStagesWith run)).symm

/-- The second part of a pipeline has the target of the line, expanded. -/
theorem exists_pipedCommands (s : State) {p c u : Text} (hp : Line.Plain p) (hc : Line.Plain c)
    (hu : Line.Unmarked u) (target : Text.allBlank u = false) :
    ∃ first last,
      s.pipedCommands (p ++ Line.spacedPipe ++ (c ++ Line.Direction.output.mark ++ u)) =
        [first, last] ∧
      last.redirects.output = some (Line.expand s.value? (Text.trim u)) ∧
      last.redirects.append = false := by
  have parts : Text.pieces Line.spacedPipe
      (p ++ Line.spacedPipe ++ (c ++ Line.Direction.output.mark ++ u)) =
        [p, c ++ Line.Direction.output.mark ++ u] := by
    apply Text.pieces_append_mark (x := '|') (by decide) hp.unmarked.pipe
    have outside : '|' ∉ Line.Direction.output.mark := by decide
    simp [outside, hc.unmarked.pipe, hu.pipe]
  have front : Text.trimStart c ⊆ c := (List.dropWhile_suffix Text.isBlank).subset
  have back : Text.trimEnd u ⊆ u := (Text.prefix_trimEnd u).subset
  have named : Text.allBlank (Text.trimEnd u) = false := by
    refine Bool.eq_false_iff.2 fun blank => ?_
    have empty := (Text.trimEnd_eq_nil_iff _).2 blank
    rw [Text.trimEnd_trimEnd, Text.trimEnd_eq_nil_iff, target] at empty
    cases empty
  obtain ⟨last, read, output, append⟩ := Line.exists_parse_redirected
    (fun x hx => hc.quote x (front hx)) (hc.unmarked.mono front) (hu.mono back) s.value? named
  rw [Text.trim_trimEnd] at output
  have nonempty : Line.parse s.value? (Text.trim p) ≠ [] := by
    intro none
    have blank := (Text.trim_eq_nil_iff _).2 ((Line.parse_eq_nil_iff _ _).1 none)
    rw [Text.trim_trim, Text.trim_eq_nil_iff, hp.shown] at blank
    cases blank
  obtain ⟨first, more, head⟩ := List.exists_cons_of_ne_nil nonempty
  have one : (s.parse (Text.trim p)).head? = some first := by
    rw [State.parse, head]
    rfl
  have two : (s.parse (Text.trim (c ++ Line.Direction.output.mark ++ u))).head? = some last := by
    rw [State.parse, Text.trim_append hc.shown target, read]
    rfl
  refine ⟨first, last, ?_, output, append⟩
  rw [pipedCommands, parts]
  simp only [List.filterMap_cons, List.filterMap_nil, one, two]

/-- The output of a result goes to a file. -/
def writeTo (s : State) (path : Text) (r : Result) : State × Answer :=
  match s.files.write path false (Text.encode r.output) with
  | .ok files => (s.withFiles files, .result { r with output := [] })
  | .error ⟨files, cause⟩ => (s.withFiles files).fail (.redirectionFailed cause)

theorem files_writeTo (s : State) (path : Text) (r : Result) (start : Nat) :
    (timed start (s.writeTo path r)).1.files =
      match s.files.write path false (Text.encode r.output) with
      | .ok files => files
      | .error stopped => stopped.files := by
  rw [writeTo]
  cases s.files.write path false (Text.encode r.output) <;> rfl

/-- Whether a line writes the output of what has run to `path`, if that has been a success and has
left the variables and the directory as they were. -/
def WritesTo (s : State) (path : Text) (ran line : State × Answer) : Prop :=
  ∀ r, ran.2 = .result r → r.success = true →
    ran.1.environment.vars = s.environment.vars →
    ran.1.environment.directory = s.environment.directory →
    line = timed s.machine.clock (ran.1.writeTo path r)

theorem writesTo_redirect (s : State) (target : Text) (ran : State × Answer) :
    s.WritesTo (s.targetPath target) ran
      (timed s.machine.clock (redirect (some (target, false)) ran)) := by
  obtain ⟨state, answer⟩ := ran
  intro r result success vars directory
  cases result
  have value : state.value? = s.value? := by
    funext name
    rw [value?, value?, Environment.get?, Environment.get?, vars]
  have path : state.targetPath target = s.targetPath target := by
    rw [targetPath, targetPath, value, Environment.resolve, Environment.resolve, directory]
  rw [redirect_success success, deliver, path]
  rfl

section
variable {c u : Text} (hc : Line.Plain c) (hu : Line.Unmarked u)
  (target : Text.allBlank u = false) (plain : '&' ∉ u) (t : BuiltinTable) (s : State)
  (cancelled : Bool)
include hc hu target plain

theorem writesTo_redirected :
    let line := c ++ Line.Direction.output.mark ++ u
    s.WritesTo (s.targetPath (Text.trim u))
      (runSimple t (s.withEnvironment (s.environment.addHistory line)) (Text.trim c) cancelled)
      (runLine t s line cancelled) := by
  intro line
  obtain ⟨history, recorded⟩ := s.exists_withHistory_addHistory line
  have foreground : Line.hasBackgroundMark line = false :=
    Line.hasBackgroundMark_append_shown _ target plain
  have shown : Text.allBlank line = false := by
    rw [Text.allBlank_append, target, Bool.and_false]
  rw [runLine_of_shown t s shown, recorded,
    runKind_redirected t _ hc.unmarked hu hc.shown target .output foreground]
  exact s.writesTo_redirect (Text.trim u) _

theorem writesTo_piped {p : Text} (hp : Line.Plain p) :
    let line := p ++ Line.spacedPipe ++ (c ++ Line.Direction.output.mark ++ u)
    s.WritesTo (s.targetPath (Line.expand s.value? (Text.trim u)))
      (pipedOutcome t (s.withEnvironment (s.environment.addHistory line)) line cancelled)
      (runLine t s line cancelled) := by
  intro line
  obtain ⟨history, recorded⟩ := s.exists_withHistory_addHistory line
  have foreground : Line.hasBackgroundMark line = false := by
    rw [show line = p ++ Line.spacedPipe ++ (c ++ Line.Direction.output.mark) ++ u by simp [line]]
    exact Line.hasBackgroundMark_append_shown _ target plain
  have shown : Text.allBlank line = false := by
    rw [Text.allBlank_append, Text.allBlank_append, hp.shown]
    rfl
  have kind : Line.kind line = .pipeline := if_pos (Text.has_append_mark ..)
  obtain ⟨first, last, commands, output, append⟩ :=
    (s.withHistory history).exists_pipedCommands hp hc hu target
  rw [runLine_of_shown t s shown, recorded, runKind, kind]
  dsimp only
  rw [runPiped_eq_redirect t _ foreground, commands]
  simp only [List.getLast?_cons_cons, List.getLast?_singleton, Option.bind_some, output, append,
    Option.map_some]
  -- The target has been expanded when the line was read, and the delivery expands it again.
  exact s.writesTo_redirect (Line.expand s.value? (Text.trim u)) _

end

/-- A redirected command writes to the target expanded once, and a pipeline to the target expanded
twice. These are the same file where the expanded target holds no references. -/
theorem target_expansions {p c u : Text} (hp : Line.Plain p) (hc : Line.Plain c)
    (hu : Line.Unmarked u) (target : Text.allBlank u = false) (plain : '&' ∉ u)
    (t : BuiltinTable) (s : State) (cancelled : Bool) :
    let record (line : Text) := s.withEnvironment (s.environment.addHistory line)
    let redirected := c ++ Line.Direction.output.mark ++ u
    let piped := p ++ Line.spacedPipe ++ redirected
    let once := Line.expand s.value? (Text.trim u)
    let twice := Line.expand s.value? once
    let path (target : Text) := s.environment.resolve (Line.unquote target)
    s.WritesTo (path once) (runSimple t (record redirected) (Text.trim c) cancelled)
        (runLine t s redirected cancelled) ∧
      s.WritesTo (path twice) (pipedOutcome t (record piped) piped cancelled)
        (runLine t s piped cancelled) ∧
      ('$' ∉ once → '%' ∉ once → path twice = path once) := by
  intro record redirected piped once twice path
  refine ⟨?_, ?_, ?_⟩
  · exact writesTo_redirected hc hu target plain t s cancelled
  · exact writesTo_piped hc hu target plain t s cancelled hp
  · intro dollar percent
    rw [show twice = once from Line.expand_of_not_mem s.value? dollar percent]

section Nested

/-- A session in which the value of one variable is a reference to another one. -/
def nested : State :=
  let files := ((Files.empty 0).layDirectory "/home".toList).layFile "/usr/bin/echo".toList
    Program.Utility.echo.image Machine.programMode
  let s := State.start { assets := [] } [("PATH".toList, "/usr/bin".toList)]
    { Machine.standard 0 "/home".toList with files }
  s.withEnvironment ((s.environment.set "V".toList "$W".toList).set "W".toList "x".toList)

def nestedLine : Text := "echo a | echo hi > $V".toList

def nestedRecorded : State :=
  nested.withEnvironment (nested.environment.addHistory nestedLine)

/-- The program of the second command, once it runs. -/
def nestedChild : Child where
  pid := 400001
  image := ⟨.echo, "/usr/bin/echo".toList, ["hi".toList]⟩
  vars := [("PATH".toList, "/usr/bin".toList), (Environment.promptName, defaultPrompt),
    ("V".toList, "$W".toList), ("W".toList, "x".toList)]
  directory := "/home".toList
  started := 0

theorem begin_nested :
    nestedRecorded.begin "echo".toList ["hi".toList] =
      .ok (nestedRecorded.populate [nestedChild], 400001) := by
  have found : nestedRecorded.resolveCommand "echo".toList = some "/usr/bin/echo".toList := by
    decide +kernel
  have sorted : nestedRecorded.environment.vars.sorted = nestedChild.vars := by
    have items : nestedRecorded.environment.vars.items = nestedChild.vars := by decide +kernel
    rw [Variables.sorted, items]
    exact List.mergeSort_of_pairwise (by decide +kernel)
  have spawned : nestedRecorded.machine.spawn ⟨"/usr/bin/echo".toList,
      ["hi".toList].map Line.unquote, nestedChild.vars, nestedRecorded.environment.directory⟩ =
        .ok (nestedRecorded.machine.populate [nestedChild], 400001) := by
    decide +kernel
  rw [begin, found, sorted]
  dsimp only
  rw [spawned]
  rfl

/-- The first command is built in, and the second one writes its line. -/
theorem pipedOutcome_nested :
    ∃ ran r, pipedOutcome .standard nestedRecorded nestedLine false = (ran, .result r) ∧
      r = .ofExit 0 "hi\n".toList [] ∧ ran.files = nested.files ∧
      ran.environment = nestedRecorded.environment := by
  let rest : List Stage := [⟨"echo".toList, ["hi".toList], true⟩]
  have formed : (nestedRecorded.pipedCommands nestedLine).map (stageOf .standard) =
      ⟨"echo".toList, ["a".toList], true⟩ :: rest := by
    decide +kernel
  have answered : dispatch .standard nestedRecorded "echo".toList ["a".toList] false =
      (nestedRecorded, .result (.ok "a\n".toList)) :=
    rfl
  have began : nestedRecorded.beginAll [] rest =
      .ok (nestedRecorded.populate [nestedChild], [400001]) := by
    rw [beginAll, begin_nested]
    rfl
  have success : (Result.ok "a\n".toList).success = true := rfl
  rw [pipedOutcome, formed, Pipeline.ofStages, dif_pos (by decide)]
  dsimp only
  rw [runStagesWith_of_builtin rfl rfl answered, if_pos success, runStages, if_neg (by decide),
    began]
  refine ⟨_, _, rfl, ?_, ?_, ?_⟩
  · decide +kernel
  · decide +kernel
  · decide +kernel

theorem target_expansions_nested :
    let redirected := "echo hi > $V".toList
    let record (line : Text) := nested.withEnvironment (nested.environment.addHistory line)
    let after (line path : Text) := (runLine .standard nested line false).1.files.contentAt path
    let said := Content.file (Text.encode "hi\n".toList)
    nested.WritesTo "/home/$W".toList
        (runSimple .standard (record redirected) "echo hi".toList false)
        (runLine .standard nested redirected false) ∧
      nested.WritesTo "/home/x".toList (pipedOutcome .standard (record nestedLine) nestedLine false)
        (runLine .standard nested nestedLine false) ∧
      after redirected "/home/$W".toList = .ok said ∧
      after redirected "/home/x".toList = .error .notFound ∧
      after nestedLine "/home/x".toList = .ok said ∧
      after nestedLine "/home/$W".toList = .error .notFound := by
  intro redirected record after said
  have head : Line.Plain "echo a".toList :=
    ⟨rfl, by simp [Line.isQuote], by decide, by decide, by decide⟩
  have command : Line.Plain "echo hi".toList :=
    ⟨rfl, by simp [Line.isQuote], by decide, by decide, by decide⟩
  have unmarked : Line.Unmarked "$V".toList := ⟨by decide, by decide, by decide⟩
  obtain ⟨one, two, -⟩ :=
    target_expansions head command unmarked (by decide) (by decide) .standard nested false
  have once : nested.environment.resolve
      (Line.unquote (Line.expand nested.value? (Text.trim "$V".toList))) = "/home/$W".toList := by
    decide +kernel
  have twice : nested.environment.resolve (Line.unquote
      (Line.expand nested.value? (Line.expand nested.value? (Text.trim "$V".toList)))) =
        "/home/x".toList := by
    decide +kernel
  have one : nested.WritesTo "/home/$W".toList
      (runSimple .standard (record redirected) "echo hi".toList false)
      (runLine .standard nested redirected false) := once ▸ one
  have two : nested.WritesTo "/home/x".toList
      (pipedOutcome .standard (record nestedLine) nestedLine false)
      (runLine .standard nested nestedLine false) := twice ▸ two
  have echoed := one (.ok "hi\n".toList) (by decide +kernel) rfl (by decide +kernel)
    (by decide +kernel)
  obtain ⟨ran, r, run, rfl, files, environment⟩ := pipedOutcome_nested
  have kept : ran.environment.vars = nested.environment.vars ∧
      ran.environment.directory = nested.environment.directory := by
    rw [environment]
    decide +kernel
  have sent : runLine .standard nested nestedLine false =
      timed nested.machine.clock (ran.writeTo "/home/x".toList (.ofExit 0 "hi\n".toList [])) := by
    have delivers := two
    rw [show pipedOutcome .standard (record nestedLine) nestedLine false = _ from run] at delivers
    exact delivers _ rfl rfl kept.1 kept.2
  have left : (runLine .standard nested nestedLine false).1.files =
      match nested.files.write "/home/x".toList false (Text.encode "hi\n".toList) with
      | .ok files => files
      | .error stopped => stopped.files := by
    rw [sent, ← files]
    exact files_writeTo ran _ _ _
  refine ⟨one, two, ?_, ?_, ?_, ?_⟩
  · simp only [after, echoed]
    decide +kernel
  · simp only [after, echoed]
    decide +kernel
  · simp only [after, left]
    decide +kernel
  · simp only [after, left]
    decide +kernel

end Nested

end State

end CommandShell
