import CommandShell.Proofs.Files.Written
import CommandShell.Proofs.Shell.Stages

/-!
Which file a command runs. A name is resolved from the directory in which the shell was started,
but a program is started from the current directory, and a path without a slash is searched for
once more. So the file that runs is the one that was found where its path is absolute, and
otherwise only where both ways of looking come to the same file.
-/
namespace CommandShell

namespace Path

theorem join_of_isAbsolute {path : Text} (h : isAbsolute path = true) (base : Text) :
    join base path = path := if_pos h

theorem exists_of_isAbsolute {path : Text} (h : isAbsolute path = true) :
    ∃ rest, path = '/' :: rest := by
  unfold isAbsolute at h
  split at h
  · exact ⟨_, rfl⟩
  · cases h

theorem isAbsolute_join {base : Text} (h : isAbsolute base = true) (path : Text) :
    isAbsolute (join base path) = true := by
  obtain ⟨rest, rfl⟩ := exists_of_isAbsolute h
  by_cases absolute : isAbsolute path = true
  · rw [join_of_isAbsolute absolute]
    exact absolute
  · rw [join, if_neg absolute]
    split <;> rfl

end Path

namespace Program

/-- The paths that a start by `path` tries in turn, as they are seen from the directory of the
call. -/
def startPaths (path : Text) (c : Call) : List Text :=
  if path.contains '/' then [path]
  else
    (Text.pieces [':'] ((c.valueOf? "PATH".toList).getD defaultSearch)).map fun directory =>
      if directory.isEmpty then path else Path.join directory path

/-- Whether a start by `path` finds a program at one of the paths that it tries. -/
def canStart (path : Text) (c : Call) (candidate : Text) : Bool :=
  (findAt c.files c.directory maxScripts candidate path c.arguments).isOk

/-- The file that a start by `path` executes. -/
def executed? (path : Text) (c : Call) : Option FileId :=
  ((startPaths path c).find? (canStart path c)).bind fun candidate =>
    c.files.fileAt? (Path.join c.directory candidate)

/-- Whether an image is the program that some bytes hold: a utility, or what reads them as a
script. -/
def IsProgram (path : Text) (c : Call) (candidate : Text) (bytes : Bytes) (image : Image) : Prop :=
  match interpreter? bytes with
  | some (interpreter, argument) =>
    findAt c.files c.directory (maxScripts - 1) interpreter interpreter
      (argument.toList ++ candidate :: c.arguments) = .ok image
  | none => ∃ utility, Utility.ofImage? bytes = some utility ∧ image = ⟨utility, path, c.arguments⟩

theorem isProgram_of_findAt {path candidate : Text} {c : Call} {image : Image}
    (h : findAt c.files c.directory maxScripts candidate path c.arguments = .ok image) :
    ∃ id bytes, c.files.fileAt? (Path.join c.directory candidate) = some id ∧
      c.files.bytes? id = some bytes ∧ IsProgram path c candidate bytes image := by
  rw [maxScripts, findAt] at h
  cases located : c.files.locate true (Path.join c.directory candidate) with
  | error cause =>
      rw [located] at h
      cases h
  | ok place =>
      rw [located] at h
      dsimp only at h
      split at h
      · next bytes mode modified node =>
        have there : c.files.bytes? place.id = some bytes := by
          simp [Files.bytes?, Files.content?, node]
        refine ⟨place.id, bytes, by simp [Files.fileAt?, located, there], there, ?_⟩
        split at h
        · cases h
        · rw [IsProgram]
          cases script : interpreter? bytes with
          | some shebang =>
              rw [script] at h
              exact h
          | none =>
              rw [script] at h
              dsimp only at h ⊢
              split at h
              · next utility known =>
                cases h
                exact ⟨utility, known, rfl⟩
              · cases h
      · cases h

/-- A search that is answered has passed over everything before its answer. -/
theorem find?_of_findFirst {find : Text → Except IoError Image} {denied : Bool}
    {paths : List Text} {image : Image} (h : findFirst find denied paths = .ok image) :
    ∃ path, paths.find? (fun path => (find path).isOk) = some path ∧ find path = .ok image := by
  induction paths generalizing denied with
  | nil => cases h
  | cons path rest ih =>
      cases found : find path with
      | ok answer =>
          rw [findFirst, found] at h
          cases h
          exact ⟨path, by simp [found, Except.isOk, Except.toBool], found⟩
      | error cause =>
          have skipped : (find path).isOk = false := by rw [found]; rfl
          rw [findFirst, found] at h
          rw [List.find?_cons, skipped]
          cases cause with
          | denied | notFound | notDirectory => exact ih h
          | _ => cases h

/-- The program that is found is the one in the file that is executed. -/
theorem isProgram_of_find {path : Text} {c : Call} {image : Image} (h : find path c = .ok image) :
    ∃ candidate id bytes, executed? path c = some id ∧ c.files.bytes? id = some bytes ∧
      IsProgram path c candidate bytes image := by
  have tried : ∃ candidate, (startPaths path c).find? (canStart path c) = some candidate ∧
      findAt c.files c.directory maxScripts candidate path c.arguments = .ok image := by
    rw [find] at h
    dsimp only at h
    rw [startPaths]
    split at h
    · next slash =>
      rw [if_pos slash]
      exact ⟨path, by simp [canStart, h, Except.isOk, Except.toBool], h⟩
    · next bare =>
      rw [if_neg bare]
      exact find?_of_findFirst h
  obtain ⟨candidate, first, found⟩ := tried
  obtain ⟨id, bytes, place, there, program⟩ := isProgram_of_findAt found
  exact ⟨candidate, id, bytes, by rw [executed?, first]; exact place, there, program⟩

/-- Where the current directory is absolute, a name is resolved to a relative path only as it is
spelled, or in a relative directory of the search path. -/
theorem relative_of_resolve {isFile : Text → Bool} {command directory path : Text}
    {search : Option Text} (h : resolve isFile command directory search = some path)
    (absolute : Path.isAbsolute directory = true) (relative : Path.isAbsolute path = false) :
    path ∈ spellings command ∨ ∃ searched ∈ search.elim [] searchDirectories,
      Path.isAbsolute searched = false ∧ ∃ name ∈ spellings command,
        path = Path.join searched name := by
  rw [resolve_eq_find?] at h
  split at h
  · cases h
  · have member := List.mem_of_find?_eq_some h
    rw [candidates, List.mem_append, List.mem_flatMap, List.mem_flatMap] at member
    cases member with
    | inl near =>
        obtain ⟨name, spelled, beside⟩ := near
        rw [Program.beside] at beside
        split at beside
        · exact .inl (List.mem_singleton.1 beside ▸ spelled)
        · rw [List.mem_cons, List.mem_singleton] at beside
          cases beside with
          | inl same => exact .inl (same ▸ spelled)
          | inr joined =>
              rw [joined, Path.isAbsolute_join absolute] at relative
              cases relative
    | inr far =>
        obtain ⟨searched, listed, joined⟩ := far
        obtain ⟨name, spelled, same⟩ := List.mem_map.1 joined
        refine .inr ⟨searched, listed, ?_, name, spelled, same.symm⟩
        cases rooted : Path.isAbsolute searched with
        | false => rfl
        | true =>
            rw [← same, Path.isAbsolute_join rooted] at relative
            cases relative

end Program

namespace State

/-- The call by which a start looks for the program of a path. -/
def callOf (s : State) (path : Text) (arguments : List Text) : Call where
  name := path
  arguments := arguments.map Line.unquote
  vars := s.environment.vars.sorted
  directory := s.environment.directory
  input := {}
  pid := s.machine.nextPid
  files := s.files

/-- Whether a start by a path that was found comes to the file that it was found for. -/
def StartsFound (s : State) (path : Text) (arguments : List Text) : Prop :=
  let found := s.files.fileAt? (s.machine.absolute path)
  let seen (path : Text) := s.files.fileAt? (Path.join s.environment.directory path)
  Path.isAbsolute path = true ∨
  ('/' ∈ path ∧ seen path = found) ∨
  ('/' ∉ path ∧ ∃ candidate, (Program.startPaths path (s.callOf path arguments)).find?
    (Program.canStart path (s.callOf path arguments)) = some candidate ∧ seen candidate = found)

/-- Whether a start by a path has added a process, which runs the program of a file. -/
def Runs (s s' : State) (command path : Text) (arguments : List Text) (file : FileId) : Prop :=
  ∃ candidate bytes image,
    Program.executed? path (s.callOf path arguments) = some file ∧
    s.files.bytes? file = some bytes ∧
    Program.IsProgram path (s.callOf path arguments) candidate bytes image ∧
    s'.machine = s.machine.populate
      [s.machine.born (s.launch path ⟨command, arguments, false⟩) image]

theorem exists_found {s : State} {command path : Text}
    (h : s.resolveCommand command = some path) :
    ∃ id, s.files.fileAt? (s.machine.absolute path) = some id := by
  rw [resolveCommand, Program.resolve_eq_find?] at h
  split at h
  · cases h
  · have file := List.find?_some h
    rw [Machine.isFile, Bool.and_eq_true, ← Files.isSome_fileAt?] at file
    exact Option.isSome_iff_exists.1 file.2

theorem begin_eq_ok {s s' : State} {command path : Text} {arguments : List Text} {pid : Pid}
    (resolved : s.resolveCommand command = some path)
    (h : s.begin command arguments = .ok (s', pid)) :
    ∃ image, Program.find path (s.callOf path arguments) = .ok image ∧
      s'.machine = s.machine.populate
        [s.machine.born (s.launch path ⟨command, arguments, false⟩) image] := by
  rw [begin, resolved] at h
  dsimp only at h
  rw [Machine.spawn] at h
  split at h
  · cases h
  · next machine began spawned =>
    cases h
    split at spawned
    · cases spawned
    · split at spawned
      · cases spawned
      · dsimp only at spawned
        split at spawned
        · cases spawned
        · next image found =>
          cases spawned
          exact ⟨image, found, rfl⟩
      · cases spawned

theorem eq_found_iff {s : State} {path : Text} {arguments : List Text} {executed found : FileId}
    (runs : Program.executed? path (s.callOf path arguments) = some executed)
    (there : s.files.fileAt? (s.machine.absolute path) = some found) :
    executed = found ↔ s.StartsFound path arguments := by
  rw [Program.executed?, Option.bind_eq_some_iff] at runs
  obtain ⟨candidate, first, seen⟩ := runs
  have slashed (slash : '/' ∈ path) : candidate = path := by
    have tried := List.mem_of_find?_eq_some first
    rw [Program.startPaths, if_pos (by simpa using slash)] at tried
    exact List.mem_singleton.1 tried
  rw [StartsFound, there]
  constructor
  · intro same
    by_cases slash : '/' ∈ path
    · exact .inr (.inl ⟨slash, same ▸ slashed slash ▸ seen⟩)
    · exact .inr (.inr ⟨slash, candidate, first, same ▸ seen⟩)
  · intro agrees
    rcases agrees with absolute | ⟨slash, same⟩ | ⟨-, other, tried, same⟩
    · -- An absolute path is the same from every directory.
      obtain ⟨rest, rfl⟩ := Path.exists_of_isAbsolute absolute
      rw [slashed List.mem_cons_self, Path.join_of_isAbsolute absolute] at seen
      rw [Machine.absolute, Path.join_of_isAbsolute absolute] at there
      exact Option.some.inj (seen.symm.trans there)
    · rw [slashed slash] at seen
      exact Option.some.inj (seen.symm.trans same)
    · cases first.symm.trans tried
      exact Option.some.inj (seen.symm.trans same)

/-- A command whose name is resolved to a path has been found at a regular file. If it can be
started, the new process runs the program of a file, which is that one exactly where a start by the
path comes to it; in particular where the path is absolute. The path is relative only where the name
is found as it is spelled or in a relative directory of the search path. -/
theorem runs_found_iff {s : State} {command path : Text}
    (resolved : s.resolveCommand command = some path) (arguments : List Text) :
    ∃ found, s.files.fileAt? (s.machine.absolute path) = some found ∧
      (Path.isAbsolute s.environment.directory = true → Path.isAbsolute path = false →
        path ∈ Program.spellings command ∨
        ∃ searched ∈ (s.value? "PATH".toList).elim [] Program.searchDirectories,
          Path.isAbsolute searched = false ∧ ∃ name ∈ Program.spellings command,
            path = Path.join searched name) ∧
      ∀ s' pid, s.begin command arguments = .ok (s', pid) →
        ∃ executed, s.Runs s' command path arguments executed ∧
          (executed = found ↔ s.StartsFound path arguments) := by
  obtain ⟨found, there⟩ := exists_found resolved
  refine ⟨found, there, Program.relative_of_resolve resolved, ?_⟩
  intro s' pid began
  obtain ⟨image, program, started⟩ := begin_eq_ok resolved began
  obtain ⟨candidate, executed, bytes, runs, held, is⟩ := Program.isProgram_of_find program
  exact ⟨executed, ⟨candidate, bytes, image, runs, held, is, started⟩, eq_found_iff runs there⟩

theorem runs_found_bare :
    let files := ((Files.empty 0).layFile "/home/tool".toList Program.Utility.exitSuccess.image
      0o755).layFile "/home/bin/tool".toList Program.Utility.exitFailure.image 0o755
    let s := State.start { assets := [] } [("PATH".toList, "/home/bin".toList)]
      { Machine.standard 0 "/home".toList with files }
    let started (name : Text) (same : FileId → FileId → Prop) : Prop :=
      s.resolveCommand name = some name ∧ ∃ s' pid found executed,
        s.begin name [] = .ok (s', pid) ∧
        s.files.fileAt? (s.machine.absolute name) = some found ∧
        s.Runs s' name name [] executed ∧ same executed found
    started "./tool".toList (· = ·) ∧ started "tool".toList (· ≠ ·) := by
  intro files s started
  have vars : s.environment.vars.sorted =
      [("PATH".toList, "/home/bin".toList), (Environment.promptName, defaultPrompt)] := by
    have items : s.environment.vars.items =
        [("PATH".toList, "/home/bin".toList), (Environment.promptName, defaultPrompt)] := by
      decide +kernel
    rw [Variables.sorted, items]
    simp [List.mergeSort, List.MergeSort.Internal.splitInTwo, List.merge]
    decide
  have begins (name : Text) (resolved : s.resolveCommand name = some name)
      (spawned : (s.machine.spawn (s.launch name ⟨name, [], false⟩)).isOk = true) :
      ∃ s' pid, s.begin name [] = .ok (s', pid) := by
    obtain ⟨c, -, began, -⟩ := begin_of_starts ⟨name, resolved, spawned⟩ []
    exact ⟨_, _, State.populate_nil s ▸ began⟩
  constructor
  · have resolved : s.resolveCommand "./tool".toList = some "./tool".toList := by decide +kernel
    obtain ⟨s', pid, began⟩ := begins _ resolved (by rw [launch, vars]; decide +kernel)
    obtain ⟨found, there, -, runs⟩ := runs_found_iff resolved []
    obtain ⟨executed, run, same⟩ := runs s' pid began
    refine ⟨resolved, s', pid, found, executed, began, there, run, same.2 (.inr (.inl ?_))⟩
    exact ⟨by decide, by decide +kernel⟩
  · have resolved : s.resolveCommand "tool".toList = some "tool".toList := by decide +kernel
    obtain ⟨s', pid, began⟩ := begins _ resolved (by rw [launch, vars]; decide +kernel)
    obtain ⟨found, there, -, runs⟩ := runs_found_iff resolved []
    obtain ⟨executed, run, same⟩ := runs s' pid began
    refine ⟨resolved, s', pid, found, executed, began, there, run, fun eq => ?_⟩
    have first : (Program.startPaths "tool".toList (s.callOf "tool".toList [])).find?
        (Program.canStart "tool".toList (s.callOf "tool".toList [])) =
          some "/home/bin/tool".toList := by
      rw [callOf, vars]
      decide +kernel
    rcases same.1 eq with absolute | ⟨slash, -⟩ | ⟨-, candidate, tried, seen⟩
    · exact absurd absolute (by decide)
    · exact absurd slash (by decide)
    · cases first.symm.trans tried
      exact absurd seen (by decide +kernel)

end State

end CommandShell
