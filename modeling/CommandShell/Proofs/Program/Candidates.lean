import CommandShell.Proofs.Program.Executed

/-!
What a command name is resolved to. The first candidate that is a regular file is taken, and
nothing only where the name is empty or no candidate is one. For an absolute name the directories of
the search path bring in no candidate that has not been tried, since joining one to such a name
gives the name again.
-/
namespace CommandShell.Program

theorem isAbsolute_of_mem_spellings {command name : Text}
    (absolute : Path.isAbsolute command = true) (spelled : name ∈ spellings command) :
    Path.isAbsolute name = true := by
  obtain ⟨rest, rfl⟩ := Path.exists_of_isAbsolute absolute
  rw [spellings, List.mem_cons, List.mem_map] at spelled
  obtain rfl | ⟨extension, -, rfl⟩ := spelled <;> rfl

/-- Beside an absolute name there is only the name, whatever the current directory is. -/
theorem flatMap_beside_of_isAbsolute {command : Text} (absolute : Path.isAbsolute command = true)
    (directory : Text) : (spellings command).flatMap (beside directory) = spellings command := by
  have each (names : List Text) (h : ∀ name ∈ names, Path.isAbsolute name = true) :
      names.flatMap (beside directory) = names := by
    induction names with
    | nil => rfl
    | cons name rest ih =>
        obtain ⟨here, later⟩ := List.forall_mem_cons.1 h
        rw [List.flatMap_cons, beside, if_pos here, ih later, List.singleton_append]
  exact each _ fun name => isAbsolute_of_mem_spellings absolute

theorem mem_spellings_of_mem_candidates {command path directory : Text} {searchPath : Option Text}
    (absolute : Path.isAbsolute command = true)
    (h : path ∈ candidates command directory searchPath) : path ∈ spellings command := by
  rw [candidates, flatMap_beside_of_isAbsolute absolute, List.mem_append, List.mem_flatMap] at h
  rcases h with spelled | ⟨searched, -, joined⟩
  · exact spelled
  · obtain ⟨name, spelled, rfl⟩ := List.mem_map.1 joined
    rwa [Path.join_of_isAbsolute (isAbsolute_of_mem_spellings absolute spelled)]

/-- An absolute name is found as it is spelled, or not at all. -/
theorem find?_candidates_of_isAbsolute (isFile : Text → Bool) {command : Text}
    (absolute : Path.isAbsolute command = true) (directory : Text) (searchPath : Option Text) :
    (candidates command directory searchPath).find? isFile = (spellings command).find? isFile := by
  cases found : (spellings command).find? isFile with
  | none =>
      rw [List.find?_eq_none] at found ⊢
      exact fun path tried => found path (mem_spellings_of_mem_candidates absolute tried)
  | some path =>
      rw [candidates, List.find?_append, flatMap_beside_of_isAbsolute absolute, found]
      rfl

/-- A command name is resolved to a path exactly if the name is not empty and the path is the first
of its candidates that leads to a regular file; it is resolved to none exactly if it is empty or no
candidate leads to one; and what an absolute name is resolved to depends neither on the current
directory nor on the search path. -/
theorem resolve_first_candidate (isFile : Text → Bool) (command directory : Text)
    (searchPath : Option Text) :
    (∀ path, resolve isFile command directory searchPath = some path ↔
      command ≠ [] ∧ isFile path = true ∧
        ∃ before after, candidates command directory searchPath = before ++ path :: after ∧
          ∀ other ∈ before, isFile other = false) ∧
    (resolve isFile command directory searchPath = none ↔
      command = [] ∨ ∀ path ∈ candidates command directory searchPath, isFile path = false) ∧
    (Path.isAbsolute command = true → ∀ otherDirectory otherPath,
      resolve isFile command otherDirectory otherPath =
        resolve isFile command directory searchPath) := by
  cases command with
  | nil => exact ⟨by simp [resolve], by simp [resolve], nofun⟩
  | cons c command =>
      have search (directory : Text) (searchPath : Option Text) :
          resolve isFile (c :: command) directory searchPath =
            (candidates (c :: command) directory searchPath).find? isFile := by
        rw [resolve_eq_find?]
        rfl
      refine ⟨fun path => ?_, ?_, fun absolute otherDirectory otherPath => ?_⟩
      · rw [search, List.find?_eq_some_iff_append]
        simp
      · rw [search, List.find?_eq_none]
        simp
      · rw [search, search, find?_candidates_of_isAbsolute isFile absolute,
          find?_candidates_of_isAbsolute isFile absolute]

theorem resolve_first_candidate_absolute :
    let isFile (path : Text) : Bool :=
      path == "/bin/tool.cmd".toList || path == "/usr/bin//bin/tool".toList
    Path.isAbsolute "/bin/tool".toList = true ∧
    resolve isFile "/bin/tool".toList "/home".toList none = some "/bin/tool.cmd".toList ∧
    ∀ directory searchPath, resolve isFile "/bin/tool".toList directory searchPath =
      resolve isFile "/bin/tool".toList "/home".toList none := by
  intro isFile
  have absolute : Path.isAbsolute "/bin/tool".toList = true := rfl
  obtain ⟨found, -, independent⟩ :=
    resolve_first_candidate isFile "/bin/tool".toList "/home".toList none
  refine ⟨absolute, (found _).2 ⟨by simp, by decide, ?_⟩, independent absolute⟩
  exact ⟨["/bin/tool".toList, "/bin/tool.exe".toList, "/bin/tool.bat".toList],
    ["/bin/tool.com".toList], by decide, by decide⟩

end CommandShell.Program
