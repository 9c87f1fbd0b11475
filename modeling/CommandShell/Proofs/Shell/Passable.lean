import CommandShell.Proofs.Line.Characters
import CommandShell.Proofs.Line.References
import CommandShell.Proofs.Program.Handed
import CommandShell.Proofs.Shell.Effects

/-!
Which variables can be handed to a program. A shell that is started with such variables only ever
sets names that are not empty and hold no sign; but it takes the character NUL into a name or a
value, and as long as a variable holds one no program is started at all. No line without the
character brings it in.
-/
namespace CommandShell

/-- A name that an entry of the environment of a process can have. -/
structure WellNamed (name : Text) : Prop where
  shown : name ≠ []
  sign : '=' ∉ name

/-- A variable with the character NUL in neither its name nor its value. -/
structure NulFree (item : Text × Text) : Prop where
  name : '\x00' ∉ item.1
  value : '\x00' ∉ item.2

theorem not_nulFree_iff {item : Text × Text} :
    ¬NulFree item ↔ '\x00' ∈ item.1 ∨ '\x00' ∈ item.2 := by
  constructor
  · intro unclean
    by_contra neither
    obtain ⟨name, value⟩ := not_or.1 neither
    exact unclean ⟨name, value⟩
  · exact fun found clean => found.elim clean.name clean.value

/-- A variable that can be handed to a program. -/
structure Passable (item : Text × Text) : Prop where
  named : WellNamed item.1
  clean : NulFree item

theorem Text.eq_nul_of_toUpper {c : Char} (h : c.toUpper = '\x00') : c = '\x00' := by
  have letters : ∀ n < 26, (Char.ofNat (97 + n)).toUpper ≠ '\x00' := by decide
  rcases toUpper_eq_or_small c with same | ⟨n, small, rfl⟩
  · rwa [same] at h
  · exact absurd h (letters n small)

namespace Variables
variable {v : Variables}

theorem nul_mem_fold {name : Text} : '\x00' ∈ fold name ↔ '\x00' ∈ name := by
  refine ⟨fun found => ?_, fun found => List.mem_map.2 ⟨_, found, rfl⟩⟩
  obtain ⟨c, member, folded⟩ := List.mem_map.1 found
  rwa [← Text.eq_nul_of_toUpper folded]

theorem mem_sorted {item : Text × Text} : item ∈ v.sorted ↔ item ∈ v.items :=
  v.sorted_perm.mem_iff

theorem wellNamed_set (h : ∀ item ∈ v.items, WellNamed item.1) {name : Text}
    (named : WellNamed name) (value : Text) :
    ∀ item ∈ (v.set name value).items, WellNamed item.1 := by
  intro item member
  rcases mem_setIn member with old | ⟨-, spelled | ⟨old, found, same⟩⟩
  · exact h item old
  · rwa [spelled]
  · rw [same]
    exact h old found

/-- Of a store that is free of NUL, setting a variable leaves one exactly if it is so itself. -/
theorem nulFree_set_iff (h : ∀ item ∈ v.items, NulFree item) (name value : Text) :
    (∀ item ∈ (v.set name value).items, NulFree item) ↔ NulFree (name, value) := by
  constructor
  · intro free
    obtain ⟨item, member, same, set⟩ := exists_mem_setIn name value v.items
    have clean := free item member
    -- The store may keep an older spelling, which holds the character exactly if this one does.
    have spelled : '\x00' ∉ name := by
      rw [← nul_mem_fold, ← sameName_iff.1 same, nul_mem_fold]
      exact clean.name
    exact ⟨spelled, set ▸ clean.value⟩
  · intro free item member
    rcases mem_setIn member with old | ⟨new, spelled | ⟨old, found, same⟩⟩
    · exact h item old
    · exact ⟨spelled ▸ free.name, new ▸ free.value⟩
    · exact ⟨same ▸ (h old found).name, new ▸ free.value⟩

end Variables

theorem Environment.wellNamed_promptName : WellNamed promptName := ⟨by decide, by decide⟩

theorem Environment.nulFree_promptName_iff (value : Text) :
    NulFree (promptName, value) ↔ '\x00' ∉ value :=
  ⟨NulFree.value, fun clean => ⟨show '\x00' ∉ promptName by decide, clean⟩⟩

namespace Config

theorem prompt_ofVariables (assets : Text) (vars : List (Text × Text)) :
    (ofVariables assets vars).prompt =
      match vars.lookup "NATIVESH_PROMPT".toList with
      | some (c :: rest) => c :: rest
      | _ => defaultPrompt := by
  unfold ofVariables
  dsimp only
  cases vars.lookup "NATIVESH_ASSETS".toList <;>
    rcases vars.lookup "NATIVESH_PROMPT".toList with _ | _ | ⟨c, rest⟩ <;>
    dsimp only <;> split <;> rfl

/-- A template that is read from variables without NUL is free of it. -/
theorem nul_not_mem_prompt (assets : Text) {vars : List (Text × Text)}
    (clean : ∀ item ∈ vars, NulFree item) : '\x00' ∉ (ofVariables assets vars).prompt := by
  rw [prompt_ofVariables]
  split
  · next c rest found =>
    obtain ⟨before, behind, rfl, -⟩ := List.lookup_eq_some_iff.1 found
    exact (clean ("NATIVESH_PROMPT".toList, c :: rest) (by simp)).value
  · decide

end Config

namespace Builtin

theorem wellNamed_of_assignment? {text name value : Text}
    (h : assignment? text = some (name, value)) : WellNamed name := by
  rw [assignment?] at h
  split at h
  · next before after cut =>
    split at h
    · cases h
    · next shown =>
      cases h
      exact ⟨by simpa using shown, Text.not_mem_trim (Text.not_mem_of_cutAt? cut)⟩
  · cases h

theorem wellNamed_of_made? {name : Text} {words : List Text} {made : Text × Text}
    (h : made? name words = some made) : WellNamed made.1 := by
  unfold made? at h
  split at h
  · cases h
  · split at h
    · exact wellNamed_of_assignment? h
    · split at h
      · cases h
        exact Environment.wellNamed_promptName
      · cases h

theorem nulFree_of_assignment? {text : Text} (clean : '\x00' ∉ text) {made : Text × Text}
    (h : assignment? text = some made) : NulFree made := by
  rw [assignment?] at h
  split at h
  · next before after cut =>
    rw [Text.eq_append_of_cutAt? cut] at clean
    simp only [List.mem_append, not_or] at clean
    split at h
    · cases h
    · cases h
      exact ⟨Text.not_mem_trim clean.1.1, Text.not_mem_trim clean.2⟩
  · cases h

theorem nulFree_of_made? {name : Text} {words : List Text} (clean : ∀ w ∈ words, '\x00' ∉ w)
    {made : Text × Text} (h : made? name words = some made) : NulFree made := by
  have joined : '\x00' ∉ Text.unwords (words.map Line.unquote) := by
    refine Text.not_mem_unwords (by decide) (List.forall_mem_map.2 fun w member => ?_)
    exact Line.not_mem_unquote (clean w member)
  unfold made? at h
  split at h
  · cases h
  · split at h
    · exact nulFree_of_assignment? joined h
    · split at h
      · cases h
        exact (Environment.nulFree_promptName_iff _).2 joined
      · cases h

end Builtin

namespace State
variable {s : State} {line : Text} {made : Text × Text}

theorem exists_parse_of_firstCommand {text : Text} {command : Line.Command}
    (h : s.firstCommand text = .ok command) : ∃ later, s.parse text = command :: later := by
  rw [firstCommand] at h
  split at h
  · cases h
  · next parsed =>
    cases h
    exact ⟨_, parsed⟩

/-- An assignment is made by the first command of a text that the line holds. -/
theorem exists_parse_of_plan {t : BuiltinTable} {p : Plan} (planned : plan t s line = .ok p)
    (h : p.made? = some made) :
    ∃ text command later, (∀ x, x ∉ line → x ∉ text) ∧ s.parse text = command :: later ∧
      Builtin.made? command.name command.arguments = some made := by
  rw [plan] at planned
  cases kind : Line.kind line with
  | pipeline =>
      rw [kind] at planned
      dsimp only at planned
      split at planned
      · cases planned
      · obtain ⟨formed, ofStages, rfl⟩ := map_eq_ok_iff.1 planned
        rw [Plan.made?, stages_of_ofStages ofStages] at h
        split at h
        · next first rest stages =>
          obtain ⟨command, later, commands, rfl, -⟩ := List.map_eq_cons_iff.1 stages
          have member : command ∈ s.pipedCommands line := commands ▸ List.mem_cons_self
          obtain ⟨part, piece, head⟩ := List.mem_filterMap.1 member
          obtain ⟨more, parsed⟩ := List.head?_eq_some_iff.1 head
          split at h
          · refine ⟨_, command, more, fun x absent => ?_, parsed, h⟩
            exact Text.not_mem_trim (Text.not_mem_pieces absent part piece)
          · cases h
        · cases h
  | background text =>
      rw [kind] at planned
      obtain ⟨command, -, rfl⟩ := map_eq_ok_iff.1 planned
      cases h
  | redirection =>
      rw [kind] at planned
      dsimp only at planned
      split at planned
      · cases planned
      · next r read =>
        obtain ⟨command, first, rfl⟩ := map_eq_ok_iff.1 planned
        obtain ⟨later, parsed⟩ := exists_parse_of_firstCommand first
        obtain ⟨left, target, cut, trimmed⟩ := Line.redirection_eq_ok read
        have member : left ∈ Text.pieces r.direction.mark line := by simp [cut]
        refine ⟨_, command, later, fun x absent => ?_, parsed, h⟩
        rw [trimmed]
        exact Text.not_mem_trim (Text.not_mem_pieces absent left member)
  | simple =>
      rw [kind] at planned
      obtain ⟨command, first, rfl⟩ := map_eq_ok_iff.1 planned
      obtain ⟨later, parsed⟩ := exists_parse_of_firstCommand first
      exact ⟨line, command, later, fun _ => id, parsed, h⟩

theorem exists_of_made? (h : s.made? line = some made) :
    ∃ text command later, (∀ x, x ∉ line → x ∉ text) ∧
      Line.parse s.value? text = command :: later ∧
      Builtin.made? command.name command.arguments = some made := by
  rw [made?] at h
  split at h
  · cases h
  · split at h
    · next planned =>
      rw [← value?_recorded s line]
      exact exists_parse_of_plan planned h
    · cases h

theorem wellNamed_of_made? (h : s.made? line = some made) : WellNamed made.1 := by
  obtain ⟨_, _, _, -, -, assigned⟩ := exists_of_made? h
  exact Builtin.wellNamed_of_made? assigned

/-- What a line without NUL assigns is free of it where the variables are. -/
theorem nulFree_of_made? (clean : ∀ item ∈ s.environment.vars.items, NulFree item)
    (absent : '\x00' ∉ line) (h : s.made? line = some made) : NulFree made := by
  have values (name value : Text) (found : s.value? name = some value) : '\x00' ∉ value := by
    obtain ⟨item, here, rfl⟩ := Option.map_eq_some_iff.1 found
    exact (clean item (List.mem_of_find?_eq_some here)).value
  obtain ⟨text, command, later, held, parsed, assigned⟩ := exists_of_made? h
  exact Builtin.nulFree_of_made? (Line.not_mem_arguments values parsed (held _ absent)) assigned

end State

namespace Variables
variable {v : Variables}

theorem wellNamed_setAll (h : ∀ item ∈ v.items, WellNamed item.1)
    {made : List (Text × Text)} (named : ∀ item ∈ made, WellNamed item.1) :
    ∀ item ∈ (v.setAll made).items, WellNamed item.1 := by
  induction made generalizing v with
  | nil => exact h
  | cons first rest ih =>
      obtain ⟨here, later⟩ := List.forall_mem_cons.1 named
      exact ih (wellNamed_set h here first.2) later

theorem nulFree_setAll (h : ∀ item ∈ v.items, NulFree item) {made : List (Text × Text)}
    (clean : ∀ item ∈ made, NulFree item) : ∀ item ∈ (v.setAll made).items, NulFree item := by
  induction made generalizing v with
  | nil => exact h
  | cons first rest ih =>
      obtain ⟨here, later⟩ := List.forall_mem_cons.1 clean
      exact ih ((nulFree_set_iff h first.1 first.2).2 here) later

end Variables

namespace Environment
variable (config : Config) {inherited : List (Text × Text)} (directory machine : Text)

theorem wellNamed_start (named : ∀ item ∈ inherited, WellNamed item.1) :
    ∀ item ∈ (start config inherited directory machine).vars.items, WellNamed item.1 :=
  Variables.wellNamed_set (Variables.wellNamed_setAll (v := {}) (by simp) named)
    wellNamed_promptName config.prompt

theorem nulFree_start_iff (clean : ∀ item ∈ inherited, NulFree item) :
    (∀ item ∈ (start config inherited directory machine).vars.items, NulFree item) ↔
      '\x00' ∉ config.prompt :=
  (Variables.nulFree_set_iff (Variables.nulFree_setAll (v := {}) (by simp) clean) promptName
    config.prompt).trans (nulFree_promptName_iff config.prompt)

end Environment

namespace Session
variable {s : Session} (standard : s.builtins = .standard)

theorem wellNamed_of_assignments {lines : List (Text × Bool)} :
    ∀ made ∈ s.assignments lines, WellNamed made.1 := by
  induction lines generalizing s with
  | nil => exact fun _ none => absurd none List.not_mem_nil
  | cons line rest ih =>
      refine List.forall_mem_append.2 ⟨fun made member => ?_, ih⟩
      exact State.wellNamed_of_made? (Option.mem_toList.1 member)

include standard

/-- The variables stay free of NUL as long as the assignments are. -/
theorem nulFree_executeAll_iff (lines : List (Text × Bool)) :
    (∀ k, ∀ item ∈ (s.executeAll (lines.take k)).state.environment.vars.items, NulFree item) ↔
      (∀ item ∈ s.state.environment.vars.items, NulFree item) ∧
        ∀ made ∈ s.assignments lines, NulFree made := by
  induction lines generalizing s with
  | nil => simp [executeAll, assignments]
  | cons line rest ih =>
      have later := ih (s := (s.execute line.1 line.2).1) standard
      -- From a clean state, what the first line assigns decides whether the next one is clean.
      have first : (∀ item ∈ s.state.environment.vars.items, NulFree item) →
          ((∀ item ∈ (s.execute line.1 line.2).1.state.environment.vars.items, NulFree item) ↔
            ∀ made ∈ (s.state.made? line.1).toList, NulFree made) := by
        intro clean
        rw [vars_execute standard]
        cases s.state.made? line.1 with
        | none => simpa [Variables.setAll] using clean
        | some made => simpa [Variables.setAll] using Variables.nulFree_set_iff clean made.1 made.2
      rw [assignments, List.forall_mem_append]
      constructor
      · intro free
        have clean := free 0
        obtain ⟨after, others⟩ := later.1 fun k => free (k + 1)
        exact ⟨clean, (first clean).1 after, others⟩
      · rintro ⟨clean, here, others⟩ k
        cases k with
        | zero => exact clean
        | succ k => exact later.2 ⟨(first clean).2 here, others⟩ k

/-- Lines without NUL make no assignment with it. -/
theorem nulFree_of_assignments (clean : ∀ item ∈ s.state.environment.vars.items, NulFree item)
    {lines : List (Text × Bool)} (absent : ∀ line ∈ lines, '\x00' ∉ line.1) :
    ∀ made ∈ s.assignments lines, NulFree made := by
  induction lines generalizing s with
  | nil => exact fun _ none => absurd none List.not_mem_nil
  | cons line rest ih =>
      obtain ⟨here, later⟩ := List.forall_mem_cons.1 absent
      have first : ∀ made ∈ (s.state.made? line.1).toList, NulFree made := fun made member =>
        State.nulFree_of_made? clean here (Option.mem_toList.1 member)
      refine List.forall_mem_append.2 ⟨first, ih standard ?_ later⟩
      rw [vars_execute standard]
      exact Variables.nulFree_setAll clean first

end Session

/-- The variables of a shell are those that it is started with and what its lines assign. If those
can be handed to programs, none ever has a name that programs cannot have. All that is handed on can
be handed on exactly if the template of the prompt and all assignments are free of NUL, in particular
if no line holds the character; otherwise no program is started. -/
theorem Session.handed_passable_iff (config : Config) (machine : Machine)
    {inherited : List (Text × Text)} (valid : ∀ item ∈ inherited, Passable item)
    (lines : List (Text × Bool)) :
    let start := Session.start config inherited machine
    let state (k : Nat) := (start.executeAll (lines.take k)).state
    let handed (k : Nat) := (state k).environment.vars.sorted
    (∀ k, (state k).environment.vars =
      start.state.environment.vars.setAll (start.assignments (lines.take k))) ∧
    (∀ k, ∀ item ∈ handed k, WellNamed item.1) ∧
    ((∀ k, ∀ item ∈ handed k, Passable item) ↔
      '\x00' ∉ config.prompt ∧ ∀ made ∈ start.assignments lines, NulFree made) ∧
    ('\x00' ∉ config.prompt → (∀ line ∈ lines, '\x00' ∉ line.1) →
      ∀ k, ∀ item ∈ handed k, Passable item) ∧
    ∀ k command arguments,
      (state k).begin command arguments = .error (.notStarted .nulInData) ↔
        (state k).resolveCommand command ≠ none ∧
          ((∃ word ∈ arguments, '\x00' ∈ Line.unquote word) ∨
            ∃ item ∈ handed k, ¬Passable item) := by
  intro start state handed
  have sorted {k : Nat} {item : Text × Text} :
      item ∈ handed k ↔ item ∈ (state k).environment.vars.items := Variables.mem_sorted
  have fresh : (∀ item ∈ start.state.environment.vars.items, NulFree item) ↔
      '\x00' ∉ config.prompt :=
    Environment.nulFree_start_iff config _ _ fun item member => (valid item member).clean
  have assigned (k : Nat) : (state k).environment.vars =
      start.state.environment.vars.setAll (start.assignments (lines.take k)) :=
    vars_executeAll rfl _
  have named (k : Nat) : ∀ item ∈ handed k, WellNamed item.1 := by
    intro item member
    rw [sorted, assigned] at member
    refine Variables.wellNamed_setAll ?_ wellNamed_of_assignments item member
    exact Environment.wellNamed_start _ _ _ fun item member => (valid item member).named
  have passable (k : Nat) (item : Text × Text) (member : item ∈ handed k) :
      Passable item ↔ NulFree item := ⟨Passable.clean, fun clean => ⟨named k item member, clean⟩⟩
  have all : (∀ k, ∀ item ∈ handed k, Passable item) ↔
      '\x00' ∉ config.prompt ∧ ∀ made ∈ start.assignments lines, NulFree made := by
    rw [← fresh, ← nulFree_executeAll_iff (s := start) rfl]
    refine forall_congr' fun k => forall_congr' fun item => ?_
    rw [← sorted]
    exact forall_congr' (passable k item)
  refine ⟨assigned, named, all, fun prompt absent => ?_,
    fun k command arguments => ?_⟩
  · exact all.2 ⟨prompt, nulFree_of_assignments rfl (fresh.2 prompt) absent⟩
  · have held : (∃ item ∈ handed k, ¬Passable item) ↔
        ∃ item ∈ handed k, '\x00' ∈ item.1 ∨ '\x00' ∈ item.2 := by
      refine exists_congr fun item => and_congr_right fun member => ?_
      rw [passable k item member, not_nulFree_iff]
    rw [State.begin_eq_nulInData_iff, held]

theorem Session.handed_passable_iff_nul :
    let inherited := [("PATH".toList, "/usr/bin".toList)]
    let config := Config.ofVariables [] inherited
    let start := Session.start config inherited (Machine.standard 0 "/home".toList)
    let after (line : Text) := (start.execute line false).1.state
    (∀ item ∈ inherited, Passable item) ∧
      (start.execute "set A=b\x00c".toList false).2 =
        .result (Result.ok "Set A=b\x00c\n".toList) ∧
      (after "set A=b\x00c".toList).begin "cat".toList [] = .error (.notStarted .nulInData) ∧
      ∀ item ∈ (after "set A=b|c".toList).environment.vars.sorted, Passable item := by
  intro inherited config start after
  have valid : ∀ item ∈ inherited, Passable item :=
    List.forall_mem_singleton.2 ⟨⟨by decide, by decide⟩, ⟨by decide, by decide⟩⟩
  have prompt : '\x00' ∉ config.prompt :=
    Config.nul_not_mem_prompt [] fun item member => (valid item member).clean
  have runs (line : Text) := handed_passable_iff config (Machine.standard 0 "/home".toList) valid
    [(line, false)]
  refine ⟨valid, by decide +kernel, ?_, ?_⟩
  · obtain ⟨-, -, -, -, begins⟩ := runs "set A=b\x00c".toList
    have held : ("A".toList, "b\x00c".toList) ∈
        (after "set A=b\x00c".toList).environment.vars.items := by decide +kernel
    have unpassable : ∃ item ∈ (after "set A=b\x00c".toList).environment.vars.sorted,
        ¬Passable item := by
      refine ⟨_, Variables.mem_sorted.2 held, fun passable => ?_⟩
      exact absurd passable.clean.value (by decide)
    exact (begins 1 "cat".toList []).2 ⟨by decide +kernel, .inr unpassable⟩
  · obtain ⟨-, -, -, passable, -⟩ := runs "set A=b|c".toList
    exact passable prompt (by decide) 1

end CommandShell
