import CommandShell.Machine.Standard
import CommandShell.Proofs.Line.References
import CommandShell.Proofs.Line.SpacedWords
import CommandShell.Proofs.Shell.Operators

/-!
Setting a variable and referring to it. The value of an assignment that is quoted as a whole reaches
the built-in command as it is, and is found under every spelling of the name from then on.
-/
namespace CommandShell

namespace Line

/-- The name of the command that sets variables. -/
def setName : Text := "set".toList

/-- The word that assigns a value to a name, the value quoted. -/
def assigning (name value : Text) : Text := name ++ '=' :: quoted value

/-- The line that assigns a value to a name. -/
def settingLine (name value : Text) : Text := setName ++ ' ' :: assigning name value

theorem bare_setName : Bare setName := by
  have plain : setName.all isOrdinary = true := by decide
  exact bare_of_isOrdinary (by decide) (List.all_eq_true.1 plain)

theorem not_mem_quoted {c : Char} (hd : c ≠ '"') (hb : c ≠ '\\') {x : Text} (h : c ∉ x) :
    c ∉ quoted x := by
  have inside : c ∉ escaped x := by
    rwa [← List.count_eq_zero, count_escaped hb, List.count_eq_zero]
  simp [quoted, hd, inside]

/-- A bare name and one more word, without operators and references, whose blanks are all quoted. -/
theorem Bare.exists_parse_word {name : Text} (h : Bare name) (value? : Text → Option Text)
    {word : Text} (ne : word ≠ []) (unmarked : Unmarked word) (hd : '$' ∉ word) (hp : '%' ∉ word)
    (guarded : ∀ s : Scan, s.Outside → s.Guards Text.isBlank word) :
    ∃ command later, parse value? (name ++ ' ' :: word) = command :: later ∧
      command.name = name ∧ command.arguments = [word] := by
  obtain ⟨command, later, parsed, named, arguments⟩ :=
    exists_parse_eq_cons value? (h.allBlank_append (' ' :: word))
  have operator : ∀ c ∈ name ++ ' ' :: word, Operator.ofChar? c = none :=
    List.forall_mem_append.2 ⟨h.operator, List.forall_mem_cons.2 ⟨rfl, unmarked.ofChar?_eq_none⟩⟩
  have between : ((Scan.readAll {} name).read ' ').Outside :=
    h.outside_readAll.read rfl (by decide)
  have rest : wordsFrom (Scan.readAll {} name) (' ' :: word) = ([], [word]) := by
    have inner := wordsFrom_append (guarded _ between) []
    rw [List.append_nil] at inner
    have blank : Text.isBlank ' ' = true := rfl
    simp [wordsFrom, inner, between.inside, blank, consWord, ne]
  rw [plainPart_of_no_operator operator, expand_of_not_mem value? (by simp [h.dollar, hd])
    (by simp [h.percent, hp]), h.words_append _ (by rw [rest]), rest] at named arguments
  exact ⟨command, later, parsed, named, arguments⟩

/-- What an assignment has before its value. -/
theorem IsName.bare_append {name : Text} (named : IsName name) : Bare (name ++ ['=']) where
  ne_nil := by simp
  blank := List.forall_mem_append.2 ⟨named.blank, by simp [Text.isBlank]⟩
  quote := List.forall_mem_append.2 ⟨named.quote, by simp [isQuote]⟩
  operator := List.forall_mem_append.2 ⟨named.operator, by simp [Operator.ofChar?]⟩
  backslash := by simp [named.not_mem (c := '\\') rfl]
  dollar := by simp [named.not_mem (c := '$') rfl]
  percent := by simp [named.not_mem (c := '%') rfl]

theorem assigning_eq (name value : Text) :
    assigning name value = (name ++ ['=']) ++ quoted value := by
  simp [assigning]

section
variable {name value : Text} (named : IsName name)
include named

theorem guards_assigning {s : Scan} (h : s.Outside) :
    s.Guards Text.isBlank (assigning name value) := by
  have bare := named.bare_append
  rw [assigning_eq, Scan.guards_append]
  exact ⟨Scan.guards_of_forall_not s bare.blank,
    (h.readAll bare.quote bare.backslash).guards_quoted rfl⟩

theorem unquote_assigning (closed : value.getLast? ≠ some '\\') :
    unquote (assigning name value) = name ++ '=' :: value := by
  have bare := named.bare_append
  rw [unquote, assigning_eq, unquoteFrom_append {} bare.quote bare.backslash,
    bare.outside_readAll.unquoteFrom_quoted closed, List.append_assoc, List.singleton_append]

theorem not_mem_assigning {c : Char} (word : Text.isWordChar c = false) (eq : c ≠ '=')
    (hd : c ≠ '"') (hb : c ≠ '\\') (h : c ∉ value) : c ∉ assigning name value := by
  simp [assigning, named.not_mem word, eq, not_mem_quoted hd hb h]

end

/-- The characters that begin references or are operators. -/
def markChars : Text := ['$', '%', '|', '<', '>']

section
variable {name value : Text} (named : IsName name) (plain : ∀ c ∈ markChars, c ∉ value)
include named plain

theorem not_mem_assigning_of_mark : ∀ c ∈ markChars, c ∉ assigning name value := by
  intro c mark
  have special : Text.isWordChar c = false ∧ c ≠ '=' ∧ c ≠ '"' ∧ c ≠ '\\' := by
    simp only [markChars, List.mem_cons, List.not_mem_nil, or_false] at mark
    rcases mark with rfl | rfl | rfl | rfl | rfl <;> decide
  obtain ⟨word, eq, hd, hb⟩ := special
  exact not_mem_assigning named word eq hd hb (plain c mark)

theorem unmarked_assigning : Unmarked (assigning name value) where
  pipe := not_mem_assigning_of_mark named plain _ (by decide)
  input := not_mem_assigning_of_mark named plain _ (by decide)
  output := not_mem_assigning_of_mark named plain _ (by decide)

theorem kind_settingLine : kind (settingLine name value) = .simple := by
  have word := unmarked_assigning named plain
  have unmarked : Unmarked (settingLine name value) :=
    ⟨by simp [settingLine, setName, word.pipe], by simp [settingLine, setName, word.input],
      by simp [settingLine, setName, word.output]⟩
  have ends : settingLine name value =
      (setName ++ ' ' :: (name ++ '=' :: '"' :: escaped value)) ++ ['"'] := by
    simp [settingLine, assigning, quoted]
  refine unmarked.kind ?_
  rw [ends]
  exact hasBackgroundMark_append_shown _ rfl (by decide)

end

end Line

/-- The variables apart from one, as they are listed. -/
def Variables.others (v : Variables) (name : Text) : List (Text × Text) :=
  v.items.filter fun item => !sameName item.1 name

theorem Variables.others_set (v : Variables) (name value : Text) :
    (v.set name value).others name = v.others name := by
  obtain ⟨items⟩ := v
  simp only [set, others]
  induction items with
  | nil => simp [setIn, sameName]
  | cons item rest ih =>
      rw [setIn]
      split
      · next same => simp [same]
      · rw [List.filter_cons, List.filter_cons, ih]

theorem Builtin.assignment?_eq {name : Text} (named : Line.IsName name) (value : Text) :
    assignment? (name ++ '=' :: value) = some (name, Text.trim value) := by
  have cut := Text.cutAt?_append_cons (named.not_mem (c := '=') rfl) value
  have trimmed := Text.trim_of_not_blank named.blank
  rw [assignment?, cut]
  simp [trimmed, named.ne_nil]

namespace State

/-- Assigning does nothing but set the variable. -/
theorem invoke_set (s : State) {name value : Text} (named : Line.IsName name)
    (closed : value.getLast? ≠ some '\\') :
    (Builtin.set Line.setName).invoke [Line.assigning name value] s =
      (s.withEnvironment (s.environment.set name (Text.trim value)),
        .result (Result.ok
          (Text.line ("Set ".toList ++ name ++ '=' :: Text.trim value)))) := by
  have help : Line.assigning name value ≠ Builtin.helpWord := by
    intro same
    have sign : '=' ∈ Builtin.helpWord := by simp [← same, Line.assigning]
    revert sign
    decide
  rw [Builtin.invoke, Builtin.set, Builtin.ofSignature_eq]
  simp [help, Signature.many, Line.unquote_assigning named closed, Text.unwords,
    Builtin.assignment?_eq named, List.intercalate, Builtin.say, Builtin.reply,
    Builtin.Answer.contained]

section
variable {t : BuiltinTable} (table : t.lookup Line.setName = some (Builtin.set Line.setName))
  (s : State) {name value : Text} (named : Line.IsName name)
  (closed : value.getLast? ≠ some '\\') (plain : ∀ c ∈ Line.markChars, c ∉ value)
include table named closed plain

theorem runSimple_settingLine (cancelled : Bool) :
    runSimple t s (Line.settingLine name value) cancelled =
      (s.withEnvironment (s.environment.set name (Text.trim value)),
        .result (Result.ok (Text.line ("Set ".toList ++ name ++ '=' :: Text.trim value)))) := by
  have marks := Line.not_mem_assigning_of_mark named plain
  obtain ⟨command, later, parsed, called, arguments⟩ :=
    Line.bare_setName.exists_parse_word s.value? (by simp [Line.assigning])
      (Line.unmarked_assigning named plain) (marks '$' (by decide)) (marks '%' (by decide))
      fun _ => Line.guards_assigning named
  rw [runSimple, State.parse, Line.settingLine, parsed]
  dsimp only
  rw [called, arguments, dispatch, table]
  exact s.invoke_set named closed

/-- An assignment of a quoted value succeeds, and all that it changes is the variable and the
history. -/
theorem runLine_settingLine (cancelled : Bool) :
    ∃ r, runLine t s (Line.settingLine name value) cancelled =
        ((s.recorded (Line.settingLine name value)).withEnvironment
            ((s.recorded (Line.settingLine name value)).environment.set name (Text.trim value)),
          .result r) ∧
      r.success = true := by
  have shown : Text.allBlank (Line.settingLine name value) = false :=
    Line.bare_setName.allBlank_append _
  rw [runLine_of_kind t s shown, runKind, Line.kind_settingLine named plain]
  dsimp only
  rw [runSimple_settingLine table _ named closed plain]
  exact ⟨_, rfl, rfl⟩

/-- After an assignment of a value that is quoted as a whole and holds neither operators nor
references, every reference to the variable, in whatever case its letters are, is expanded to that
value without the blanks around it. No other variable has changed, nor have the directories, the
processes and the machine. -/
theorem references_after_assignment (cancelled : Bool) :
    let line := Line.settingLine name value
    let after := (runLine t s line cancelled).1
    (∃ r, (runLine t s line cancelled).2 = .result r ∧ r.success = true) ∧
      (∀ n, Variables.sameName name n = true → ∀ ref ∈ Line.referencesTo n,
        Line.expand after.value? ref = Text.trim value) ∧
      (∀ n, Variables.sameName name n = false → after.value? n = s.value? n) ∧
      after.environment.vars.others name = s.environment.vars.others name ∧
      after.environment.directory = s.environment.directory ∧
      after.environment.stack = s.environment.stack ∧
      after.supervision = s.supervision ∧ after.machine = s.machine := by
  intro line after
  obtain ⟨r, ran, success⟩ := runLine_settingLine table s named closed plain cancelled
  have set : after = (s.recorded line).withEnvironment
      ((s.recorded line).environment.set name (Text.trim value)) := congrArg Prod.fst ran
  have found (n : Text) : after.value? n =
      if Variables.sameName name n then some (Text.trim value) else s.value? n := by
    rw [set, ← s.value?_recorded line]
    exact Variables.get?_set _ name (Text.trim value) n
  obtain ⟨history, recorded⟩ := s.exists_withHistory_addHistory line
  rw [State.recorded, recorded] at set
  refine ⟨⟨r, congrArg Prod.snd ran, success⟩, ?_, ?_, ?_, ?_⟩
  · intro n same ref member
    rw [(named.of_sameName same).expand_reference member, found, if_pos same]
    rfl
  · intro n other
    rw [found, if_neg (by simp [other])]
  · rw [set]
    exact Variables.others_set _ name (Text.trim value)
  · rw [set]
    exact ⟨rfl, rfl, rfl, rfl⟩

end

theorem lookup_setName :
    BuiltinTable.standard.lookup Line.setName = some (Builtin.set Line.setName) := rfl

theorem references_after_assignment_spaced :
    let s := State.start { assets := [] } [("naïve_1".toList, "old".toList)]
      (Machine.standard 0 "/home".toList)
    let name := "naïve_1".toList
    let value := "  --it's = \"x & \\y  ".toList
    let after := (runLine .standard s (Line.settingLine name value) false).1
    Line.settingLine name value = "set naïve_1=\"  --it\\'s = \\\"x & \\y  \"".toList ∧
      (∀ ref ∈ Line.referencesTo "NAïVE_1".toList,
        Line.expand after.value? ref = "--it's = \"x & \\y".toList) ∧
      after.value? Environment.promptName = s.value? Environment.promptName := by
  intro s name value after
  have word : name.all Text.isWordChar = true := by decide +kernel
  have named : Line.IsName name := ⟨by decide, List.all_eq_true.1 word⟩
  have closed : value.getLast? ≠ some '\\' := by decide
  have trimmed : Text.trim value = "--it's = \"x & \\y".toList := by decide
  have plain : ∀ c ∈ Line.markChars, c ∉ value := by
    simp only [Line.markChars, List.forall_mem_cons]
    exact ⟨by decide, by decide, by decide, by decide, by decide, nofun⟩
  obtain ⟨-, referred, kept, -⟩ :=
    references_after_assignment lookup_setName s named closed plain false
  have same : Variables.sameName name "NAïVE_1".toList = true := by decide
  exact ⟨by decide, fun ref member => (referred _ same ref member).trans trimmed,
    kept _ (by decide)⟩

end State

end CommandShell
