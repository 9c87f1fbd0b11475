import CommandShell.Proofs.Line.Quoting

/-!
The first command of a line: its words are those of the text before the first unquoted operator.
-/
namespace CommandShell.Line

theorem segmentsFrom_cons {c : Char} (h : Operator.ofChar? c = none) (s : Scan) (rest : Text) :
    segmentsFrom s (c :: rest) = Segment.consChar c (segmentsFrom (s.read c) rest) := by
  cases rest with
  | nil => simp [segmentsFrom, h, Segment.consChar]
  | cons d rest => simp [segmentsFrom, h]

theorem plainText_consChar (c : Char) (segments : List Segment) :
    plainText (Segment.consChar c segments) = c :: plainText segments := by
  unfold Segment.consChar
  split
  · rfl
  · next other =>
    cases segments with
    | nil => rfl
    | cons segment rest =>
        cases segment with
        | text content => exact absurd rfl (other content rest)
        | operator op spelling => rfl

theorem sublist_plainText (segments : List Segment) :
    (plainText segments).Sublist (Segment.spelledAll segments) := by
  induction segments with
  | nil => exact .slnil
  | cons segment rest ih =>
      cases segment with
      | text content => exact (List.Sublist.refl content).append ih
      | operator op spelling => exact List.nil_sublist _

theorem plainText_first (value? : Text → Option Text) (segments : List Segment) :
    plainText (outline value? segments).first = plainText segments := by
  induction segments with
  | nil => rfl
  | cons segment rest ih =>
      cases segment with
      | text content => simp [outline, plainText, ih]
      | operator op spelling => cases op <;> rfl

/-- The text of a line before its first unquoted operator. -/
def plainPart (line : Text) : Text := plainText (segments line)

theorem plainText_append {t : Text} (h : ∀ c ∈ t, Operator.ofChar? c = none) (s : Scan)
    (rest : Text) :
    plainText (segmentsFrom s (t ++ rest)) =
      t ++ plainText (segmentsFrom (s.readAll t) rest) := by
  induction t generalizing s with
  | nil => rfl
  | cons c t ih =>
      obtain ⟨here, later⟩ := List.forall_mem_cons.1 h
      rw [List.cons_append, segmentsFrom_cons here, plainText_consChar, ih later]
      rfl

theorem flatten_consWord (word : Text) (words : List Text) :
    (consWord word words).flatten = word ++ words.flatten := by
  unfold consWord
  split
  · next empty => simp [List.isEmpty_iff.1 empty]
  · rfl

theorem sublist_wordsFrom (s : Scan) (t : Text) :
    ((wordsFrom s t).1 ++ (wordsFrom s t).2.flatten).Sublist t := by
  induction t generalizing s with
  | nil => exact .slnil
  | cons c t ih =>
      have later := ih (s.read c)
      simp only [wordsFrom]
      cases Text.isBlank c && !(s.read c).inside with
      | true => simpa [flatten_consWord] using later.cons c
      | false => exact later.cons_cons c

theorem sublist_words (t : Text) : (words t).flatten.Sublist t := by
  rw [words, flatten_consWord]
  exact sublist_wordsFrom {} t

theorem not_allBlank_of_parse {value? : Text → Option Text} {line : Text} {command : Command}
    {later : List Command} (parsed : parse value? line = command :: later) :
    Text.allBlank line = false := by
  refine Bool.eq_false_iff.2 fun blank => ?_
  cases parsed.symm.trans ((parse_eq_nil_iff value? line).2 blank)

theorem parse_of_shown (value? : Text → Option Text) {line : Text}
    (h : Text.allBlank line = false) :
    parse value? line =
      Command.ofSegments value? line (outline value? (segments line)).first ::
        (outline value? (segments line)).later := by
  rw [parse, Outline.commands, raw_outline, spelledAll_segments, h]
  rfl

/-- The first command of a line has the words of its plain part. -/
theorem exists_parse_eq_cons (value? : Text → Option Text) {line : Text}
    (h : Text.allBlank line = false) :
    ∃ command later, parse value? line = command :: later ∧
      command.name = (words (expand value? (plainPart line))).headD [] ∧
      command.arguments = (words (expand value? (plainPart line))).tail := by
  refine ⟨_, _, parse_of_shown value? h, ?_, ?_⟩
  · rw [Command.ofSegments, plainText_first]
    rfl
  · rw [Command.ofSegments, plainText_first]
    rfl

/-- A word that needs no quotes anywhere. -/
structure Bare (name : Text) : Prop where
  ne_nil : name ≠ []
  blank : ∀ c ∈ name, Text.isBlank c = false
  quote : ∀ c ∈ name, isQuote c = false
  operator : ∀ c ∈ name, Operator.ofChar? c = none
  backslash : '\\' ∉ name
  dollar : '$' ∉ name
  percent : '%' ∉ name

namespace Bare
variable {name : Text} (h : Bare name)
include h

theorem outside_readAll : (Scan.readAll {} name).Outside :=
  Scan.outside_start.readAll h.quote h.backslash

theorem allBlank_append (rest : Text) : Text.allBlank (name ++ rest) = false := by
  obtain ⟨c, t, rfl⟩ := List.exists_cons_of_ne_nil h.ne_nil
  simp [Text.allBlank, h.blank c List.mem_cons_self]

theorem words_append (rest : Text) (hr : (wordsFrom (Scan.readAll {} name) rest).1 = []) :
    words (name ++ rest) = name :: (wordsFrom (Scan.readAll {} name) rest).2 := by
  have guarded : Scan.Guards Text.isBlank {} name := Scan.guards_of_forall_not {} h.blank
  have nonempty : name.isEmpty = false := by simp [h.ne_nil]
  simp [words, wordsFrom_append guarded, hr, consWord, nonempty]

theorem plainPart_append_quotedAll {xs : List Text} (hxs : ∀ x ∈ xs, x.getLast? ≠ some '\\') :
    plainPart (name ++ quotedAll xs) = name ++ quotedAll xs := by
  have guarded : Scan.Guards (fun c => (Operator.ofChar? c).isSome) {} (name ++ quotedAll xs) := by
    refine (Scan.guards_append _ _ _ _).2 ⟨?_, h.outside_readAll.guards_quotedAll hxs rfl rfl⟩
    exact Scan.guards_of_forall_not {} fun c hc => by simp [h.operator c hc]
  rw [plainPart, segments, segmentsFrom_of_guards guarded (by simp [h.ne_nil])]
  exact List.append_nil _

/-- A line of a bare name and quoted texts has this name and these words. -/
theorem exists_parse_quotedAll (value? : Text → Option Text) {xs : List Text}
    (hxs : ∀ x ∈ xs, x.getLast? ≠ some '\\') (hd : ∀ x ∈ xs, '$' ∉ x) (hp : ∀ x ∈ xs, '%' ∉ x) :
    ∃ command later, parse value? (name ++ quotedAll xs) = command :: later ∧
      command.name = name ∧ command.arguments = xs.map quoted := by
  obtain ⟨command, later, parsed, named, arguments⟩ :=
    exists_parse_eq_cons value? (h.allBlank_append (quotedAll xs))
  have dollar := not_mem_quotedAll (by decide) (by decide) (by decide) hd
  have percent := not_mem_quotedAll (by decide) (by decide) (by decide) hp
  have split := wordsFrom_quotedAll h.outside_readAll hxs
  rw [h.plainPart_append_quotedAll hxs, expand_of_not_mem value? (by simp [h.dollar, dollar])
    (by simp [h.percent, percent]), h.words_append _ (by rw [split]), split] at named arguments
  exact ⟨command, later, parsed, named, arguments⟩

theorem plainPart_append_space (rest : Text) :
    ∃ v, plainPart (name ++ ' ' :: rest) = name ++ ' ' :: v ∧ v.Sublist rest := by
  refine ⟨plainText (segmentsFrom ((Scan.readAll {} name).read ' ') rest), ?_, ?_⟩
  · rw [plainPart, segments, plainText_append h.operator, segmentsFrom_cons (by rfl),
      plainText_consChar]
  · have found := sublist_plainText (segmentsFrom ((Scan.readAll {} name).read ' ') rest)
    rwa [spelledAll_segmentsFrom] at found

/-- A line that begins with a bare name and a space has this name, and the characters of its words
are some of those after the name. -/
theorem exists_parse_space (value? : Text → Option Text) (rest : Text) (hd : '$' ∉ rest)
    (hp : '%' ∉ rest) :
    ∃ command later, parse value? (name ++ ' ' :: rest) = command :: later ∧
      command.name = name ∧ command.arguments.flatten.Sublist (' ' :: rest) := by
  obtain ⟨command, later, parsed, named, arguments⟩ :=
    exists_parse_eq_cons value? (h.allBlank_append (' ' :: rest))
  obtain ⟨v, plain, sub⟩ := h.plainPart_append_space rest
  have dollar : '$' ∉ v := fun found => hd (sub.subset found)
  have percent : '%' ∉ v := fun found => hp (sub.subset found)
  have outside : ((Scan.readAll {} name).read ' ').inside = false := by
    simp [Scan.inside, (h.outside_readAll.read (c := ' ') rfl (by decide)).opened]
  have blank : Text.isBlank ' ' = true := rfl
  have first : (wordsFrom (Scan.readAll {} name) (' ' :: v)).1 = [] := by
    simp [wordsFrom, outside, blank]
  rw [plain, expand_of_not_mem value? (by simp [h.dollar, dollar]) (by simp [h.percent, percent]),
    h.words_append _ first] at named arguments
  refine ⟨command, later, parsed, named, ?_⟩
  have found := sublist_wordsFrom (Scan.readAll {} name) (' ' :: v)
  rw [first, List.nil_append] at found
  rw [arguments]
  exact found.trans (sub.cons_cons ' ')

end Bare

end CommandShell.Line
