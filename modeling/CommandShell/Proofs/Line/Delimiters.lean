import CommandShell.Proofs.Line.SpacedWords

/-!
What unquoting leaves out of a word: the quotes that open or close a span, and the backslashes
before a quote. A word of a line begins outside of all spans, behind a blank if anything, so the
scan of the line finds the same delimiters in it as the scan of the word by itself.
-/
namespace CommandShell.Line

/-- Whether the character at a position of a word opens or closes a span. -/
def delimits (word : Text) (i : Nat) : Bool :=
  word[i]?.any (({} : Scan).readAll (word.take i)).toggles

/-- Whether the character at a position of a word is a backslash right before a quote. -/
def escapes (word : Text) (i : Nat) : Bool :=
  word[i]? == some '\\' && word[i + 1]?.any isQuote

theorem startsWithQuote_eq (t : Text) : startsWithQuote t = t[0]?.any isQuote := by
  cases t <;> rfl

/-- What unquoting keeps of the rest of a word, with the positions in the whole word. -/
theorem unquoteFrom_readAll (done rest : Text) :
    unquoteFrom (({} : Scan).readAll done) rest =
      ((rest.zipIdx done.length).filter fun x =>
        !(delimits (done ++ rest) x.2 || escapes (done ++ rest) x.2)).map Prod.fst := by
  induction rest generalizing done with
  | nil => rfl
  | cons c rest ih =>
      have delimiter : delimits (done ++ c :: rest) done.length =
          (({} : Scan).readAll done).toggles c := by
        simp [delimits]
      have escape : escapes (done ++ c :: rest) done.length =
          (c == '\\' && startsWithQuote rest) := by
        simp [escapes, startsWithQuote_eq, List.getElem?_append_right]
      have later := ih (done ++ [c])
      rw [List.append_assoc, List.singleton_append, List.length_append, List.length_singleton,
        Scan.readAll_append] at later
      change unquoteFrom ((({} : Scan).readAll done).read c) rest = _ at later
      rw [unquoteFrom, later, List.zipIdx_cons, List.filter_cons, delimiter, escape]
      generalize (c == '\\' && startsWithQuote rest) = escaping
      generalize (({} : Scan).readAll done).toggles c = delimiting
      cases escaping <;> cases delimiting <;> rfl

namespace Scan

/-- Two scans that stand in the same span, or in none, and take the same characters for delimiters
next. -/
structure Agrees (s u : Scan) : Prop where
  opened : s.opened = u.opened
  toggles : ∀ c, s.toggles c = u.toggles c

theorem Outside.agrees {s u : Scan} (hs : s.Outside) (hu : u.Outside) (t : Text) :
    (s.readAll t).Agrees (u.readAll t) := by
  cases t with
  | nil =>
      refine ⟨hs.opened.trans hu.opened.symm, fun c => ?_⟩
      have last : (s.last != some '\\') = (u.last != some '\\') :=
        (bne_iff_ne.2 hs.last).trans (bne_iff_ne.2 hu.last).symm
      change s.toggles c = u.toggles c
      rw [toggles, toggles, hs.opened, hu.opened, last]
  | cons c t =>
      rw [readAll_cons, readAll_cons, hs.read_eq hu]
      exact ⟨rfl, fun _ => rfl⟩

/-- A scan that begins outside ends outside of all spans if the scan of the text alone does. -/
theorem Outside.outside_readAll {s : Scan} (hs : s.Outside) {t : Text}
    (alone : (({} : Scan).readAll t).Outside) : (s.readAll t).Outside := by
  cases t with
  | nil => exact hs
  | cons c t =>
      rw [readAll_cons, hs.read_eq outside_start]
      exact alone

/-- A blank outside of all spans leaves the scan there. -/
theorem outside_read_blank {s : Scan} (outside : s.inside = false) {c : Char}
    (blank : Text.isBlank c = true) : (s.read c).Outside := by
  rw [read_other (not_isQuote_of_isBlank blank)]
  refine ⟨?_, by simpa using ne_of_isBlank blank rfl⟩
  simpa [inside] using outside

end Scan

/-- The word that a scan is in ends with the text, or before the first blank outside of all spans,
and from there on the text has the other words. -/
theorem exists_wordsFrom (s : Scan) (t : Text) :
    ∃ right, t = (wordsFrom s t).1 ++ right ∧ s.Guards Text.isBlank (wordsFrom s t).1 ∧
      (right = [] ∧ (wordsFrom s t).2 = [] ∨
        ∃ c later, right = c :: later ∧ Text.isBlank c = true ∧
          (s.readAll (wordsFrom s t).1).inside = false ∧ (wordsFrom s t).2 = words later) := by
  induction t generalizing s with
  | nil => exact ⟨[], rfl, trivial, .inl ⟨rfl, rfl⟩⟩
  | cons c t ih =>
      cases ends : Text.isBlank c && !(s.read c).inside with
      | true =>
          obtain ⟨blank, outside⟩ := Bool.and_eq_true_iff.1 ends
          have before : s.inside = false := by
            rw [Scan.read_other (not_isQuote_of_isBlank blank)] at outside
            simpa [Scan.inside] using outside
          have step : wordsFrom s (c :: t) = ([], words t) := by
            rw [wordsFrom, (Scan.outside_read_blank before blank).wordsFrom_eq Scan.outside_start,
              (Scan.outside_read_blank before blank).inside, blank]
            rfl
          rw [step]
          exact ⟨c :: t, rfl, trivial, .inr ⟨c, t, rfl, blank, before, rfl⟩⟩
      | false =>
          obtain ⟨right, whole, guarded, ending⟩ := ih (s.read c)
          have step : wordsFrom s (c :: t) =
              (c :: (wordsFrom (s.read c) t).1, (wordsFrom (s.read c) t).2) := by
            rw [wordsFrom]
            dsimp only
            rw [ends]
            rfl
          rw [step]
          refine ⟨right, congrArg (c :: ·) whole, ⟨fun blank => ?_, guarded⟩, ending⟩
          rw [blank, Scan.read_other (not_isQuote_of_isBlank blank)] at ends
          simpa [Scan.inside] using ends

/-- A blank outside of all spans cuts a word from those behind it. -/
theorem words_append_blank {word : Text} (guarded : ({} : Scan).Guards Text.isBlank word)
    (outside : (({} : Scan).readAll word).inside = false) {c : Char}
    (blank : Text.isBlank c = true) (later : Text) :
    words (word ++ c :: later) = consWord word (words later) := by
  have next := Scan.outside_read_blank outside blank
  rw [words, wordsFrom_append guarded, wordsFrom]
  dsimp only
  rw [next.inside, blank, next.wordsFrom_eq Scan.outside_start]
  simp [words]

/-- A word behind a first one, which may be empty and is none then, is the first one or stands
behind it. -/
theorem cases_of_consWord {first word : Text} {others before after : List Text}
    (h : consWord first others = before ++ word :: after) :
    (before = [] ∧ first = word ∧ others = after) ∨
      ∃ between, others = between ++ word :: after ∧ before = consWord first between := by
  cases first with
  | nil => exact .inr ⟨before, h, rfl⟩
  | cons d first =>
      cases before with
      | nil =>
          obtain ⟨same, rest⟩ := List.cons.inj h
          exact .inl ⟨rfl, same, rest⟩
      | cons b before =>
          obtain ⟨rfl, rest⟩ := List.cons.inj h
          exact .inr ⟨before, rest, rfl⟩

/-- Where a word of a line stands: behind the words before it and before those after it, with the
scan outside of all spans. -/
theorem exists_place {line : Text} {before : List Text} {word : Text} {after : List Text}
    (h : words line = before ++ word :: after) :
    ∃ left right, line = left ++ word ++ right ∧ words left = before ∧ words right = after ∧
      (({} : Scan).readAll left).Outside := by
  obtain ⟨right, whole, guarded, ending⟩ := exists_wordsFrom {} line
  have split : words line = consWord (wordsFrom {} line).1 (wordsFrom {} line).2 := rfl
  generalize (wordsFrom {} line).1 = first at whole guarded ending split
  generalize (wordsFrom {} line).2 = others at ending split
  rcases cases_of_consWord (split.symm.trans h) with ⟨rfl, rfl, rfl⟩ | ⟨between, rest, rfl⟩
  · -- The word is the first one.
    refine ⟨[], right, whole, rfl, ?_, Scan.outside_start⟩
    rcases ending with ⟨rfl, rfl⟩ | ⟨c, later, rfl, blank, -, rfl⟩
    · rfl
    · exact words_cons_blank blank later
  · -- The word stands in what is behind the first one and a blank.
    rcases ending with ⟨-, rfl⟩ | ⟨c, later, rfl, blank, outside, rfl⟩
    · simp at rest
    · have shorter : later.length < line.length := by
        rw [whole, List.length_append, List.length_cons]
        omega
      obtain ⟨left, right, rfl, earlier, behind, reached⟩ := exists_place rest
      refine ⟨first ++ c :: left, right, by rw [whole]; simp, ?_, behind, ?_⟩
      · rw [words_append_blank guarded outside blank, earlier]
      · rw [Scan.readAll_append, Scan.readAll_cons]
        exact (Scan.outside_read_blank outside blank).outside_readAll reached
termination_by line.length

/-- Unquoting a word leaves out exactly its delimiters and the backslashes before a quote, all other
characters stay in order; and whatever has been read of a word of a line, the scan of the line then
stands as the scan of the word alone does. -/
theorem unquote_drops_delimiters :
    (∀ word, unquote word = (word.zipIdx.filter fun x =>
      !(delimits word x.2 || escapes word x.2)).map Prod.fst) ∧
    ∀ (line : Text) (before : List Text) (word : Text) (after : List Text),
      words line = before ++ word :: after →
        ∃ left right, line = left ++ word ++ right ∧ words left = before ∧ words right = after ∧
          ∀ read rest, word = read ++ rest →
            (({} : Scan).readAll (left ++ read)).Agrees (({} : Scan).readAll read) := by
  constructor
  · exact unquoteFrom_readAll []
  · intro line before word after h
    obtain ⟨left, right, whole, earlier, later, reached⟩ := exists_place h
    refine ⟨left, right, whole, earlier, later, fun read rest _ => ?_⟩
    rw [Scan.readAll_append]
    exact reached.agrees Scan.outside_start read

theorem unquote_drops_delimiters_nested :
    let line := "x\\ 'a \"b' \"c\\\"d' e\"y\\\\'z 'w".toList
    let word := "\"c\\\"d' e\"y\\\\'z".toList
    (words line = ["x\\".toList, "'a \"b'".toList] ++ word :: ["'w".toList] ∧
      ∃ left right, line = left ++ word ++ right ∧
        words left = ["x\\".toList, "'a \"b'".toList] ∧ words right = ["'w".toList] ∧
        ∀ read rest, word = read ++ rest →
          (({} : Scan).readAll (left ++ read)).Agrees (({} : Scan).readAll read)) ∧
    unquote word = "c\"d' ey\\'z".toList := by
  intro line word
  have cut : words line = ["x\\".toList, "'a \"b'".toList] ++ word :: ["'w".toList] := by decide
  refine ⟨⟨cut, unquote_drops_delimiters.2 line _ word _ cut⟩, ?_⟩
  rw [unquote_drops_delimiters.1]
  decide

end CommandShell.Line
