import CommandShell.Proofs.Line.Delimiters

/-!
The words of a text as a list. A word begins outside of all quotes with nothing before it to be
remembered and ends before a blank outside of quotes, so it means the same by itself as in the text.
A text has the same words whatever blanks stand between them, and loses only those blanks.
-/
namespace CommandShell.Line

/-- The quotes of a text are balanced: no span is open at its end. -/
def Balanced (t : Text) : Prop := (({} : Scan).readAll t).inside = false

/-- Whether the character at a position of a text is a blank outside of quotes. -/
def isGap (t : Text) (i : Nat) : Bool :=
  t[i]?.any Text.isBlank && !(({} : Scan).readAll (t.take i)).inside

/-- A text that is a single word: it is not empty, and its blanks stand inside quotes. -/
structure IsWord (word : Text) : Prop where
  ne_nil : word ≠ []
  guarded : ({} : Scan).Guards Text.isBlank word

/-- Texts that are words side by side: only the last one can have a span open at its end. -/
structure AreWords (words : List Text) : Prop where
  isWord : ∀ word ∈ words, IsWord word
  balanced : ∀ word ∈ words.dropLast, Balanced word

/-- Some words with a gap behind each but the last, as long as there are gaps. -/
def joined : (gaps words : List Text) → Text
  | gap :: gaps, word :: next :: later => word ++ (gap ++ joined gaps (next :: later))
  | _, words => words.flatten

theorem Scan.inside_read_blank {c : Char} (blank : Text.isBlank c = true) (s : Scan) :
    (s.read c).inside = s.inside := by
  rw [read_other (not_isQuote_of_isBlank blank)]
  rfl

/-- What the words of the rest of a text keep of it, with the positions in the whole text. -/
theorem flatten_wordsFrom_readAll (done rest : Text) :
    (wordsFrom (({} : Scan).readAll done) rest).1 ++
        (wordsFrom (({} : Scan).readAll done) rest).2.flatten =
      ((rest.zipIdx done.length).filter fun x => !isGap (done ++ rest) x.2).map Prod.fst := by
  induction rest generalizing done with
  | nil => rfl
  | cons c rest ih =>
      have gap : isGap (done ++ c :: rest) done.length =
          (Text.isBlank c && !((({} : Scan).readAll done).read c).inside) := by
        cases blank : Text.isBlank c with
        | false => simp [isGap, blank]
        | true => simp [isGap, blank, Scan.inside_read_blank blank]
      have later := ih (done ++ [c])
      rw [List.append_assoc, List.singleton_append, List.length_append, List.length_singleton,
        Scan.readAll_append] at later
      change (wordsFrom ((({} : Scan).readAll done).read c) rest).1 ++
        (wordsFrom ((({} : Scan).readAll done).read c) rest).2.flatten = _ at later
      rw [List.zipIdx_cons, List.filter_cons, gap, wordsFrom]
      dsimp only
      cases Text.isBlank c && !((({} : Scan).readAll done).read c).inside with
      | true => simpa [flatten_consWord] using later
      | false => simpa using later

/-- The words of a text are the text without the blanks outside of quotes. -/
theorem flatten_words (t : Text) :
    (words t).flatten = (t.zipIdx.filter fun x => !isGap t x.2).map Prod.fst := by
  rw [words, flatten_consWord]
  exact flatten_wordsFrom_readAll [] t

theorem IsWord.words {word : Text} (h : IsWord word) : words word = [word] := by
  have alone := wordsFrom_append h.guarded []
  rw [List.append_nil] at alone
  rw [Line.words, alone]
  simp [wordsFrom, consWord, h.ne_nil]

namespace AreWords

theorem nil : AreWords [] := ⟨nofun, nofun⟩

/-- A text before a gap, or at the end, is a word if it is not empty. -/
theorem consWord {first : Text} {others : List Text} (h : AreWords others)
    (guarded : ({} : Scan).Guards Text.isBlank first) (balanced : others ≠ [] → Balanced first) :
    AreWords (consWord first others) := by
  cases first with
  | nil => exact h
  | cons c first =>
      have word : IsWord (c :: first) := ⟨List.cons_ne_nil c first, guarded⟩
      refine ⟨List.forall_mem_cons.2 ⟨word, h.isWord⟩, ?_⟩
      cases others with
      | nil => exact nofun
      | cons next later =>
          exact List.forall_mem_cons.2 ⟨balanced (List.cons_ne_nil next later), h.balanced⟩

theorem of_cons {word : Text} {later : List Text} (h : AreWords (word :: later)) :
    AreWords later := by
  refine ⟨(List.forall_mem_cons.1 h.isWord).2, fun other member => h.balanced other ?_⟩
  cases later with
  | nil => cases member
  | cons next later => exact List.mem_cons_of_mem word member

/-- Words are found again whatever gaps stand between them. -/
theorem words_joined {texts : List Text} (h : AreWords texts) {gaps : List Text}
    (blank : ∀ gap ∈ gaps, gap ≠ [] ∧ Text.allBlank gap = true)
    (enough : texts.length ≤ gaps.length + 1) : words (joined gaps texts) = texts := by
  fun_induction joined gaps texts with
  | case1 gap gaps word next later ih =>
      obtain ⟨⟨ne, here⟩, behind⟩ := List.forall_mem_cons.1 blank
      obtain ⟨c, gap, rfl⟩ := List.exists_cons_of_ne_nil ne
      rw [Text.allBlank, List.all_cons, Bool.and_eq_true] at here
      have first := h.isWord word List.mem_cons_self
      have closed : Balanced word := h.balanced word List.mem_cons_self
      rw [List.cons_append, words_append_blank first.guarded closed here.1,
        words_blank_append here.2, ih h.of_cons behind (by simpa using enough)]
      simp [Line.consWord, first.ne_nil]
  | case2 gaps texts short =>
      cases texts with
      | nil => rfl
      | cons word later =>
          cases later with
          | nil => simpa using (h.isWord word List.mem_cons_self).words
          | cons next later =>
              cases gaps with
              | nil => simp at enough
              | cons gap gaps => exact absurd rfl (short gap gaps word next later rfl)

end AreWords

theorem areWords_words (t : Text) : AreWords (words t) := by
  obtain ⟨right, whole, guarded, ending⟩ := exists_wordsFrom {} t
  have split : words t = consWord (wordsFrom {} t).1 (wordsFrom {} t).2 := rfl
  generalize (wordsFrom {} t).1 = first at whole guarded ending split
  generalize (wordsFrom {} t).2 = others at ending split
  rw [split]
  rcases ending with ⟨-, rfl⟩ | ⟨c, later, rfl, -, outside, rfl⟩
  · exact AreWords.nil.consWord guarded (absurd rfl)
  · have shorter : later.length < t.length := by
      rw [whole, List.length_append, List.length_cons]
      omega
    exact (areWords_words later).consWord guarded fun _ => outside
termination_by t.length

/-- The words of a text are not empty, and one behind the other they are the text without its blanks
outside of quotes. All but the last one have balanced quotes, each by itself has no word but itself,
and together they are the words of every text in which they stand in this order, with blanks before
them or none and blanks between any two. -/
theorem words_canonical (t : Text) :
    (∀ word ∈ words t, word ≠ []) ∧
    (words t).flatten = (t.zipIdx.filter fun x => !isGap t x.2).map Prod.fst ∧
    (∀ word ∈ (words t).dropLast, Balanced word) ∧
    (∀ word ∈ words t, words word = [word]) ∧
    ∀ (lead : Text) (gaps : List Text), Text.allBlank lead = true →
      (∀ gap ∈ gaps, gap ≠ [] ∧ Text.allBlank gap = true) →
      (words t).length ≤ gaps.length + 1 → words (lead ++ joined gaps (words t)) = words t := by
  have found := areWords_words t
  refine ⟨fun word member => (found.isWord word member).ne_nil, flatten_words t, found.balanced,
    fun word member => (found.isWord word member).words, ?_⟩
  intro lead gaps leading blank enough
  rw [words_blank_append leading, found.words_joined blank enough]

theorem words_canonical_open :
    let t := " a\\ 'b \"c'd  \\\"e \"f' g".toList
    let texts := ["a\\".toList, "'b \"c'd".toList, "\\\"e".toList, "\"f' g".toList]
    words t = texts ∧ ¬Balanced "\"f' g".toList ∧ Balanced "'b \"c'd".toList ∧
      words "\"f' g".toList = ["\"f' g".toList] ∧
      words "\t a\\\n'b \"c'd\u3000\u00a0\\\"e \"f' g".toList = texts := by
  intro t texts
  have found : words t = texts := by decide
  obtain ⟨-, -, balanced, alone, respaced⟩ := words_canonical t
  rw [found] at balanced alone respaced
  refine ⟨found, ?_, balanced _ (by decide), alone _ (by decide), ?_⟩
  · unfold Balanced
    decide
  · exact respaced "\t ".toList [['\n'], "\u3000\u00a0".toList, [' ']] (by decide) (by decide)
      (by decide)

end CommandShell.Line
