import CommandShell.Proofs.Line.Cut
import CommandShell.Proofs.Line.Redirected
import CommandShell.Text.Number

/-!
Words between blanks. Reading words outside of quotes comes to cutting the text at its blanks, so a
text without quotes has the words that stand in it, and one that begins with a bare word has this
word as its first, whatever references and operators come behind. A text of letters, digits and
signs is read as it stands.
-/
namespace CommandShell

namespace Text

/-- A blank cuts the words before it from those behind it. -/
theorem blankSplitFrom_append_cons {c : Char} (blank : isBlank c = true) (pending t u : Text) :
    blankSplitFrom pending (t ++ c :: u) = blankSplitFrom pending t ++ blankSplit u := by
  induction t generalizing pending with
  | nil => cases pending <;> simp [blankSplitFrom, blank, blankSplit]
  | cons d t ih =>
      rw [List.cons_append, blankSplitFrom, blankSplitFrom]
      split_ifs
      · exact ih []
      · rw [ih [], List.cons_append]
      · exact ih _

theorem blankSplit_append_cons {c : Char} (blank : isBlank c = true) (t u : Text) :
    blankSplit (t ++ c :: u) = blankSplit t ++ blankSplit u :=
  blankSplitFrom_append_cons blank [] t u

theorem blankSplitFrom_append {w : Text} (shown : ∀ c ∈ w, isBlank c = false) (pending t : Text) :
    blankSplitFrom pending (w ++ t) = blankSplitFrom (w.reverse ++ pending) t := by
  induction w generalizing pending with
  | nil => rfl
  | cons c w ih =>
      obtain ⟨here, later⟩ := List.forall_mem_cons.1 shown
      simp [blankSplitFrom, here, ih later]

/-- A word by itself. -/
theorem blankSplit_of_not_blank {w : Text} (shown : ∀ c ∈ w, isBlank c = false) (ne : w ≠ []) :
    blankSplit w = [w] := by
  have read := blankSplitFrom_append shown [] []
  simpa [blankSplit, blankSplitFrom, ne] using read

theorem flatten_blankSplitFrom (pending t : Text) :
    (blankSplitFrom pending t).flatten = pending.reverse ++ t.filter (!isBlank ·) := by
  induction t generalizing pending with
  | nil => cases pending <;> simp [blankSplitFrom]
  | cons c t ih =>
      rw [blankSplitFrom]
      split_ifs with blank none
      · simp [ih, blank, List.isEmpty_iff.1 none]
      · simp [ih, blank]
      · simp [ih, blank]

/-- The words of a text are what is not blank in it. -/
theorem flatten_blankSplit (t : Text) : (blankSplit t).flatten = t.filter (!isBlank ·) :=
  flatten_blankSplitFrom [] t

theorem blankSplit_eq_nil_iff (t : Text) : blankSplit t = [] ↔ allBlank t = true := by
  induction t with
  | nil => exact iff_of_true rfl rfl
  | cons c t ih =>
      cases blank : isBlank c with
      | true => simpa [blankSplit, blankSplitFrom, allBlank, blank] using ih
      | false =>
          refine iff_of_false (fun none => ?_) (by simp [allBlank, blank])
          have flat := flatten_blankSplit (c :: t)
          rw [none] at flat
          simp [blank] at flat

theorem not_allBlank_of_blankSplit {t w : Text} {rest : List Text}
    (split : blankSplit t = w :: rest) : allBlank t = false := by
  refine Bool.eq_false_iff.2 fun blank => ?_
  cases split.symm.trans ((blankSplit_eq_nil_iff t).2 blank)

theorem blankSplit_append_blank {u : Text} (blank : allBlank u = true) (t : Text) :
    blankSplit (t ++ u) = blankSplit t := by
  cases u with
  | nil => rw [List.append_nil]
  | cons c u =>
      rw [allBlank, List.all_cons, Bool.and_eq_true] at blank
      rw [blankSplit_append_cons blank.1, (blankSplit_eq_nil_iff u).2 blank.2, List.append_nil]

theorem blankSplit_blank_append {u : Text} (blank : allBlank u = true) (t : Text) :
    blankSplit (u ++ t) = blankSplit t := by
  induction u with
  | nil => rfl
  | cons c u ih =>
      rw [allBlank, List.all_cons, Bool.and_eq_true] at blank
      simpa [blankSplit, blankSplitFrom, blank.1] using ih blank.2

/-- A text that is not blank begins with blanks and its first word, and then it ends or goes on with
a blank. -/
theorem exists_of_blankSplit_cons {t w : Text} {rest : List Text} (h : blankSplit t = w :: rest) :
    ∃ lead, allBlank lead = true ∧
      (t = lead ++ w ∨ ∃ c later, isBlank c = true ∧ t = lead ++ w ++ c :: later) := by
  induction t with
  | nil => cases h
  | cons c t ih =>
      cases blank : isBlank c with
      | true =>
          have step : blankSplit (c :: t) = blankSplit t :=
            blankSplit_blank_append (u := [c]) (by simp [allBlank, blank]) t
          obtain ⟨lead, leading, found⟩ := ih (step.symm.trans h)
          refine ⟨c :: lead, by simpa [allBlank, blank] using leading, ?_⟩
          obtain rfl | ⟨d, later, hd, rfl⟩ := found
          · exact .inl rfl
          · exact .inr ⟨d, later, hd, rfl⟩
      | false =>
          have whole := List.takeWhile_append_dropWhile (p := (!isBlank ·)) (l := c :: t)
          generalize run : (c :: t).takeWhile (!isBlank ·) = word at whole
          have shown : ∀ d ∈ word, isBlank d = false := by
            rintro d hd
            rw [← run] at hd
            simpa using List.mem_takeWhile_imp hd
          have ne : word ≠ [] := by simp [← run, blank]
          refine ⟨[], rfl, ?_⟩
          cases behind : (c :: t).dropWhile (!isBlank ·) with
          | nil =>
              rw [behind, List.append_nil] at whole
              rw [← whole, blankSplit_of_not_blank shown ne] at h
              obtain ⟨rfl, -⟩ := List.cons.inj h
              exact .inl whole.symm
          | cons d later =>
              have stop : isBlank d = true := by
                have head := List.head?_dropWhile_not (!isBlank ·) (c :: t)
                simpa [behind] using head
              rw [behind] at whole
              rw [← whole, blankSplit_append_cons stop, blankSplit_of_not_blank shown ne] at h
              obtain ⟨rfl, -⟩ := List.cons.inj h
              exact .inr ⟨d, later, stop, whole.symm⟩

theorem exists_trimEnd_append (t : Text) : ∃ u, allBlank u = true ∧ trimEnd t ++ u = t := by
  refine ⟨(t.reverse.takeWhile isBlank).reverse, ?_, ?_⟩
  · rw [allBlank, List.all_reverse]
    exact List.all_eq_true.2 fun c hc => List.mem_takeWhile_imp hc
  · rw [trimEnd, dropEndWhile, ← List.reverse_append, List.takeWhile_append_dropWhile,
      List.reverse_reverse]

theorem blankSplit_trim (t : Text) : blankSplit (trim t) = blankSplit t := by
  have lead : allBlank (t.takeWhile isBlank) = true :=
    List.all_eq_true.2 fun c hc => List.mem_takeWhile_imp hc
  have start : t.takeWhile isBlank ++ trimStart t = t := List.takeWhile_append_dropWhile
  obtain ⟨u, blank, stop⟩ := exists_trimEnd_append (trimStart t)
  calc blankSplit (trim t)
    _ = blankSplit (trimStart t) := by rw [trim, ← blankSplit_append_blank blank, stop]
    _ = blankSplit t := by rw [← blankSplit_blank_append lead, start]

/-- A mark between spaces stands between the words on its two sides. -/
theorem blankSplit_append_mark {sign : Text} (shown : ∀ c ∈ sign, isBlank c = false)
    (ne : sign ≠ []) (t u : Text) :
    blankSplit (t ++ ' ' :: (sign ++ ' ' :: u)) = blankSplit t ++ sign :: blankSplit u := by
  rw [blankSplit_append_cons rfl, blankSplit_append_cons rfl, blankSplit_of_not_blank shown ne,
    List.singleton_append]

/-- What is left of the first mark begins with the first word of the text. -/
theorem exists_blankSplit_piece {mark sign text piece first : Text} {later rest : List Text}
    (spaced : mark = ' ' :: (sign ++ [' '])) (shown : ∀ c ∈ sign, isBlank c = false)
    (ne : sign ≠ []) (cut : pieces mark text = piece :: later)
    (split : blankSplit text = first :: rest) (other : first ≠ sign) :
    ∃ words, blankSplit piece = first :: words := by
  have nonempty : mark ≠ [] := by simp [spaced]
  have joined := intercalate_pieces nonempty text
  rw [cut] at joined
  cases later with
  | nil =>
      have whole : piece = text := by simpa [List.intercalate] using joined
      exact ⟨rest, whole ▸ split⟩
  | cons next later =>
      rw [intercalate_cons _ _ (List.cons_ne_nil _ _)] at joined
      generalize List.intercalate mark (next :: later) = behind at joined
      have whole : text = piece ++ ' ' :: (sign ++ ' ' :: behind) := by
        rw [← joined, spaced]
        simp
      rw [whole, blankSplit_append_mark shown ne] at split
      cases words : blankSplit piece with
      | nil =>
          rw [words] at split
          exact absurd (List.cons.inj split).1.symm other
      | cons word more =>
          rw [words] at split
          obtain ⟨rfl, -⟩ := List.cons.inj split
          exact ⟨more, rfl⟩

end Text

namespace Line

/-- The words from a scan on, where `pending` is the word being read, reversed. -/
theorem consWord_wordsFrom {s : Scan} (outside : s.inside = false) {t : Text}
    (plain : ∀ c ∈ t, isQuote c = false) (pending : Text) :
    consWord (pending.reverse ++ (wordsFrom s t).1) (wordsFrom s t).2 =
      Text.blankSplitFrom pending t := by
  induction t generalizing s pending with
  | nil => cases pending <;> simp [wordsFrom, Text.blankSplitFrom, consWord]
  | cons c t ih =>
      obtain ⟨here, later⟩ := List.forall_mem_cons.1 plain
      have next : (s.read c).inside = false := by rw [Scan.read_other here]; exact outside
      have rest := ih next later
      rw [wordsFrom, Text.blankSplitFrom]
      dsimp only
      rw [next, Bool.not_false, Bool.and_true]
      cases Text.isBlank c with
      | true =>
          have fresh : consWord (wordsFrom (s.read c) t).1 (wordsFrom (s.read c) t).2 =
            Text.blankSplitFrom [] t := rest []
          rw [if_pos rfl, if_pos rfl, fresh]
          cases pending <;> simp [consWord]
      | false => simpa using rest (c :: pending)

/-- A text without quotes has the words that stand between its blanks. -/
theorem words_of_no_quote {t : Text} (plain : ∀ c ∈ t, isQuote c = false) :
    words t = Text.blankSplit t :=
  consWord_wordsFrom rfl plain []

theorem Scan.Outside.wordsFrom_eq {s u : Scan} (hs : s.Outside) (hu : u.Outside) (t : Text) :
    wordsFrom s t = wordsFrom u t := by
  cases t with
  | nil => rfl
  | cons c t => rw [wordsFrom, wordsFrom, hs.read_eq hu]

theorem ne_of_isBlank {c d : Char} (blank : Text.isBlank c = true)
    (shown : Text.isBlank d = false) : c ≠ d := by
  rintro rfl
  cases blank.symm.trans shown

theorem words_cons_blank {c : Char} (blank : Text.isBlank c = true) (t : Text) :
    words (c :: t) = words t := by
  have next := Scan.outside_start.read (not_isQuote_of_isBlank blank) (ne_of_isBlank blank rfl)
  rw [words, wordsFrom]
  dsimp only
  rw [next.inside, blank, next.wordsFrom_eq Scan.outside_start]
  rfl

theorem words_blank_append {u : Text} (blank : Text.allBlank u = true) (t : Text) :
    words (u ++ t) = words t := by
  induction u with
  | nil => rfl
  | cons c u ih =>
      rw [Text.allBlank, List.all_cons, Bool.and_eq_true] at blank
      rw [List.cons_append, words_cons_blank blank.1, ih blank.2]

theorem expand_cons (value? : Text → Option Text) {c : Char} (hd : c ≠ '$') (hp : c ≠ '%')
    (t : Text) : expand value? (c :: t) = c :: expand value? t := by
  rw [expand, expandFrom, reference?_eq_none hd hp]
  rfl

theorem expand_append_of_not_mem (value? : Text → Option Text) {t : Text} (hd : '$' ∉ t)
    (hp : '%' ∉ t) (u : Text) : expand value? (t ++ u) = t ++ expand value? u := by
  induction t with
  | nil => rfl
  | cons c t ih =>
      rw [List.mem_cons, not_or] at hd hp
      rw [List.cons_append, expand_cons value? (Ne.symm hd.1) (Ne.symm hp.1), ih hd.2 hp.2,
        List.cons_append]

theorem plainPart_append {t : Text} (h : ∀ c ∈ t, Operator.ofChar? c = none) (u : Text) :
    plainPart (t ++ u) = t ++ plainText (segmentsFrom (Scan.readAll {} t) u) :=
  plainText_append h {} u

theorem plainPart_of_no_operator {t : Text} (h : ∀ c ∈ t, Operator.ofChar? c = none) :
    plainPart t = t := by
  simpa [segmentsFrom, plainText] using plainPart_append h []

/-- What holds of every blank and in a word holds in the text of some blanks and the word. -/
theorem forall_mem_blank_append {p : Char → Prop} (all : ∀ c, Text.isBlank c = true → p c)
    {lead word : Text} (blank : Text.allBlank lead = true) (inside : ∀ c ∈ word, p c) :
    ∀ c ∈ lead ++ word, p c :=
  List.forall_mem_append.2 ⟨fun c hc => all c (List.all_eq_true.1 blank c hc), inside⟩

theorem ofChar?_of_isBlank {c : Char} (blank : Text.isBlank c = true) :
    Operator.ofChar? c = none := by
  cases found : Operator.ofChar? c with
  | none => rfl
  | some op => cases blank.symm.trans (not_isBlank_of_ofChar? found)

namespace Bare
variable {name : Text} (h : Bare name)
include h

theorem exists_words_append_cons {c : Char} (blank : Text.isBlank c = true) (t : Text) :
    ∃ later, words (name ++ c :: t) = name :: later := by
  refine ⟨_, h.words_append (c :: t) ?_⟩
  have next := h.outside_readAll.read (not_isQuote_of_isBlank blank) (ne_of_isBlank blank rfl)
  simp [wordsFrom, next.inside, blank]

/-- A text that begins with a bare word has this word as the first of its first command, whatever
the variables are. -/
theorem exists_words_plainPart (value? : Text → Option Text) {t : Text} {rest : List Text}
    (first : Text.blankSplit t = name :: rest) :
    ∃ later, words (expand value? (plainPart t)) = name :: later := by
  obtain ⟨lead, blank, place⟩ := Text.exists_of_blankSplit_cons first
  have operator := forall_mem_blank_append (fun _ => ofChar?_of_isBlank) blank h.operator
  have absent {d : Char} (shown : Text.isBlank d = false) (apart : d ∉ name) : d ∉ lead ++ name :=
    fun found => forall_mem_blank_append (fun _ hc => ne_of_isBlank hc shown) blank
      (fun c hc same => apart (same ▸ hc)) d found rfl
  have dollar : '$' ∉ lead ++ name := absent rfl h.dollar
  have percent : '%' ∉ lead ++ name := absent rfl h.percent
  rcases place with rfl | ⟨c, later, stop, rfl⟩
  · have alone : words (name ++ []) = [name] := h.words_append [] rfl
    rw [List.append_nil] at alone
    rw [plainPart_of_no_operator operator, expand_of_not_mem value? dollar percent,
      words_blank_append blank, alone]
    exact ⟨[], rfl⟩
  · rw [plainPart_append operator, segmentsFrom_cons (ofChar?_of_isBlank stop),
      plainText_consChar, expand_append_of_not_mem value? dollar percent,
      expand_cons value? (ne_of_isBlank stop rfl) (ne_of_isBlank stop rfl), List.append_assoc,
      words_blank_append blank]
    exact h.exists_words_append_cons stop _

end Bare

/-- Characters that stand for themselves everywhere on a line. -/
def isOrdinary (c : Char) : Bool := c.isAlphanum || c == '+' || c == '-'

theorem isOrdinary_of_digitsFrom {limit n value : Nat} {beyond : NumeralError} {t : Text}
    (h : Text.digitsFrom limit beyond value t = .ok n) : ∀ c ∈ t, isOrdinary c = true := by
  induction t generalizing value with
  | nil => simp
  | cons c t ih =>
      rw [Text.digitsFrom] at h
      split at h
      · next digit =>
        dsimp only at h
        split at h
        · cases h
        · exact List.forall_mem_cons.2 ⟨by simp [isOrdinary, Char.isAlphanum, digit], ih h⟩
      · cases h

theorem isOrdinary_of_digits {limit n : Nat} {beyond : NumeralError} {t : Text}
    (h : Text.digits limit beyond t = .ok n) : ∀ c ∈ t, isOrdinary c = true := by
  unfold Text.digits at h
  split at h
  · cases h
  · exact isOrdinary_of_digitsFrom h

theorem isOrdinary_of_map_digits {limit : Nat} {beyond : NumeralError} {t : Text} {sign : Nat → Int}
    {n : Int} (h : (Text.digits limit beyond t).map sign = .ok n) :
    ∀ c ∈ t, isOrdinary c = true := by
  cases read : Text.digits limit beyond t with
  | error cause => rw [read] at h; cases h
  | ok value => exact isOrdinary_of_digits read

/-- A numeral is written with a sign and digits. -/
theorem isOrdinary_of_readInt {limit : Nat} {t : Text} {n : Int}
    (h : Text.readInt limit t = .ok n) : ∀ c ∈ t, isOrdinary c = true := by
  unfold Text.readInt at h
  split at h
  · cases h
  · next t =>
    cases read : Text.digits (limit + 1) .tooSmall t with
    | error cause => rw [read] at h; cases h
    | ok value => exact List.forall_mem_cons.2 ⟨rfl, isOrdinary_of_digits read⟩
  · exact List.forall_mem_cons.2 ⟨rfl, isOrdinary_of_map_digits h⟩
  · exact isOrdinary_of_map_digits h

theorem range_of_isOrdinary {c : Char} (h : isOrdinary c = true) :
    c.toNat = 43 ∨ c.toNat = 45 ∨ 48 ≤ c.toNat ∧ c.toNat ≤ 122 := by
  have low (d : Char) : c.val ≥ d.val ↔ d.toNat ≤ c.toNat := UInt32.le_iff_toNat_le
  have high (d : Char) : c.val ≤ d.val ↔ c.toNat ≤ d.toNat := UInt32.le_iff_toNat_le
  simp only [isOrdinary, Char.isAlphanum, Bool.or_eq_true, beq_iff_eq] at h
  rcases h with ((letter | digit) | rfl) | rfl
  · have ranges : (decide (c.val ≥ 'A'.val ∧ c.val ≤ 'Z'.val) ||
        decide (c.val ≥ 'a'.val) && decide (c.val ≤ 'z'.val)) = true := letter
    simp only [Bool.or_eq_true, Bool.and_eq_true, decide_eq_true_eq, low, high,
      Char.reduceToNat] at ranges
    omega
  · have range : (decide (c.val ≥ '0'.val) && decide (c.val ≤ '9'.val)) = true := digit
    simp only [Bool.and_eq_true, decide_eq_true_eq, low, high, Char.reduceToNat] at range
    omega
  · exact .inl rfl
  · exact .inr (.inl rfl)

theorem isBlank_of_isOrdinary {c : Char} (h : isOrdinary c = true) : Text.isBlank c = false := by
  have range := range_of_isOrdinary h
  simp only [Text.isBlank, Bool.or_eq_false_iff, Bool.and_eq_false_iff, decide_eq_false_iff_not,
    beq_eq_false_iff_ne]
  omega

/-- A text of which every character stands for itself, blanks apart. -/
def Ordinary (t : Text) : Prop := ∀ c ∈ t, Text.isBlank c = true ∨ isOrdinary c = true

namespace Ordinary
variable {t : Text} (h : Ordinary t)
include h

theorem not_mem {c : Char} (shown : Text.isBlank c = false) (special : isOrdinary c = false) :
    c ∉ t := by
  intro found
  rcases h c found with blank | plain
  · rw [shown] at blank
    cases blank
  · rw [special] at plain
    cases plain

theorem quote : ∀ c ∈ t, isQuote c = false := by
  intro c found
  refine Bool.eq_false_iff.2 fun q => ?_
  rw [isQuote, Bool.or_eq_true, beq_iff_eq, beq_iff_eq] at q
  rcases q with rfl | rfl
  · exact h.not_mem (by decide) (by decide) found
  · exact h.not_mem (by decide) (by decide) found

theorem operator : ∀ c ∈ t, Operator.ofChar? c = none := by
  intro c found
  have other {d : Char} (shown : Text.isBlank d = false) (special : isOrdinary d = false) :
      c ≠ d := by
    rintro rfl
    exact h.not_mem shown special found
  simp [Operator.ofChar?, other (d := '|') rfl rfl, other (d := '>') rfl rfl,
    other (d := '<') rfl rfl]

theorem unmarked : Unmarked t where
  pipe := h.not_mem (by decide) (by decide)
  input := h.not_mem (by decide) (by decide)
  output := h.not_mem (by decide) (by decide)

theorem kind (shown : Text.allBlank t = false) : kind t = .simple :=
  h.unmarked.kind (hasBackgroundMark_append_shown [] shown (h.not_mem (by decide) (by decide)))

end Ordinary

theorem bare_of_isOrdinary {name : Text} (ne : name ≠ [])
    (plain : ∀ c ∈ name, isOrdinary c = true) : Bare name := by
  have ordinary : Ordinary name := fun c found => .inr (plain c found)
  exact ⟨ne, fun c found => isBlank_of_isOrdinary (plain c found), ordinary.quote,
    ordinary.operator, ordinary.not_mem rfl rfl, ordinary.not_mem rfl rfl,
    ordinary.not_mem rfl rfl⟩

/-- A text whose words are ordinary is ordinary. -/
theorem ordinary_of_blankSplit {t : Text} {words : List Text} (split : Text.blankSplit t = words)
    (plain : ∀ w ∈ words, ∀ c ∈ w, isOrdinary c = true) : Ordinary t := by
  intro c found
  cases blank : Text.isBlank c with
  | true => exact .inl rfl
  | false =>
      have kept : c ∈ (Text.blankSplit t).flatten := by
        rw [Text.flatten_blankSplit, List.mem_filter]
        exact ⟨found, by simp [blank]⟩
      rw [split, List.mem_flatten] at kept
      obtain ⟨w, member, inside⟩ := kept
      exact .inr (plain w member c inside)

end Line

end CommandShell
