import CommandShell.Line.Command
import CommandShell.Proofs.Text.Occurrence

/-!
Quoted words. Every list of words that do not end in a backslash can be spelled so that the words of
the line are those again: a quoted word leaves the scan as it has found it, outside of all spans,
and between its quotes nothing delimits, separates or redirects.
-/
namespace CommandShell.Line

/-- A text with a backslash before each quote. -/
def escaped (x : Text) : Text := x.flatMap fun c => if isQuote c then ['\\', c] else [c]

/-- A text between double quotes. -/
def quoted (x : Text) : Text := '"' :: (escaped x ++ ['"'])

/-- Some texts between double quotes, each after a space. -/
def quotedAll (xs : List Text) : Text := xs.flatMap fun x => ' ' :: quoted x

@[simp] theorem escaped_nil : escaped [] = [] := rfl

theorem escaped_quote {c : Char} (h : isQuote c = true) (x : Text) :
    escaped (c :: x) = '\\' :: c :: escaped x := by
  simp [escaped, h]

theorem escaped_other {c : Char} (h : isQuote c = false) (x : Text) :
    escaped (c :: x) = c :: escaped x := by
  simp [escaped, h]

@[simp] theorem quotedAll_nil : quotedAll [] = [] := rfl

@[simp] theorem quotedAll_cons (x : Text) (xs : List Text) :
    quotedAll (x :: xs) = ' ' :: (quoted x ++ quotedAll xs) := rfl

theorem getLast?_cons_or (c : Char) (x : Text) (last : Option Char) :
    (c :: x).getLast?.or last = x.getLast?.or (some c) := by
  simp [List.getLast?_cons]

theorem getLast?_getD_ne {x : Text} (hx : x.getLast? ≠ some '\\') :
    x.getLast?.getD '"' ≠ '\\' := by
  cases last : x.getLast? with
  | none => simp
  | some c => simpa [last] using hx

namespace Scan

/-- Every character of a text that `p` picks stands inside a span. -/
def Guards (p : Char → Bool) (s : Scan) : Text → Prop
  | [] => True
  | c :: rest => (p c = true → s.inside = true) ∧ Guards p (s.read c) rest

theorem readAll_cons (s : Scan) (c : Char) (rest : Text) :
    s.readAll (c :: rest) = (s.read c).readAll rest := rfl

theorem guards_append (p : Char → Bool) (s : Scan) (t u : Text) :
    s.Guards p (t ++ u) ↔ s.Guards p t ∧ (s.readAll t).Guards p u := by
  induction t generalizing s with
  | nil => simp [Guards, readAll]
  | cons c t ih => simp only [List.cons_append, Guards, ih, readAll_cons, and_assoc]

theorem guards_of_forall_not {p : Char → Bool} (s : Scan) {t : Text} (h : ∀ c ∈ t, p c = false) :
    s.Guards p t := by
  induction t generalizing s with
  | nil => trivial
  | cons c t ih =>
      obtain ⟨here, later⟩ := List.forall_mem_cons.1 h
      exact ⟨by simp [here], ih (s.read c) later⟩

theorem read_of_not_toggles {s : Scan} {c : Char} (h : s.toggles c = false) :
    s.read c = ⟨s.opened, some c⟩ := by
  simp [read, h]

theorem read_other {c : Char} (h : isQuote c = false) (s : Scan) :
    s.read c = ⟨s.opened, some c⟩ := read_of_not_toggles (by simp [toggles, h])

theorem read_backslash (s : Scan) : s.read '\\' = ⟨s.opened, some '\\'⟩ := read_other rfl s

theorem read_escaped_quote (opened : Option Char) (c : Char) :
    (⟨opened, some '\\'⟩ : Scan).read c = ⟨opened, some c⟩ :=
  read_of_not_toggles (by simp [toggles])

theorem readAll_escaped (x : Text) (last : Option Char) :
    (⟨some '"', last⟩ : Scan).readAll (escaped x) = ⟨some '"', x.getLast?.or last⟩ := by
  induction x generalizing last with
  | nil => rfl
  | cons c x ih =>
      rw [getLast?_cons_or]
      cases q : isQuote c with
      | true =>
          rw [escaped_quote q, readAll_cons, readAll_cons, read_backslash, read_escaped_quote, ih]
      | false => rw [escaped_other q, readAll_cons, read_other q, ih]

theorem guards_escaped (p : Char → Bool) (x : Text) (last : Option Char) :
    (⟨some '"', last⟩ : Scan).Guards p (escaped x) := by
  induction x generalizing last with
  | nil => trivial
  | cons c x ih =>
      cases q : isQuote c with
      | true =>
          rw [escaped_quote q]
          refine ⟨fun _ => rfl, ?_⟩
          rw [read_backslash]
          refine ⟨fun _ => rfl, ?_⟩
          rw [read_escaped_quote]
          exact ih (some c)
      | false =>
          rw [escaped_other q]
          refine ⟨fun _ => rfl, ?_⟩
          rw [read_other q]
          exact ih (some c)

/-- A scan that stands outside of all spans, where the next quote opens one. -/
structure Outside (s : Scan) : Prop where
  opened : s.opened = none
  last : s.last ≠ some '\\'

theorem outside_start : Outside {} := ⟨rfl, nofun⟩

section Quoted
variable {s : Scan} (h : s.Outside) {x : Text} (hx : x.getLast? ≠ some '\\')
include h

theorem Outside.read {c : Char} (hq : isQuote c = false) (hb : c ≠ '\\') : (s.read c).Outside := by
  rw [read_other hq]
  exact ⟨h.opened, by simpa using hb⟩

theorem Outside.readAll {t : Text} (hq : ∀ c ∈ t, isQuote c = false) (hb : '\\' ∉ t) :
    (s.readAll t).Outside := by
  induction t generalizing s with
  | nil => exact h
  | cons c t ih =>
      obtain ⟨here, later⟩ := List.forall_mem_cons.1 hq
      exact ih (h.read here (Ne.symm (List.ne_of_not_mem_cons hb))) later
        (List.not_mem_of_not_mem_cons hb)

theorem Outside.read_quote : s.read '"' = ⟨some '"', some '"'⟩ := by
  simp [Scan.read, toggles, isQuote, h.opened, h.last]

theorem Outside.guards_quoted {p : Char → Bool} (hp : p '"' = false) : s.Guards p (quoted x) := by
  rw [quoted]
  refine ⟨by simp [hp], ?_⟩
  rw [h.read_quote, guards_append]
  exact ⟨guards_escaped p x _, by simp [Guards, hp]⟩

include hx

theorem Outside.readAll_quoted : s.readAll (quoted x) = ⟨none, some '"'⟩ := by
  have closes := getLast?_getD_ne hx
  rw [quoted, readAll_cons, h.read_quote, readAll_append, readAll_escaped, readAll_cons]
  simp [Scan.read, toggles, isQuote, closes, Scan.readAll]

end Quoted

theorem Outside.guards_quotedAll {s : Scan} (h : s.Outside) {p : Char → Bool} {xs : List Text}
    (hxs : ∀ x ∈ xs, x.getLast? ≠ some '\\') (hq : p '"' = false) (hp : p ' ' = false) :
    s.Guards p (quotedAll xs) := by
  induction xs generalizing s with
  | nil => trivial
  | cons x xs ih =>
      obtain ⟨hx, later⟩ := List.forall_mem_cons.1 hxs
      have between : (s.read ' ').Outside := h.read rfl (by decide)
      rw [quotedAll_cons]
      refine ⟨by simp [hp], (guards_append p _ _ _).2 ⟨between.guards_quoted hq, ?_⟩⟩
      rw [between.readAll_quoted hx]
      exact ih ⟨rfl, by decide⟩ later

end Scan

theorem not_isQuote_of_isBlank {c : Char} (h : Text.isBlank c = true) : isQuote c = false := by
  refine Bool.eq_false_iff.2 fun q => ?_
  rw [isQuote, Bool.or_eq_true, beq_iff_eq, beq_iff_eq] at q
  rcases q with rfl | rfl <;> cases h

theorem wordsFrom_append {s : Scan} {t : Text} (h : s.Guards Text.isBlank t) (u : Text) :
    wordsFrom s (t ++ u) =
      (t ++ (wordsFrom (s.readAll t) u).1, (wordsFrom (s.readAll t) u).2) := by
  induction t generalizing s with
  | nil => rfl
  | cons c t ih =>
      have within : (Text.isBlank c && !(s.read c).inside) = false := by
        cases blank : Text.isBlank c with
        | false => rfl
        | true =>
            rw [Scan.read_other (not_isQuote_of_isBlank blank)]
            simpa [Scan.inside] using h.1 blank
      rw [List.cons_append, wordsFrom, ih h.2]
      simp [within, Scan.readAll_cons]

theorem wordsFrom_quotedAll {s : Scan} (h : s.Outside) {xs : List Text}
    (hxs : ∀ x ∈ xs, x.getLast? ≠ some '\\') :
    wordsFrom s (quotedAll xs) = ([], xs.map quoted) := by
  induction xs generalizing s with
  | nil => rfl
  | cons x xs ih =>
      obtain ⟨hx, later⟩ := List.forall_mem_cons.1 hxs
      have between : (s.read ' ').Outside := h.read rfl (by decide)
      have outside : (s.read ' ').inside = false := by simp [Scan.inside, between.opened]
      have blank : Text.isBlank ' ' = true := rfl
      have guarded : (s.read ' ').Guards Text.isBlank (quoted x) := between.guards_quoted rfl
      rw [quotedAll_cons, wordsFrom, wordsFrom_append guarded, between.readAll_quoted hx,
        ih ⟨rfl, by decide⟩ later]
      simp [blank, outside, consWord, quoted]

/-- A text in which every operator is quoted is one segment. -/
theorem segmentsFrom_of_guards {s : Scan} {t : Text}
    (h : s.Guards (fun c => (Operator.ofChar? c).isSome) t) (ht : t ≠ []) :
    segmentsFrom s t = [.text t] := by
  fun_induction segmentsFrom s t <;> simp_all [Scan.Guards, Segment.consChar]

theorem startsWithQuote_escaped (x : Text) :
    startsWithQuote (escaped x ++ ['"']) = x.isEmpty := by
  cases x with
  | nil => rfl
  | cons c x =>
      cases q : isQuote c with
      | true => simp [escaped_quote q, startsWithQuote, isQuote]
      | false => simp [escaped_other q, startsWithQuote, q]

theorem unquoteFrom_escaped {x : Text} {last : Option Char}
    (h : x.getLast?.or last ≠ some '\\') :
    unquoteFrom ⟨some '"', last⟩ (escaped x ++ ['"']) = x := by
  induction x generalizing last with
  | nil =>
      have closes : last ≠ some '\\' := by simpa using h
      simp [unquoteFrom, Scan.toggles, isQuote, closes]
  | cons c x ih =>
      rw [getLast?_cons_or] at h
      have later := ih h
      cases q : isQuote c with
      | true =>
          have not_backslash : c ≠ '\\' := by rintro rfl; cases q
          rw [escaped_quote q, List.cons_append, List.cons_append, unquoteFrom, if_pos,
            Scan.read_backslash, unquoteFrom, if_neg, Scan.read_escaped_quote, later]
          · simp [not_backslash, Scan.toggles]
          · simp [startsWithQuote, q]
      | false =>
          -- A backslash is dropped only before a quote, and the last one before the closing quote
          -- would be the last character.
          have kept : ¬(c = '\\' ∧ x = []) := by
            rintro ⟨rfl, rfl⟩
            exact h rfl
          rw [escaped_other q, List.cons_append, unquoteFrom, if_neg, Scan.read_other q, later]
          simpa [startsWithQuote_escaped, Scan.toggles, q] using kept

/-- A text without quotes and backslashes is unquoted to itself. -/
theorem unquoteFrom_append (s : Scan) {t : Text} (hq : ∀ c ∈ t, isQuote c = false) (hb : '\\' ∉ t)
    (u : Text) : unquoteFrom s (t ++ u) = t ++ unquoteFrom (s.readAll t) u := by
  induction t generalizing s with
  | nil => rfl
  | cons c t ih =>
      obtain ⟨here, later⟩ := List.forall_mem_cons.1 hq
      have shown : c ≠ '\\' := Ne.symm (List.ne_of_not_mem_cons hb)
      rw [List.cons_append, unquoteFrom, if_neg (by simp [shown, Scan.toggles, here]),
        ih _ later (List.not_mem_of_not_mem_cons hb)]
      rfl

theorem Scan.Outside.unquoteFrom_quoted {s : Scan} (h : s.Outside) {x : Text}
    (hx : x.getLast? ≠ some '\\') : unquoteFrom s (quoted x) = x := by
  have closes : x.getLast?.or (some '"') ≠ some '\\' := by simpa using getLast?_getD_ne hx
  have opens : s.toggles '"' = true := by simp [Scan.toggles, isQuote, h.opened, h.last]
  rw [quoted, unquoteFrom, if_pos (by simp [opens]), h.read_quote, unquoteFrom_escaped closes]

/-- Unquoting a quoted word gives the word back. -/
theorem unquote_quoted {x : Text} (hx : x.getLast? ≠ some '\\') : unquote (quoted x) = x :=
  Scan.outside_start.unquoteFrom_quoted hx

theorem map_unquote_quoted {xs : List Text} (hxs : ∀ x ∈ xs, x.getLast? ≠ some '\\') :
    (xs.map quoted).map unquote = xs := by
  induction xs with
  | nil => rfl
  | cons x xs ih =>
      obtain ⟨hx, later⟩ := List.forall_mem_cons.1 hxs
      rw [List.map_cons, List.map_cons, unquote_quoted hx, ih later]

theorem reference?_eq_none {c : Char} {rest : Text} (hd : c ≠ '$') (hp : c ≠ '%') :
    reference? (c :: rest) = none := by
  unfold reference?
  split <;> simp_all

/-- A text without the characters that begin a reference is not changed by expansion. -/
theorem expand_of_not_mem (value? : Text → Option Text) {t : Text} (hd : '$' ∉ t) (hp : '%' ∉ t) :
    expand value? t = t := by
  unfold expand
  induction t with
  | nil => rfl
  | cons c t ih =>
      rw [expandFrom, reference?_eq_none (Ne.symm (List.ne_of_not_mem_cons hd))
        (Ne.symm (List.ne_of_not_mem_cons hp))]
      rw [ih (List.not_mem_of_not_mem_cons hd) (List.not_mem_of_not_mem_cons hp)]

section Marks
variable {mark : Text} (hd : '"' ∉ mark) (hs : '\'' ∉ mark) (hb : '\\' ∉ mark)
include hd hs hb

theorem infix_append_escaped (before x : Text) :
    mark <:+: before ++ escaped x ↔ mark <:+: before ++ x := by
  induction x generalizing before with
  | nil => rfl
  | cons c x ih =>
      cases q : isQuote c with
      | true =>
          -- The backslash before the quote and the quote itself both separate occurrences.
          have absent : c ∉ mark := by
            rw [isQuote, Bool.or_eq_true, beq_iff_eq, beq_iff_eq] at q
            rcases q with rfl | rfl <;> assumption
          have start := Text.infix_append_cons_iff absent [] (escaped x)
          have rest := ih []
          rw [List.nil_append] at start rest
          rw [escaped_quote q, Text.infix_append_cons_iff hb, start, rest, List.nil_append,
            Text.infix_append_cons_iff absent]
          refine or_congr_right (or_iff_right_of_imp fun empty => ?_)
          exact empty.trans (List.nil_infix)
      | false =>
          have shifted := ih (before ++ [c])
          rwa [List.append_assoc, List.append_assoc, List.singleton_append,
            List.singleton_append, ← escaped_other q] at shifted

/-- A mark without quotes and backslashes occurs among quoted texts exactly if it occurs in one. -/
theorem infix_append_quotedAll {before : Text} (h : ¬mark <:+: before ++ [' ']) (xs : List Text) :
    mark <:+: before ++ quotedAll xs ↔ ∃ x ∈ xs, mark <:+: x := by
  induction xs generalizing before with
  | nil =>
      have absent : ¬mark <:+: before := fun found => h (found.trans (List.infix_append' [] _ _))
      simp [absent]
  | cons x xs ih =>
      have space : ¬mark <:+: [] ++ [' '] :=
        fun found => h (found.trans (List.suffix_append before [' ']).isInfix)
      have inner := infix_append_escaped hd hs hb [] x
      rw [List.nil_append, List.nil_append] at inner
      have later := ih space
      rw [List.nil_append] at later
      rw [show before ++ quotedAll (x :: xs) =
          (before ++ [' ']) ++ '"' :: (escaped x ++ '"' :: quotedAll xs) by simp [quoted],
        Text.infix_append_cons_iff hd, Text.infix_append_cons_iff hd, inner, later]
      simp [h]

end Marks

theorem count_escaped {c : Char} (h : c ≠ '\\') (x : Text) : (escaped x).count c = x.count c := by
  induction x with
  | nil => rfl
  | cons d x ih =>
      cases q : isQuote d with
      | true =>
          rw [escaped_quote q, List.count_cons_of_ne h.symm, List.count_cons, List.count_cons, ih]
      | false => rw [escaped_other q, List.count_cons, List.count_cons, ih]

/-- Quoting adds only spaces, double quotes and backslashes. -/
theorem count_quotedAll {c : Char} (hs : c ≠ ' ') (hd : c ≠ '"') (hb : c ≠ '\\') (xs : List Text) :
    (quotedAll xs).count c = xs.flatten.count c := by
  induction xs with
  | nil => rfl
  | cons x xs ih =>
      simp [quoted, count_escaped hb, ih, List.count_cons_of_ne, hs.symm, hd.symm]

theorem not_mem_quotedAll {c : Char} (hs : c ≠ ' ') (hd : c ≠ '"') (hb : c ≠ '\\') {xs : List Text}
    (h : ∀ x ∈ xs, c ∉ x) : c ∉ quotedAll xs := by
  rw [← List.count_eq_zero, count_quotedAll hs hd hb, List.count_eq_zero, List.mem_flatten]
  rintro ⟨x, hx, hc⟩
  exact h x hx hc

end CommandShell.Line
