import CommandShell.Proofs.Text.Occurrence
import CommandShell.Shell.Prompt
import Mathlib.Data.List.Induction

/-!
The tokens of a prompt. They are replaced one kind after the other, and every replacement reads
again what those before it have put in. A value that holds no sign of a token, and does not begin
with the letter of a later one, is never taken for a token, neither alone nor together with what
stands beside it. So the template might as well be read once.
-/
namespace CommandShell

namespace Text

/-- A text that is read once from left to right. The sign and a letter that has a value make a
token, which is replaced by the value; every other character stays as it is. -/
def substitute (values : List (Char × Text)) : Text → Text
  | '$' :: c :: s =>
    match values.lookup c with
    | some value => value ++ substitute values s
    | none => '$' :: substitute values (c :: s)
  | c :: s => c :: substitute values s
  | [] => []

theorem substitute_nil (s : Text) : substitute [] s = s := by
  fun_induction substitute [] s with
  | case1 c s value found => cases found
  | case2 c s missing ih => rw [ih]
  | case3 c s _ ih => rw [ih]
  | case4 => rfl

theorem substitute_cons {values : List (Char × Text)} {c : Char} (h : c ≠ '$') (s : Text) :
    substitute values (c :: s) = c :: substitute values s := by
  rw [substitute]
  exact fun _ _ first => absurd first h

section Replace
variable {x : Char} {lead : Text} (value : Text)

theorem replace_cons {mark : Text} {c : Char} {s : Text} (h : ¬mark <+: c :: s) :
    replace mark value (c :: s) = c :: replace mark value s := by
  have absent : (after? mark (c :: s)).isSome = false :=
    Bool.eq_false_iff.2 fun found => h ((after?_isSome_iff _ _).1 found)
  simp [replace, replaceFrom, absent]

/-- What holds no first character of the mark is passed over. -/
theorem replace_append {a : Text} (h : x ∉ a) (b : Text) :
    replace (x :: lead) value (a ++ b) = a ++ replace (x :: lead) value b := by
  induction a with
  | nil => rfl
  | cons c a ih =>
      obtain ⟨other, later⟩ := not_or.1 (List.mem_cons.not.1 h)
      have missed : ¬x :: lead <+: c :: (a ++ b) := fun found =>
        other (List.cons_prefix_cons.1 found).1
      rw [List.cons_append, replace_cons value missed, ih later, List.cons_append]

theorem replace_token (k : Char) (s : Text) :
    replace ['$', k] value ('$' :: k :: s) = value ++ replace ['$', k] value s := by
  simp [replace, replaceFrom, after?]

end Replace

/-- A value that can be put in before the tokens with a letter are replaced: it holds no sign, and
what it begins with is another character. -/
structure Settled (letter : Char) (value : Text) : Prop where
  unsigned : '$' ∉ value
  starts : ∃ c ∈ value.head?, c ≠ letter

section OneMore
variable {values : List (Char × Text)} {k : Char}

/-- What a text becomes does not begin with a letter unless the text does. -/
theorem head?_substitute (settled : ∀ item ∈ values, Settled k item.2) {s : Text}
    (other : s.head? ≠ some k) : (substitute values s).head? ≠ some k := by
  fun_cases substitute values s with
  | case1 c s value found =>
      obtain ⟨before, behind, rfl, -⟩ := List.lookup_eq_some_iff.1 found
      obtain ⟨d, first, ne⟩ := (settled (c, value) (by simp)).starts
      obtain ⟨rest, rfl⟩ := List.head?_eq_some_iff.1 first
      simpa using ne
  | case2 | case3 => exact other
  | case4 => exact other

/-- Tokens of one more kind can be replaced in what the other values have made of a text. -/
theorem replace_substitute (sign : k ≠ '$') (fresh : values.lookup k = none)
    (settled : ∀ item ∈ values, Settled k item.2) (value s : Text) :
    replace ['$', k] value (substitute values s) = substitute (values ++ [(k, value)]) s := by
  have looked (c : Char) : (values ++ [(k, value)]).lookup c =
      (values.lookup c).or (if c = k then some value else none) := by
    rw [List.lookup_append, List.lookup_cons, List.lookup_nil]
    split <;> simp_all
  fun_induction substitute values s with
  | case1 c s old found ih =>
      obtain ⟨before, behind, rfl, -⟩ := List.lookup_eq_some_iff.1 found
      rw [replace_append _ (settled (c, old) (by simp)).unsigned, ih, substitute, looked, found]
      rfl
  | case2 c s missing ih =>
      rw [substitute, looked, missing, Option.none_or]
      by_cases here : c = k
      · subst here
        have other : ¬['$', c] <+: c :: substitute values s := fun found =>
          sign (List.cons_prefix_cons.1 found).1.symm
        rw [substitute_cons sign, substitute_cons sign, replace_cons _ other] at ih
        rw [substitute_cons sign, replace_token, (List.cons.inj ih).2, if_pos rfl]
      · -- The sign stays. What is put behind it begins as the text does, or with a value, and so
        -- not with the letter.
        have other : ¬['$', k] <+: '$' :: substitute values (c :: s) := fun found => by
          obtain ⟨rest, whole⟩ := (List.cons_prefix_cons.1 found).2
          refine head?_substitute settled (s := c :: s) (by simpa using here) ?_
          rw [← whole]
          rfl
        rw [replace_cons _ other, ih, if_neg here]
  | case3 c s lone ih =>
      have other : ¬['$', k] <+: c :: substitute values s := fun found => by
        obtain ⟨first, next⟩ := List.cons_prefix_cons.1 found
        cases s with
        | nil => cases next.length_le
        | cons d s => exact lone d s first.symm rfl
      rw [replace_cons _ other, ih, substitute]
      exact lone
  | case4 => rfl

end OneMore

/-- Replacing the tokens one kind after the other is reading the text once, if no value can be taken
for a token of a later kind. -/
theorem foldl_replace {values : List (Char × Text)} (signs : ∀ item ∈ values, item.1 ≠ '$')
    (apart : values.Pairwise fun a b => a.1 ≠ b.1 ∧ Settled b.1 a.2) (s : Text) :
    values.foldl (fun text item => replace ['$', item.1] item.2 text) s = substitute values s := by
  induction values using List.reverseRecOn with
  | nil => exact (substitute_nil s).symm
  | append_singleton earlier last ih =>
      obtain ⟨before, -, seams⟩ := List.pairwise_append.1 apart
      replace seams := fun item member => seams item member last (List.mem_singleton_self last)
      obtain ⟨others, sign⟩ := List.forall_mem_append.1 signs
      have fresh : earlier.lookup last.1 = none :=
        List.lookup_eq_none_iff.2 fun item member => bne_iff_ne.2 (seams item member).1.symm
      rw [List.foldl_append, ih others before, List.foldl_cons, List.foldl_nil]
      exact replace_substitute (sign last (List.mem_singleton_self last)) fresh
        (fun item member => (seams item member).2) last.2 s

end Text

namespace Moment

/-- A date or a time can be put in before the tokens with any letter are replaced. -/
theorem settled_of_isMark {text : Text} (shown : text ≠ []) (marks : ∀ c ∈ text, isMark c = true)
    {letter : Char} (other : isMark letter = false) : Text.Settled letter text where
  unsigned sign := absurd (marks '$' sign) (by decide)
  starts := by
    obtain ⟨c, rest, rfl⟩ := List.exists_cons_of_ne_nil shown
    refine ⟨c, rfl, ?_⟩
    rintro rfl
    rw [marks c List.mem_cons_self] at other
    cases other

end Moment

namespace Path

/-- The path of a directory as it is found without links: the names on the way to it from the root,
none of them void. -/
structure Canonical (path : Text) (route : List Text) : Prop where
  spelled : path = ofNames route
  shown : ∀ name ∈ route, name ≠ [] ∧ '/' ∉ name
  proper : ∀ name ∈ route, name ≠ here ∧ name ≠ above

theorem pieces_append_route {route : List Text} (whole : ∀ name ∈ route, '/' ∉ name) {a : Text}
    (h : '/' ∉ a) :
    Text.pieces ['/'] (a ++ route.flatMap fun name => '/' :: name) = a :: route := by
  induction route generalizing a with
  | nil => rw [List.flatMap_nil, List.append_nil, Text.pieces_of_not_mem (x := '/') (by simp) h]
  | cons name rest ih =>
      obtain ⟨here, later⟩ := List.forall_mem_cons.1 whole
      have next := Text.pieces_append_mark_append (List.mem_singleton_self '/') h
        (name ++ rest.flatMap fun name => '/' :: name)
      rw [ih later here] at next
      rw [← next]
      simp

namespace Canonical
variable {path : Text} {route : List Text} (h : Canonical path route)
include h

theorem normalNames_eq : normalNames path = route := by
  have names : names path = route := by
    rw [h.spelled]
    cases route with
    | nil => rfl
    | cons first rest =>
        have cut := pieces_append_route (fun name member => (h.shown name member).2)
          (List.not_mem_nil (a := '/'))
        have shown : ∀ name ∈ first :: rest, (!name.isEmpty) = true := fun name member => by
          simpa using (h.shown name member).1
        rw [Path.names, ofNames, ← List.nil_append (List.flatMap _ _), cut,
          List.filter_cons_of_neg (by simp), List.filter_eq_self.2 shown]
        exact List.cons_ne_nil _ _
  rw [normalNames, names, List.filter_eq_self]
  exact fun name member => bne_iff_ne.2 (h.proper name member).1

theorem fileName?_eq : fileName? path = route.getLast? := by
  rw [fileName?, h.normalNames_eq]
  cases last : route.getLast? with
  | none => rfl
  | some name => exact if_neg (by simpa using (h.proper name (List.mem_of_getLast? last)).2)

theorem head?_eq : path.head? = some '/' := by
  rw [h.spelled]
  cases route <;> rfl

end Canonical

end Path

namespace Environment

/-- The letters of the tokens of a prompt with their values. -/
def promptValues (e : Environment) (now : Moment) : List (Char × Text) :=
  [('P', e.directory), ('G', ['>']), ('D', now.date), ('T', now.time), ('U', e.user),
   ('M', e.machine)]

theorem leafName_eq (e : Environment) {route : List Text}
    (canonical : Path.Canonical e.directory route) : e.leafName = route.getLastD ['/'] := by
  rw [leafName, canonical.fileName?_eq]
  cases route using List.reverseRecOn with
  | nil =>
      rw [canonical.spelled]
      rfl
  | append_singleton route name => simp

/-- A directory without a dollar sign and a user who has a name without one that does not begin with
the letter of the machine: then no value is taken for a token. -/
theorem apart_promptValues (e : Environment) (now : Moment)
    (directory : '$' ∉ e.directory) (absolute : e.directory.head? = some '/')
    (user : Text.Settled 'M' e.user) :
    (e.promptValues now).Pairwise fun a b => a.1 ≠ b.1 ∧ Text.Settled b.1 a.2 := by
  have path {letter : Char} (other : '/' ≠ letter) : Text.Settled letter e.directory :=
    ⟨directory, '/', absolute, other⟩
  have greater {letter : Char} (other : '>' ≠ letter) : Text.Settled letter ['>'] :=
    ⟨by decide, '>', rfl, other⟩
  have date {letter : Char} : Moment.isMark letter = false → Text.Settled letter now.date :=
    Moment.settled_of_isMark (by simp [Moment.date]) now.isMark_of_date
  have time {letter : Char} : Moment.isMark letter = false → Text.Settled letter now.time :=
    Moment.settled_of_isMark (by simp [Moment.time]) now.isMark_of_time
  simp [promptValues, path, greater, date, time, user, Moment.isMark]

/-- A template comes to the same whether its tokens are replaced one kind after the other or it is
read once, with every token replaced where it stands. The prompt is this text with a blank behind
it; the bare brand shows the name of the current directory, which is the last one of its path, or
the path itself at the root. -/
theorem prompt_of_template (e : Environment) (now : Moment) {route : List Text}
    (canonical : Path.Canonical e.directory route) (directory : '$' ∉ e.directory)
    (named : e.user ≠ []) (user : '$' ∉ e.user) (start : e.user.head? ≠ some 'M') :
    let text := Text.substitute (e.promptValues now) e.promptTemplate
    e.expandPrompt now = text ∧
      e.prompt now =
        if text = "WS>".toList then "WS [".toList ++ route.getLastD ['/'] ++ "]> ".toList
        else text ++ [' '] := by
  intro text
  have settled : Text.Settled 'M' e.user := by
    obtain ⟨c, rest, spelled⟩ := List.exists_cons_of_ne_nil named
    refine ⟨user, c, by rw [spelled]; rfl, ?_⟩
    rintro rfl
    exact start (by rw [spelled]; rfl)
  have signs : ∀ item ∈ e.promptValues now, item.1 ≠ '$' := by simp [promptValues]
  have expanded : e.expandPrompt now = text :=
    Text.foldl_replace signs (apart_promptValues e now directory canonical.head?_eq settled) _
  refine ⟨expanded, ?_⟩
  rw [prompt, expanded, leafName_eq e canonical]
  by_cases brand : text = "WS>".toList <;> simp [brand]

/-- Values that look like tokens beside a sign that is none, and the bare brand at the root. -/
theorem prompt_of_template_nested :
    let now : Moment := ⟨2024, 2, 29, 7, 5⟩
    let nested := Environment.start { prompt := "$$P $U$$G$M $T$".toList, assets := [] }
      [("USER".toList, "TM".toList)] "/srv/box".toList "$P".toList
    let bare := Environment.start { assets := [] } [] "/".toList []
    Path.Canonical nested.directory ["srv".toList, "box".toList] ∧
      nested.prompt now = "$/srv/box TM$>$P 07:05$ ".toList ∧
      Path.Canonical bare.directory [] ∧ bare.prompt now = "WS [/]> ".toList := by
  intro now nested bare
  have canonical : Path.Canonical nested.directory ["srv".toList, "box".toList] :=
    ⟨by decide, by decide, by decide⟩
  have root : Path.Canonical bare.directory [] := ⟨by decide, nofun, nofun⟩
  have first := (prompt_of_template nested now canonical (by decide) (by decide) (by decide)
    (by decide)).2
  have second := (prompt_of_template bare now root (by decide) (by decide) (by decide)
    (by decide)).2
  exact ⟨canonical, first.trans (by decide), root, second.trans (by decide)⟩

end Environment

end CommandShell
