import CommandShell.Proofs.Line.Expansion
import CommandShell.Proofs.Line.FirstCommand
import CommandShell.Proofs.Text.Trimming

/-!
Where the characters of a command come from: each of them stands on the line or in the value of a
variable. So a character that is in neither is in none of the words that a command is given.
-/
namespace CommandShell

namespace Text
variable {x : Char}

theorem not_mem_trim {s : Text} (h : x ∉ s) : x ∉ trim s := fun found =>
  h ((List.dropWhile_sublist isBlank).subset ((prefix_trimEnd _).subset found))

theorem not_mem_unwords (blank : x ≠ ' ') {words : List Text} (h : ∀ w ∈ words, x ∉ w) :
    x ∉ unwords words := by
  induction words with
  | nil => exact List.not_mem_nil
  | cons word rest ih =>
      obtain ⟨here, later⟩ := List.forall_mem_cons.1 h
      cases rest with
      | nil => simpa [unwords] using here
      | cons next rest =>
          rw [unwords, intercalate_cons _ _ (List.cons_ne_nil next rest)]
          exact List.not_mem_append (by simp [here, blank]) (ih later)

theorem not_mem_onFirst {c : Char} (ne : x ≠ c) {pieces : List Text}
    (h : ∀ piece ∈ pieces, x ∉ piece) : ∀ piece ∈ onFirst c pieces, x ∉ piece := by
  cases pieces with
  | nil => simp [onFirst, ne]
  | cons first rest =>
      obtain ⟨here, later⟩ := List.forall_mem_cons.1 h
      exact List.forall_mem_cons.2 ⟨List.not_mem_cons_of_ne_of_not_mem ne here, later⟩

theorem not_mem_piecesFrom {mark s : Text} (skip : Nat) (h : x ∉ s) :
    ∀ piece ∈ piecesFrom mark skip s, x ∉ piece := by
  fun_induction piecesFrom mark skip s with
  | case1 => simp
  | case2 skip c s ih => exact ih (List.not_mem_of_not_mem_cons h)
  | case3 c s found ih =>
      exact List.forall_mem_cons.2 ⟨List.not_mem_nil, ih (List.not_mem_of_not_mem_cons h)⟩
  | case4 c s other ih =>
      exact not_mem_onFirst (List.ne_of_not_mem_cons h) (ih (List.not_mem_of_not_mem_cons h))

theorem not_mem_pieces {mark s : Text} (h : x ∉ s) : ∀ piece ∈ pieces mark s, x ∉ piece :=
  not_mem_piecesFrom 0 h

end Text

namespace Line
variable {x : Char}

theorem not_mem_unquote {word : Text} (h : x ∉ word) : x ∉ unquote word := fun found =>
  h ((sublist_unquote word).subset found)

theorem not_mem_plainPart {line : Text} (h : x ∉ line) : x ∉ plainPart line := fun found => by
  have kept := (sublist_plainText (segments line)).subset found
  rw [spelledAll_segments] at kept
  exact h kept

theorem not_mem_words {t : Text} (h : x ∉ t) : ∀ w ∈ words t, x ∉ w := fun w member found =>
  h ((sublist_words t).subset (List.mem_flatten.2 ⟨w, member, found⟩))

section
variable {value? : Text → Option Text}
  (values : ∀ name value, value? name = some value → x ∉ value)
include values

theorem not_mem_expandFrom {t : Text} (skip : Nat) (h : x ∉ t) :
    x ∉ expandFrom value? skip t := by
  fun_induction expandFrom value? skip t with
  | case1 => exact List.not_mem_nil
  | case2 skip c t ih => exact ih (List.not_mem_of_not_mem_cons h)
  | case3 c t unread ih =>
      exact List.not_mem_cons_of_ne_of_not_mem (List.ne_of_not_mem_cons h)
        (ih (List.not_mem_of_not_mem_cons h))
  | case4 c t ref read ih =>
      refine List.not_mem_append ?_ (ih (List.not_mem_of_not_mem_cons h))
      cases value : value? ref.name with
      | some inserted => exact values ref.name inserted value
      | none => exact fun spelled => h ((prefix_of_reference? read).subset spelled)

/-- The arguments of the first command hold no character that neither the text nor a variable
has. -/
theorem not_mem_arguments {text : Text} {command : Command} {later : List Command}
    (parsed : parse value? text = command :: later) (h : x ∉ text) :
    ∀ w ∈ command.arguments, x ∉ w := by
  have shown := not_allBlank_of_parse parsed
  obtain ⟨_, _, same, -, arguments⟩ := exists_parse_eq_cons value? shown
  cases parsed.symm.trans same
  intro w member
  rw [arguments] at member
  exact not_mem_words (not_mem_expandFrom values 0 (not_mem_plainPart h)) w
    (List.mem_of_mem_tail member)

end

end Line

end CommandShell
