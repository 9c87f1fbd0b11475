import CommandShell.Proofs.Line.Cut

/-!
The segments of a line as a list. A line is taken apart in the one way in which its operators stand
outside of quotes and no other operator character does. An operator leaves nothing of the quotes and
backslashes before it to be remembered, so the segments behind it are those of the text behind it,
cut as a line of its own.
-/
namespace CommandShell.Line

/-- What a scan from `s` on finds in the text of some segments is these segments: every operator
stands outside quotes and could not have been read as a longer one, and texts are whole. -/
def Segmented (s : Scan) : List Segment → Prop
  | [] => True
  | .text content :: rest =>
    content ≠ [] ∧ s.Guards isOperatorChar content ∧ (∀ t later, rest ≠ .text t :: later) ∧
      Segmented (s.readAll content) rest
  | .operator op spelling :: rest =>
    op.Spelled spelling ∧ s.inside = false ∧
      (∀ c, spelling = [c] → (Segment.spelledAll rest).head? ≠ some c) ∧
      Segmented (s.readAll spelling) rest

theorem segmented_textSegments_append {s : Scan} {t : Text} {rest : List Segment}
    (guarded : s.Guards isOperatorChar t) (ends : ∀ u later, rest ≠ .text u :: later)
    (behind : Segmented (s.readAll t) rest) : Segmented s (textSegments t ++ rest) := by
  cases t with
  | nil => exact behind
  | cons c t => exact ⟨List.cons_ne_nil c t, guarded, ends, behind⟩

theorem segmented_of_sound {s : Scan} {first : Text} {parts : List Part}
    (h : Cut.Sound s first parts) : Segmented s (Cut.segments first parts) := by
  induction parts generalizing s first with
  | nil =>
      have alone : Segmented s (textSegments first ++ []) :=
        segmented_textSegments_append h nofun trivial
      rwa [List.append_nil] at alone
  | cons p rest ih =>
      obtain ⟨guarded, outside, spelling, longest, later⟩ := h
      rw [← Cut.spelledAll_segments later] at longest
      exact segmented_textSegments_append guarded nofun ⟨spelling, outside, longest, ih later⟩

theorem segmented_segmentsFrom (s : Scan) (line : Text) : Segmented s (segmentsFrom s line) := by
  obtain ⟨first, parts, rfl, sound⟩ := Cut.exists_sound s line
  rw [Cut.segmentsFrom_spelled sound]
  exact segmented_of_sound sound

namespace Segmented

theorem segmentsFrom_spelledAll {s : Scan} {segments : List Segment} (h : Segmented s segments) :
    segmentsFrom s (Segment.spelledAll segments) = segments := by
  induction segments generalizing s with
  | nil => rfl
  | cons segment rest ih =>
      cases segment with
      | text content =>
          obtain ⟨ne, guarded, ends, behind⟩ := h
          have later := ih behind
          have joined := segmentsFrom_append_of_guards guarded (u := Segment.spelledAll rest)
            (by rw [later]; exact ends)
          obtain ⟨c, t, rfl⟩ := List.exists_cons_of_ne_nil ne
          rw [later] at joined
          exact joined
      | operator op spelling =>
          obtain ⟨spelled, outside, longest, behind⟩ := h
          have first := segmentsFrom_spelled spelled outside longest
          rw [ih behind] at first
          exact first

/-- Some segments are those of the text behind the ones before them. -/
theorem of_append {s : Scan} {before after : List Segment} (h : Segmented s (before ++ after)) :
    Segmented (s.readAll (Segment.spelledAll before)) after := by
  induction before generalizing s with
  | nil => exact h
  | cons segment before ih =>
      rw [Segment.spelledAll_cons, Scan.readAll_append]
      cases segment with
      | text content => exact ih h.2.2.2
      | operator op spelling => exact ih h.2.2.2

end Segmented

/-- A line is cut in the same way wherever the scan outside of quotes comes from. -/
theorem Scan.Outside.segmentsFrom_eq {s u : Scan} (hs : s.Outside) (hu : u.Outside) (line : Text) :
    segmentsFrom s line = segmentsFrom u line := by
  obtain ⟨first, parts, rfl, sound⟩ := Cut.exists_sound s line
  rw [Cut.segmentsFrom_spelled sound, Cut.segmentsFrom_spelled (sound.of_outside hs hu)]

theorem segmented_of_eq_append {line : Text} {before after : List Segment}
    (found : segments line = before ++ after) :
    Segmented (({} : Scan).readAll (Segment.spelledAll before)) after := by
  have whole := segmented_segmentsFrom {} line
  rw [← segments, found] at whole
  exact whole.of_append

/-- The segments behind an operator are found again in their text alone. -/
theorem segments_behind {line spelling : Text} {op : Operator} {before after : List Segment}
    (found : segments line = before ++ .operator op spelling :: after) :
    segments (Segment.spelledAll after) = after := by
  obtain ⟨spelled, outside, -, behind⟩ := segmented_of_eq_append found
  have fresh := Scan.outside_readAll_spelled spelled outside
  rw [segments, Scan.outside_start.segmentsFrom_eq fresh, behind.segmentsFrom_spelledAll]

/-- The segments of a line are the line. A text among them is not empty, stands next to no other
text, and has every operator character inside quotes. An operator is one operator character or the
same one twice, as many as the line has there, and stands outside quotes; and whatever is before it,
the segments behind it are those of the text behind it alone. -/
theorem segments_resynchronise (line : Text) :
    Segment.spelledAll (segments line) = line ∧
    (∀ before content after, segments line = before ++ .text content :: after →
      content ≠ [] ∧ (∀ other later, after ≠ .text other :: later) ∧
        (({} : Scan).readAll (Segment.spelledAll before)).Guards isOperatorChar content) ∧
    ∀ before op spelling after, segments line = before ++ .operator op spelling :: after →
      op.Spelled spelling ∧
        (({} : Scan).readAll (Segment.spelledAll before)).inside = false ∧
        (∀ c, spelling = [c] → (Segment.spelledAll after).head? ≠ some c) ∧
        segments (Segment.spelledAll after) = after := by
  refine ⟨spelledAll_segments line, ?_, ?_⟩
  · intro before content after found
    obtain ⟨ne, guarded, ends, -⟩ := segmented_of_eq_append found
    exact ⟨ne, ends, guarded⟩
  · intro before op spelling after found
    obtain ⟨spelled, outside, longest, -⟩ := segmented_of_eq_append found
    exact ⟨spelled, outside, longest, segments_behind found⟩

theorem segments_resynchronise_crowded :
    let line := "a\\>>>\"b|\\\"<\"|||'c".toList
    let before : List Segment := [.text "a\\".toList, .operator .append ">>".toList]
    let after : List Segment := [.text "\"b|\\\"<\"".toList, .operator .pipe "||".toList,
      .operator .pipe ['|'], .text "'c".toList]
    segments line = before ++ .operator .output ['>'] :: after ∧
      segments "\"b|\\\"<\"|||'c".toList = after := by
  intro line before after
  have cut : segments line = before ++ .operator .output ['>'] :: after := by decide
  obtain ⟨-, -, operators⟩ := segments_resynchronise line
  obtain ⟨-, -, -, again⟩ := operators before .output ['>'] after cut
  exact ⟨cut, again⟩

end CommandShell.Line
