import CommandShell.Proofs.Text.Occurrence
import CommandShell.Shell.Console

/-!
What a front end makes of a marked image. The path of the image stands in the marker as it is and is
read up to the first closing bracket, so the marker says what it was made from exactly if the path
holds none; otherwise the rest of the path is shown before the text.
-/
namespace CommandShell

theorem Text.endsWith_append_cons (d c : Char) (u t : Text) :
    endsWith [d] (u ++ c :: t) = endsWith [d] (c :: t) := by
  obtain ⟨last, rest, reversed⟩ : ∃ last rest, (c :: t).reverse = last :: rest :=
    List.exists_cons_of_ne_nil (by simp)
  by_cases same : d = last <;> simp [endsWith, List.reverse_append, reversed, after?, same]

theorem Console.closed_append (u t : Text) :
    closed (u ++ ']' :: '\n' :: t) = u ++ ']' :: '\n' :: closed t := by
  cases t with
  | nil =>
      have line : u ++ [']', '\n'] = (u ++ [']']) ++ '\n' :: [] := by simp
      rw [closed, line, Text.endsWith_append_cons]
      simp [closed, Text.endsWith, Text.after?]
  | cons c t =>
      have split : u ++ ']' :: '\n' :: c :: t = (u ++ [']', '\n']) ++ c :: t := by simp
      rw [closed, split, Text.endsWith_append_cons, closed]
      cases Text.endsWith ['\n'] (c :: t) <;> simp [Text.line]

namespace Display

theorem ofOutput_imageMark (rest : Text) :
    ofOutput (imageMark ++ rest) =
      match Text.cutAt? [']'] rest with
      | some (image, shown) => .art image (dropNewline shown)
      | none => .text (imageMark ++ rest) := by
  have other : (imageMark ++ rest == clearMark) = false := by
    rw [beq_eq_false_iff_ne]
    intro same
    have second := congrArg (·[1]?) same
    cases second
  have marked : Text.after? imageMark (imageMark ++ rest) = some rest :=
    Text.after?_eq_some_iff.2 rfl
  rw [ofOutput, other, marked]
  rfl

/-- The image is read up to the first closing bracket. -/
theorem ofOutput_artMarker {before : Text} (first : ']' ∉ before) (behind : Text) :
    ofOutput (imageMark ++ (before ++ ']' :: behind)) = .art before (dropNewline behind) := by
  rw [ofOutput_imageMark, Text.cutAt?_append_cons first]

theorem exists_dropNewline (s t : Text) :
    ∃ u, dropNewline (s ++ ']' :: t) = u ++ ']' :: t := by
  cases s with
  | nil => exact ⟨[], rfl⟩
  | cons c s =>
      by_cases newline : c = '\n'
      · subst newline
        exact ⟨s, rfl⟩
      · exact ⟨c :: s, by simp [dropNewline, newline]⟩

theorem output_render_of_art {output image shown : Text} (h : ofOutput output = .art image shown) :
    (Console.render (Result.ok output)).output = Console.closed shown := by
  simp [Console.render, Result.ok, h]

/-- A marker is read as the image and the text that it was made from exactly if the path of the image
holds no closing bracket, and exactly then a console shows the text and nothing else. Otherwise the
image that is read ends before the first bracket, and what is left of its path is shown as text. -/
theorem artMarker_round_trip_iff (image text : Text) :
    (ofOutput (artMarker image text) = .art image text ↔ ']' ∉ image) ∧
      ((Console.render (Result.ok (artMarker image text))).output = Console.closed text ↔
        ']' ∉ image) ∧
      ∀ before behind, image = before ++ ']' :: behind → ']' ∉ before →
        ofOutput (artMarker image text) =
          .art before (dropNewline (behind ++ ']' :: '\n' :: text)) := by
  have cut (before behind : Text) (split : image = before ++ ']' :: behind)
      (first : ']' ∉ before) : ofOutput (artMarker image text) =
        .art before (dropNewline (behind ++ ']' :: '\n' :: text)) := by
    rw [artMarker, split, List.append_assoc, List.append_assoc, List.cons_append,
      ofOutput_artMarker first]
  by_cases found : ']' ∈ image
  · obtain ⟨before, behind, split, first⟩ := List.eq_append_cons_of_mem found
    obtain ⟨u, shown⟩ := exists_dropNewline behind ('\n' :: text)
    have read := cut before behind split first
    refine ⟨iff_of_false (fun same => ?_) (not_not_intro found),
      iff_of_false (fun same => ?_) (not_not_intro found), cut⟩
    · obtain ⟨path, -⟩ := Display.art.inj (read.symm.trans same)
      exact first (path ▸ found)
    · rw [output_render_of_art read, shown, Console.closed_append] at same
      have lengths := congrArg List.length same
      simp only [List.length_append, List.length_cons] at lengths
      omega
  · have read : ofOutput (artMarker image text) = .art image text := by
      rw [artMarker, List.append_assoc, ofOutput_artMarker found]
      rfl
    exact ⟨iff_of_true read found, iff_of_true (output_render_of_art read) found, cut⟩

theorem artMarker_round_trip_bracketed :
    let text := "\n<>\n".toList
    ofOutput (artMarker "/art/logo.png".toList text) = .art "/art/logo.png".toList text ∧
      ofOutput (artMarker "/art]/logo.png".toList text) =
        .art "/art".toList "/logo.png]\n\n<>\n".toList := by
  intro text
  exact ⟨(artMarker_round_trip_iff _ text).1.2 (by decide),
    (artMarker_round_trip_iff _ text).2.2 "/art".toList "/logo.png".toList (by decide) (by decide)⟩

end Display

end CommandShell
