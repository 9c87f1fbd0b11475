import CommandShell.Proofs.Line.Segments

/-!
The commands of a line, read by starting over at every pipe. The segments behind the first pipe are
put together to a text again, and that is taken apart as a line of its own. The text behind the last
one of many pipes is so taken apart many times. Every time it comes to the same segments, because
none of them depends on what is before an operator; so to take the line apart once is enough.
-/
namespace CommandShell.Line

def Segment.isPipe : Segment → Bool
  | operator .pipe _ => true
  | _ => false

theorem Segment.isPipe_iff {segment : Segment} :
    segment.isPipe = true ↔ ∃ spelling, segment = .operator .pipe spelling := by
  cases segment with
  | text content => simp [isPipe]
  | operator op spelling => cases op <;> simp [isPipe]

theorem exists_append_of_dropWhile {segments : List Segment} {pipe : Segment}
    {behind : List Segment} (found : segments.dropWhile (!·.isPipe) = pipe :: behind) :
    ∃ before spelling, segments = before ++ .operator .pipe spelling :: behind := by
  have stops := List.head?_dropWhile_not (!·.isPipe) segments
  rw [found] at stops
  obtain ⟨spelling, rfl⟩ := Segment.isPipe_iff.1 (by simpa using stops)
  exact ⟨_, spelling, by rw [← found, List.takeWhile_append_dropWhile]⟩

theorem length_behind {line : Text} {pipe : Segment} {behind : List Segment}
    (found : (segments line).dropWhile (!·.isPipe) = pipe :: behind) :
    (Segment.spelledAll behind).length < line.length := by
  obtain ⟨before, spelling, whole⟩ := exists_append_of_dropWhile found
  obtain ⟨spelled, -⟩ := segmented_of_eq_append whole
  have shown := List.length_pos_iff.2 spelled.ne_nil
  have joined := congrArg List.length (spelledAll_segments line)
  simp only [whole, Segment.spelledAll, List.flatMap_append, List.flatMap_cons, List.length_append,
    Segment.spelled] at joined ⊢
  omega

/-- The commands of a line, where what is behind the first pipe is read anew. -/
def reread (value? : Text → Option Text) (line : Text) : List Command :=
  if Text.allBlank line then []
  else
    let command := Command.ofSegments value? line ((segments line).takeWhile (!·.isPipe))
    match found : (segments line).dropWhile (!·.isPipe) with
    | [] => [command]
    | _ :: behind =>
      have := length_behind found
      command :: reread value? (Segment.spelledAll behind)
termination_by line.length

theorem first_outline_eq_takeWhile (value? : Text → Option Text) (segments : List Segment) :
    (outline value? segments).first = segments.takeWhile (!·.isPipe) := by
  induction segments with
  | nil => rfl
  | cons segment rest ih =>
      rw [List.takeWhile_cons, ← ih]
      cases segment with
      | text content => rfl
      | operator op spelling => cases op <;> rfl

theorem later_outline_eq_dropWhile (value? : Text → Option Text) (segments : List Segment) :
    (outline value? segments).later =
      match segments.dropWhile (!·.isPipe) with
      | [] => []
      | _ :: behind => (outline value? behind).commands value? := by
  induction segments with
  | nil => rfl
  | cons segment rest ih =>
      cases segment with
      | text content => exact ih
      | operator op spelling =>
          cases op with
          | pipe => rfl
          | output | append | input => exact ih

/-- To read a line anew behind every pipe comes to the commands that it has when it is read once. -/
theorem reread_eq_parse (value? : Text → Option Text) (line : Text) :
    reread value? line = parse value? line := by
  fun_induction reread value? line with
  | case1 line blank => exact ((parse_eq_nil_iff value? line).2 blank).symm
  | case2 line shown command last =>
      rw [parse_of_shown value? (by simpa using shown), first_outline_eq_takeWhile,
        later_outline_eq_dropWhile, last]
  | case3 line shown command pipe behind found shorter ih =>
      obtain ⟨before, spelling, whole⟩ := exists_append_of_dropWhile found
      have same : parse value? (Segment.spelledAll behind) =
          (outline value? behind).commands value? := by
        rw [parse, segments_behind whole]
      rw [ih, same, parse_of_shown value? (by simpa using shown), first_outline_eq_takeWhile,
        later_outline_eq_dropWhile, found]

end CommandShell.Line
