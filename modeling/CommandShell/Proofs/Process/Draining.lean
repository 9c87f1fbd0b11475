import CommandShell.Proofs.Text.Decoding
import CommandShell.Proofs.Text.Occurrence
import CommandShell.Shell.State
import Mathlib.Data.List.DropRight

/-!
What draining a stream comes to. The bytes are cut at newlines before they are decoded, and each
line is decoded by itself; the lines are nevertheless those of the stream as a whole, since a
newline ends any character that has been begun. So what is kept of a stream is a text whose lines
end in one newline and in no carriage return, and draining that text again changes nothing.
-/
namespace CommandShell

/-- A list ends behind its last mark, or begins with what stands before a mark. -/
theorem cut_induction {α : Type} (mark : α) {motive : List α → Prop}
    (last : ∀ l, mark ∉ l → motive l)
    (cut : ∀ l rest, mark ∉ l → motive rest → motive (l ++ mark :: rest)) (s : List α) :
    motive s := by
  by_cases h : mark ∈ s
  · obtain ⟨l, rest, whole, absent⟩ := List.eq_append_cons_of_mem h
    have shorter : rest.length < s.length := by
      rw [whole, List.length_append, List.length_cons]
      omega
    exact whole ▸ cut l rest absent (cut_induction mark last cut rest)
  · exact last s h
termination_by s.length

namespace Text

/-- A line without the carriage returns at its end. -/
def withoutReturns (s : Text) : Text := dropEndWhile (· == '\r') s

theorem withoutReturns_withoutReturns (s : Text) :
    withoutReturns (withoutReturns s) = withoutReturns s := List.rdropWhile_idempotent _ s

theorem prefix_withoutReturns (s : Text) : withoutReturns s <+: s := List.rdropWhile_prefix _ s

theorem dropEndWhile_congr {p q : Char → Bool} {s : Text} (h : ∀ c ∈ s, p c = q c) :
    dropEndWhile p s = dropEndWhile q s := by
  have start (t : Text) (ht : ∀ c ∈ t, p c = q c) : t.dropWhile p = t.dropWhile q := by
    induction t with
    | nil => rfl
    | cons c t ih =>
        obtain ⟨here, later⟩ := List.forall_mem_cons.1 ht
        rw [List.dropWhile_cons, List.dropWhile_cons, here, ih later]
  rw [dropEndWhile, dropEndWhile, start s.reverse fun c hc => h c (List.mem_reverse.1 hc)]

theorem lines_of_not_mem {s : Text} (h : '\n' ∉ s) : lines s = if s = [] then [] else [s] := by
  rw [lines, pieces_of_not_mem (List.mem_singleton_self _) h]
  cases s <;> rfl

theorem lines_append_newline {s : Text} (h : '\n' ∉ s) (rest : Text) :
    lines (s ++ '\n' :: rest) = s :: lines rest := by
  have cut := pieces_append_mark_append (List.mem_singleton_self '\n') h rest
  rw [List.append_assoc, List.singleton_append] at cut
  obtain ⟨piece, later, some⟩ := List.exists_cons_of_ne_nil (piecesFrom_ne_nil ['\n'] 0 rest)
  rw [lines, cut, lines, show pieces ['\n'] rest = piece :: later from some,
    List.getLast?_cons_cons]
  split <;> rfl

theorem not_mem_of_mem_lines (s : Text) : ∀ line ∈ lines s, '\n' ∉ line := by
  induction s using cut_induction '\n' with
  | last s h =>
      rw [lines_of_not_mem h]
      split
      · nofun
      · simpa using h
  | cut s rest h ih =>
      rw [lines_append_newline h]
      exact List.forall_mem_cons.2 ⟨h, ih⟩

end Text

namespace Drain

theorem pieces_of_not_mem {bytes : Bytes} (h : newline ∉ bytes) :
    pieces bytes = if bytes = [] then [] else [bytes] := by
  induction bytes with
  | nil => rfl
  | cons b rest ih =>
      rw [pieces, if_neg (Ne.symm (List.ne_of_not_mem_cons h)),
        ih (List.not_mem_of_not_mem_cons h)]
      cases rest <;> rfl

theorem pieces_append_newline {bytes : Bytes} (h : newline ∉ bytes) (rest : Bytes) :
    pieces (bytes ++ newline :: rest) = (bytes ++ [newline]) :: pieces rest := by
  induction bytes with
  | nil => rw [List.nil_append, pieces, if_pos rfl, List.nil_append]
  | cons b bytes ih =>
      rw [List.cons_append, pieces, if_neg (Ne.symm (List.ne_of_not_mem_cons h)),
        ih (List.not_mem_of_not_mem_cons h)]
      rfl

theorem decode_append_newline (bytes rest : Bytes) :
    Text.decode (bytes ++ newline :: rest) = Text.decode bytes ++ '\n' :: Text.decode rest :=
  Text.decode_append_ascii (by decide) bytes rest

theorem newline_isAscii : Text.IsAscii '\n' := ⟨by decide, by decide⟩

theorem not_mem_decode {bytes : Bytes} (h : newline ∉ bytes) : '\n' ∉ Text.decode bytes := by
  intro shown
  obtain ⟨byte, member, same⟩ :=
    Text.exists_mem_of_mem_decodeFrom Text.large_none newline_isAscii shown
  exact h ((UInt8.toNat_inj.1 same : byte = newline) ▸ member)

/-- The line of a piece is what is decoded of it, whether a newline ends it or not. -/
theorem lineText_of_not_mem {bytes : Bytes} (h : newline ∉ bytes) :
    lineText bytes = Text.withoutReturns (Text.decode bytes) ∧
      lineText (bytes ++ [newline]) = Text.withoutReturns (Text.decode bytes) := by
  have absent := not_mem_decode h
  have ends : Text.dropEndWhile isLineEnd (Text.decode bytes) =
      Text.withoutReturns (Text.decode bytes) := by
    refine Text.dropEndWhile_congr fun c hc => ?_
    simp [isLineEnd, show c ≠ '\n' from fun same => absent (same ▸ hc)]
  refine ⟨ends, ?_⟩
  rw [lineText, decode_append_newline, ← ends, Text.dropEndWhile, List.reverse_append]
  rfl

/-- The lines of a stream as a whole: decoded, cut at newlines, and without the carriage returns at
their ends. -/
def wholeLines (stream : Bytes) : List Text :=
  (Text.lines (Text.decode stream)).map Text.withoutReturns

theorem lines_eq_wholeLines (stream : Bytes) : lines stream = wholeLines stream := by
  rw [lines, wholeLines]
  induction stream using cut_induction newline with
  | last stream h =>
      rw [pieces_of_not_mem h, Text.lines_of_not_mem (not_mem_decode h)]
      have empty : Text.decode stream = [] ↔ stream = [] := by
        simp [Text.decode, Text.decodeFrom_eq_nil_iff]
      by_cases none : stream = []
      · rw [if_pos none, if_pos (empty.2 none)]
        rfl
      · rw [if_neg none, if_neg (mt empty.1 none), List.map_singleton, List.map_singleton,
          (lineText_of_not_mem h).1]
  | cut stream rest h ih =>
      rw [pieces_append_newline h, decode_append_newline,
        Text.lines_append_newline (not_mem_decode h), List.map_cons, List.map_cons, ih,
        (lineText_of_not_mem h).2]

theorem not_mem_of_mem_wholeLines {stream : Bytes} :
    ∀ line ∈ wholeLines stream, '\n' ∉ line := by
  intro line member
  obtain ⟨piece, decoded, rfl⟩ := List.mem_map.1 member
  intro shown
  exact Text.not_mem_of_mem_lines _ piece decoded ((Text.prefix_withoutReturns piece).subset shown)

/-- Lines without newlines are read back from the text that joins them. -/
theorem lines_joined {told : List Text} (h : ∀ line ∈ told, '\n' ∉ line) :
    Text.lines (joined told) = told := by
  induction told with
  | nil => rfl
  | cons line rest ih =>
      obtain ⟨here, later⟩ := List.forall_mem_cons.1 h
      have step : joined (line :: rest) = line ++ '\n' :: joined rest := by
        simp [joined, Text.line]
      rw [step, Text.lines_append_newline here, ih later]

theorem wholeLines_encode_captured (stream : Bytes) :
    wholeLines (Text.encode (captured stream)) = wholeLines stream := by
  have stripped : (wholeLines stream).map Text.withoutReturns = wholeLines stream := by
    rw [wholeLines, List.map_map]
    exact List.map_congr_left fun line _ => Text.withoutReturns_withoutReturns line
  rw [wholeLines, Text.decode_encode, captured, lines_eq_wholeLines,
    lines_joined not_mem_of_mem_wholeLines, stripped]

end Drain

/-- Draining a stream normalises the lines of the stream as a whole: what is kept is each of them
with one newline, what is told of a process is each of them in order, and what has been kept is kept
as it is if it is drained once more. -/
theorem captured_normalises :
    (∀ stream, Drain.captured stream =
      (Drain.wholeLines stream).flatMap fun line => line ++ ['\n']) ∧
    (∀ c : Child, Event.account c.pid (State.lineEvents c) =
      { output := if c.piped then [] else Drain.wholeLines (c.stream .output)
        error := Drain.wholeLines (c.stream .error) }) ∧
    ∀ stream, Drain.captured (Text.encode (Drain.captured stream)) = Drain.captured stream := by
  have captured (stream : Bytes) :
      Drain.captured stream = Drain.joined (Drain.wholeLines stream) := by
    rw [Drain.captured, Drain.lines_eq_wholeLines]
  refine ⟨captured, fun c => ?_, fun stream => ?_⟩
  · rw [State.lineEvents, Drain.lines_eq_wholeLines, Drain.lines_eq_wholeLines]
    cases c.piped <;> simp [Event.account, List.filterMap_append, List.filterMap_map]
  · rw [captured, Drain.wholeLines_encode_captured, ← captured]

/-- A character that a newline cuts off, carriage returns, an empty line and a last line without a
newline. -/
example : Drain.captured [0x61, 0x0D, 0x0D, 0x0A, 0xE2, 0x82, 0x0A, 0x0A, 0x0D, 0x62] =
    "a\n\uFFFD\n\n\rb\n".toList := by decide

end CommandShell
