import CommandShell.Proofs.Line.FirstCommand

/-!
The cut of a line at its unquoted operators, said of the quote scan of the whole line and not of
the way the line is read. Every line has exactly one cut, its segments are the pieces of the cut
that are not empty, and what follows an operator is cut as if it were a line of its own.
-/
namespace CommandShell.Line

def isOperatorChar (c : Char) : Bool := (Operator.ofChar? c).isSome

/-- How an operator is written: with its character, or with the same one twice. -/
inductive Operator.Spelled : Operator → Text → Prop
  | once {c : Char} {op : Operator} (h : ofChar? c = some op) : Spelled op [c]
  | twice {c : Char} {op : Operator} (h : ofChar? c = some op) : Spelled op.doubled [c, c]

/-- An operator of a line with the text up to the next one. -/
structure Part where
  op : Operator
  spelling : Text
  after : Text
deriving DecidableEq, Repr

/-- The text before the first operator of a line, and the operators in order. -/
structure Cut where
  first : Text
  parts : List Part
deriving DecidableEq, Repr

namespace Cut

/-- The line that a cut comes from. -/
def spelled (first : Text) : List Part → Text
  | [] => first
  | p :: rest => first ++ (p.spelling ++ spelled p.after rest)

/-- Every operator of the cut stands outside quotes where the scan starts at `s`, every operator
character in between stands inside, and no operator could have been read as a longer one. -/
def Sound (s : Scan) (first : Text) : List Part → Prop
  | [] => s.Guards isOperatorChar first
  | p :: rest =>
    s.Guards isOperatorChar first ∧ (s.readAll first).inside = false ∧ p.op.Spelled p.spelling ∧
      (∀ c, p.spelling = [c] → (spelled p.after rest).head? ≠ some c) ∧
      Sound ((s.readAll first).readAll p.spelling) p.after rest

/-- Whether a cut is that of a line. -/
structure Of (cut : Cut) (line : Text) : Prop where
  spelled : Cut.spelled cut.first cut.parts = line
  sound : Sound {} cut.first cut.parts

end Cut

theorem Operator.Spelled.exists_cons {op : Operator} {spelling : Text} (h : op.Spelled spelling) :
    ∃ c sign more, ofChar? c = some sign ∧ spelling = c :: more := by
  cases h with
  | once hc => exact ⟨_, _, [], hc, rfl⟩
  | twice hc => exact ⟨_, _, [_], hc, rfl⟩

theorem Operator.Spelled.ne_nil {op : Operator} {spelling : Text} (h : op.Spelled spelling) :
    spelling ≠ [] := by
  obtain ⟨c, sign, more, -, rfl⟩ := h.exists_cons
  nofun

theorem not_isQuote_of_ofChar? {c : Char} {op : Operator} (h : Operator.ofChar? c = some op) :
    isQuote c = false := by
  refine Bool.eq_false_iff.2 fun q => ?_
  rw [isQuote, Bool.or_eq_true, beq_iff_eq, beq_iff_eq] at q
  rcases q with rfl | rfl <;> cases h

theorem ne_backslash_of_ofChar? {c : Char} {op : Operator} (h : Operator.ofChar? c = some op) :
    c ≠ '\\' := by
  rintro rfl
  cases h

theorem not_isBlank_of_ofChar? {c : Char} {op : Operator} (h : Operator.ofChar? c = some op) :
    Text.isBlank c = false := by
  refine Bool.eq_false_iff.2 fun blank => ?_
  unfold Operator.ofChar? at h
  split_ifs at h <;> subst c <;> cases blank

namespace Scan

theorem Outside.inside {s : Scan} (h : s.Outside) : s.inside = false := by
  simp [Scan.inside, h.opened]

/-- Two scans outside of all spans are the same after one character. -/
theorem Outside.read_eq {s u : Scan} (hs : s.Outside) (hu : u.Outside) (c : Char) :
    s.read c = u.read c := by
  have escape : (s.last != some '\\') = (u.last != some '\\') := by
    rw [bne_iff_ne.2 hs.last, bne_iff_ne.2 hu.last]
  simp only [Scan.read, Scan.toggles, hs.opened, hu.opened, escape]

theorem Outside.guards_iff {s u : Scan} (hs : s.Outside) (hu : u.Outside) (p : Char → Bool)
    (t : Text) : s.Guards p t ↔ u.Guards p t := by
  cases t with
  | nil => exact Iff.rfl
  | cons c t => simp only [Guards, hs.inside, hu.inside, hs.read_eq hu]

/-- An operator leaves the scan where nothing before it is remembered. -/
theorem outside_readAll_spelled {op : Operator} {spelling : Text} (h : op.Spelled spelling)
    {s : Scan} (outside : s.inside = false) : (s.readAll spelling).Outside := by
  have opened : s.opened = none := by simpa [Scan.inside] using outside
  cases h with
  | once hc =>
      rw [readAll_cons, read_other (not_isQuote_of_ofChar? hc)]
      exact ⟨opened, fun same => ne_backslash_of_ofChar? hc (Option.some.inj same)⟩
  | twice hc =>
      have q := not_isQuote_of_ofChar? hc
      rw [readAll_cons, readAll_cons, read_other q, read_other q]
      exact ⟨opened, fun same => ne_backslash_of_ofChar? hc (Option.some.inj same)⟩

end Scan

theorem segmentsFrom_cons_of_inside {s : Scan} {c : Char}
    (h : isOperatorChar c = true → s.inside = true) (rest : Text) :
    segmentsFrom s (c :: rest) = Segment.consChar c (segmentsFrom (s.read c) rest) := by
  cases op : Operator.ofChar? c with
  | none => exact segmentsFrom_cons op s rest
  | some o =>
      have inside := h (by simp [isOperatorChar, op])
      cases rest with
      | nil => simp [segmentsFrom, op, inside, Segment.consChar]
      | cons d rest => simp [segmentsFrom, op, inside]

/-- An operator that is not read as a longer one is a segment of its own. -/
theorem segmentsFrom_spelled {op : Operator} {spelling : Text} (h : op.Spelled spelling)
    {s : Scan} (outside : s.inside = false) {rest : Text}
    (longest : ∀ c, spelling = [c] → rest.head? ≠ some c) :
    segmentsFrom s (spelling ++ rest) =
      .operator op spelling :: segmentsFrom (s.readAll spelling) rest := by
  cases h with
  | once hc =>
      cases rest with
      | nil => simp [segmentsFrom, hc, outside]
      | cons d rest =>
          have other : d ≠ _ := fun same => longest _ rfl (congrArg some same)
          simp [segmentsFrom, hc, outside, other, Scan.readAll]
  | twice hc =>
      have q := not_isQuote_of_ofChar? hc
      simp [segmentsFrom, hc, outside, Scan.readAll, Scan.read_other q]

/-- A text as segments, of which there are none if it is empty. -/
def textSegments : Text → List Segment
  | [] => []
  | c :: t => [.text (c :: t)]

/-- A text without unquoted operators goes before the segments of what follows it, if that begins
with an operator. -/
theorem segmentsFrom_append_of_guards {s : Scan} {t u : Text} (h : s.Guards isOperatorChar t)
    (hu : ∀ content rest, segmentsFrom (s.readAll t) u ≠ .text content :: rest) :
    segmentsFrom s (t ++ u) = textSegments t ++ segmentsFrom (s.readAll t) u := by
  induction t generalizing s with
  | nil => rfl
  | cons c t ih =>
      rw [List.cons_append, segmentsFrom_cons_of_inside h.1, ih h.2 hu, Scan.readAll_cons]
      cases t with
      | cons d t => rfl
      | nil =>
          -- The last character must not join a text that follows.
          cases later : segmentsFrom (s.readAll [c]) u with
          | nil => simp [textSegments, Segment.consChar, ← Scan.readAll_cons, later]
          | cons segment rest =>
              cases segment with
              | text content => exact absurd later (hu content rest)
              | operator op spelling =>
                  rw [Scan.readAll_cons] at later
                  simp [textSegments, Segment.consChar, later]

namespace Cut

/-- The segments of a line with some cut. -/
def segments (first : Text) : List Part → List Segment
  | [] => textSegments first
  | p :: rest => textSegments first ++ .operator p.op p.spelling :: segments p.after rest

theorem segmentsFrom_spelled {s : Scan} {first : Text} {parts : List Part}
    (h : Sound s first parts) : segmentsFrom s (spelled first parts) = segments first parts := by
  induction parts generalizing s first with
  | nil =>
      have whole := segmentsFrom_append_of_guards (u := []) h (by simp [segmentsFrom])
      simpa [segmentsFrom, spelled, segments] using whole
  | cons p rest ih =>
      obtain ⟨guarded, outside, spelling, longest, later⟩ := h
      have operator := Line.segmentsFrom_spelled spelling outside longest
      rw [spelled, segmentsFrom_append_of_guards guarded (by simp [operator]), operator, ih later]
      rfl

theorem spelledAll_segments {s : Scan} {first : Text} {parts : List Part}
    (h : Sound s first parts) :
    Segment.spelledAll (segments first parts) = spelled first parts := by
  rw [← segmentsFrom_spelled h, spelledAll_segmentsFrom]

/-- The cut with some segments. -/
def ofSegments : List Segment → Cut
  | [] => ⟨[], []⟩
  | .text content :: rest => ⟨content ++ (ofSegments rest).first, (ofSegments rest).parts⟩
  | .operator op spelling :: rest =>
    ⟨[], ⟨op, spelling, (ofSegments rest).first⟩ :: (ofSegments rest).parts⟩

theorem ofSegments_textSegments_append (t : Text) (rest : List Segment) :
    ofSegments (textSegments t ++ rest) =
      ⟨t ++ (ofSegments rest).first, (ofSegments rest).parts⟩ := by
  cases t <;> rfl

theorem ofSegments_segments (first : Text) (parts : List Part) :
    ofSegments (segments first parts) = ⟨first, parts⟩ := by
  induction parts generalizing first with
  | nil => cases first <;> simp [segments, textSegments, ofSegments]
  | cons p rest ih => rw [segments, ofSegments_textSegments_append, ofSegments, ih, List.append_nil]

theorem spelled_cons {c : Char} {line first : Text} {parts : List Part}
    (h : spelled first parts = line) : spelled (c :: first) parts = c :: line := by
  cases parts <;> simpa [spelled] using h

theorem sound_cons {s : Scan} {c : Char} (h : isOperatorChar c = true → s.inside = true)
    {first : Text} {parts : List Part} (sound : Sound (s.read c) first parts) :
    Sound s (c :: first) parts := by
  cases parts with
  | nil => exact ⟨h, sound⟩
  | cons p rest => exact ⟨⟨h, sound.1⟩, sound.2⟩

theorem exists_sound (s : Scan) (line : Text) :
    ∃ first parts, spelled first parts = line ∧ Sound s first parts := by
  -- A character that stands for itself goes to the front of the cut of the rest, and an operator
  -- starts a part whose text is the front of that cut.
  fun_induction segmentsFrom s line with
  | case1 s => exact ⟨[], [], rfl, trivial⟩
  | case2 s c op hc inside => exact ⟨[c], [], rfl, fun _ => inside, trivial⟩
  | case3 s c op hc outside =>
      refine ⟨[], [⟨op, [c], []⟩], rfl, trivial, ?_, .once hc, ?_, trivial⟩
      · simpa [Scan.readAll] using outside
      · simp [spelled]
  | case4 s c hc => exact ⟨[c], [], rfl, by simp [isOperatorChar, hc], trivial⟩
  | case5 s c d rest op hc inside ih =>
      obtain ⟨first, parts, same, sound⟩ := ih
      exact ⟨c :: first, parts, spelled_cons same, sound_cons (fun _ => inside) sound⟩
  | case6 s c rest op outside hc ih =>
      obtain ⟨first, parts, same, sound⟩ := ih
      refine ⟨[], ⟨op.doubled, [c, c], first⟩ :: parts, by simp [spelled, same], trivial, ?_,
        .twice hc, by simp, ?_⟩
      · simpa [Scan.readAll] using outside
      · have q := not_isQuote_of_ofChar? hc
        simpa [Scan.readAll, Scan.read_other q] using sound
  | case7 s c d rest op hc outside other ih =>
      obtain ⟨first, parts, same, sound⟩ := ih
      refine ⟨[], ⟨op, [c], first⟩ :: parts, by simp [spelled, same], trivial, ?_, .once hc, ?_,
        sound⟩
      · simpa [Scan.readAll] using outside
      · intro e he
        simpa [same, List.cons.inj he] using other
  | case8 s c d rest hc ih =>
      obtain ⟨first, parts, same, sound⟩ := ih
      exact ⟨c :: first, parts, spelled_cons same,
        sound_cons (by simp [isOperatorChar, hc]) sound⟩

theorem eq_ofSegments {cut : Cut} {line : Text} (h : cut.Of line) :
    cut = ofSegments (Line.segments line) := by
  have read := segmentsFrom_spelled h.sound
  rw [h.spelled] at read
  rw [Line.segments, read, ofSegments_segments]

theorem of_ofSegments (line : Text) : (ofSegments (Line.segments line)).Of line := by
  obtain ⟨first, parts, spelled, sound⟩ := exists_sound {} line
  have cut : Cut.Of ⟨first, parts⟩ line := ⟨spelled, sound⟩
  rwa [← eq_ofSegments cut]

/-- Every line has exactly one cut. -/
theorem existsUnique_of (line : Text) : ∃! cut : Cut, cut.Of line :=
  ⟨_, of_ofSegments line, fun _ h => eq_ofSegments h⟩

/-- A cut does not depend on where the scan outside of quotes comes from. -/
theorem Sound.of_outside {s u : Scan} (hs : s.Outside) (hu : u.Outside) {first : Text}
    {parts : List Part} (h : Sound s first parts) : Sound u first parts := by
  cases parts with
  | nil => exact (hs.guards_iff hu _ _).1 h
  | cons p rest =>
      obtain ⟨guarded, outside, spelling, longest, later⟩ := h
      refine ⟨(hs.guards_iff hu _ _).1 guarded, ?_, spelling, longest, ?_⟩
      · cases first with
        | nil => exact hu.inside
        | cons c first => rwa [Scan.readAll_cons, ← hs.read_eq hu]
      · have same :
            (s.readAll first).readAll p.spelling = (u.readAll first).readAll p.spelling := by
          rw [← Scan.readAll_append, ← Scan.readAll_append]
          have nonempty : first ++ p.spelling ≠ [] := by simp [spelling.ne_nil]
          obtain ⟨c, t, whole⟩ := List.exists_cons_of_ne_nil nonempty
          rw [whole, Scan.readAll_cons, Scan.readAll_cons, hs.read_eq hu]
        rwa [← same]

end Cut
end CommandShell.Line
