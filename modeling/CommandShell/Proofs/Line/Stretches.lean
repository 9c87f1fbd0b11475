import CommandShell.Proofs.Line.Cut
import Mathlib.Data.List.TakeWhile

/-!
The commands of a line, read off its cut. A stretch is what stands between two pipes: each makes
one command, only a blank one at the end makes none, and the commands from any stretch on are those
of its text alone, although a line is cut only once and that text would be cut anew.
-/
namespace CommandShell.Line

def Part.isPipe (p : Part) : Bool := p.op == .pipe

def Part.isInput (p : Part) : Bool := p.op == .input

def Part.isOutput (p : Part) : Bool := p.op == .output || p.op == .append

/-- The target that a redirection names, if the text after it is not blank. -/
def Part.target? (value? : Text → Option Text) (p : Part) : Option Text :=
  if Text.allBlank p.after then none else some (expand value? (Text.trim p.after))

def Part.isNamed (p : Part) : Bool := !Text.allBlank p.after

/-- A stretch of a line between two pipes: the text before its first redirection, its
redirections, and the line from its start on. -/
structure Stretch where
  plain : Text
  redirections : List Part
  rest : Text

/-- What a stretch says of its command. -/
structure Stretch.Describes (value? : Text → Option Text) (x : Stretch) (c : Command) : Prop where
  raw : c.raw = x.rest
  name : c.name = (words (expand value? x.plain)).headD []
  arguments : c.arguments = (words (expand value? x.plain)).tail
  input : c.redirects.input = (x.redirections.filter Part.isInput).getLast?.bind (·.target? value?)
  output :
    c.redirects.output = (x.redirections.filter Part.isOutput).getLast?.bind (·.target? value?)
  append :
    c.redirects.append = (x.redirections.filter Part.isOutput).getLast?.any (·.op == .append)

/-- The stretches after each pipe among some operators. -/
def laterStretches : List Part → List Stretch
  | [] => []
  | p :: rest =>
    if p.isPipe then
      ⟨p.after, rest.takeWhile (!·.isPipe), Cut.spelled p.after rest⟩ :: laterStretches rest
    else laterStretches rest

def stretches (first : Text) (parts : List Part) : List Stretch :=
  ⟨first, parts.takeWhile (!·.isPipe), Cut.spelled first parts⟩ :: laterStretches parts

/-- The stretches that make a command. -/
def chain : List Stretch → List Stretch
  | [] => []
  | [x] => if Text.allBlank x.rest then [] else [x]
  | x :: y :: later => x :: chain (y :: later)

def Cut.stretches (cut : Cut) : List Stretch := Line.stretches cut.first cut.parts

/-- The stretch that a line begins with. -/
def Cut.head (cut : Cut) : Stretch :=
  ⟨cut.first, cut.parts.takeWhile (!·.isPipe), Cut.spelled cut.first cut.parts⟩

def Cut.pipes (cut : Cut) : Nat := cut.parts.countP Part.isPipe

theorem length_laterStretches (parts : List Part) :
    (laterStretches parts).length = parts.countP Part.isPipe := by
  induction parts with
  | nil => rfl
  | cons p rest ih => cases h : p.isPipe <;> simp [laterStretches, h, ih]

theorem chain_cons {x : Stretch} (h : Text.allBlank x.rest = false) (later : List Stretch) :
    chain (x :: later) = x :: chain later := by
  cases later <;> simp [chain, h]

theorem prefix_chain (xs : List Stretch) : chain xs <+: xs := by
  fun_induction chain xs with
  | case1 => exact List.prefix_rfl
  | case2 x => exact List.nil_prefix
  | case3 x => exact List.prefix_rfl
  | case4 x y later ih => exact (List.prefix_cons_inj x).2 ih

theorem length_chain (xs : List Stretch) :
    (chain xs).length =
      if xs.getLast?.any (Text.allBlank ·.rest) then xs.length - 1 else xs.length := by
  fun_induction chain xs with
  | case1 => rfl
  | case2 x h => simp [h]
  | case3 x h => simp [h]
  | case4 x y later ih =>
      rw [List.length_cons, ih, List.getLast?_cons_cons]
      split <;> simp

theorem drop_chain_cons (x : Stretch) (later : List Stretch) (k : Nat) :
    (chain (x :: later)).drop (k + 1) = (chain later).drop k := by
  cases later with
  | nil => cases h : Text.allBlank x.rest <;> simp [chain, h]
  | cons y later => rfl

theorem target?_nil (value? : Text → Option Text) (op : Operator) (spelling : Text) :
    Part.target? value? ⟨op, spelling, []⟩ = none := rfl

theorem isSome_bind_target? (value? : Text → Option Text) (last : Option Part) :
    (last.bind (·.target? value?)).isSome = last.any Part.isNamed := by
  cases last with
  | none => rfl
  | some p => cases blank : Text.allBlank p.after <;> simp [Part.target?, Part.isNamed, blank]

section
variable (value? : Text → Option Text)

/-- The redirects that some operators set one after the other. -/
def redirectsOf (r : Redirects) (parts : List Part) : Redirects :=
  parts.foldl (fun r p => r.set p.op (p.target? value?)) r

theorem redirectsOf_concat (r : Redirects) (parts : List Part) (p : Part) :
    redirectsOf value? r (parts ++ [p]) =
      (redirectsOf value? r parts).set p.op (p.target? value?) := by
  simp [redirectsOf]

theorem read_segments (r : Redirects) (first : Text) (parts : List Part) :
    Redirects.read value? r (Cut.segments first parts) = redirectsOf value? r parts := by
  have text (t : Text) (r : Redirects) (segments : List Segment) :
      Redirects.read value? r (textSegments t ++ segments) = Redirects.read value? r segments := by
    cases t <;> rfl
  induction parts generalizing r first with
  | nil => cases first <;> rfl
  | cons p rest ih =>
      obtain ⟨op, spelling, after⟩ := p
      rw [Cut.segments, text, redirectsOf, List.foldl_cons, ← redirectsOf]
      cases after with
      | nil =>
          rw [target?_nil, ← ih (r.set op none) []]
          cases rest <;> rfl
      | cons c after =>
          rw [← ih _ (c :: after)]
          cases rest <;> rfl

/-- Of several redirections of one direction the last one counts. -/
theorem redirectsOf_last (parts : List Part) (h : ∀ p ∈ parts, p.isPipe = false) :
    let r := redirectsOf value? {} parts
    r.input = (parts.filter Part.isInput).getLast?.bind (·.target? value?) ∧
      r.output = (parts.filter Part.isOutput).getLast?.bind (·.target? value?) ∧
      r.append = (parts.filter Part.isOutput).getLast?.any (·.op == .append) := by
  induction parts using List.reverseRecOn with
  | nil => exact ⟨rfl, rfl, rfl⟩
  | append_singleton parts p ih =>
      have here := h p (by simp)
      obtain ⟨input, output, append⟩ := ih fun q hq => h q (List.mem_append_left _ hq)
      rw [redirectsOf_concat, List.filter_append, List.filter_append]
      obtain ⟨op, spelling, after⟩ := p
      cases op with
      | pipe => cases here
      | input =>
          refine ⟨by simp [Redirects.set, Part.isInput], ?_, ?_⟩
          · simpa [Redirects.set, Part.isOutput] using output
          · simpa [Redirects.set, Part.isOutput] using append
      | output | append =>
          refine ⟨?_, ?_, ?_⟩
          · simpa [Redirects.set, Part.isInput] using input
          · simp [Redirects.set, Part.isOutput]
          · simp [Redirects.set, Part.isOutput]

theorem plainText_segments (first : Text) (parts : List Part) :
    plainText (Cut.segments first parts) = first := by
  cases parts <;> cases first <;> simp [Cut.segments, textSegments, plainText]

/-- The command that a stretch makes. -/
def Stretch.command (x : Stretch) : Command :=
  Command.ofSegments value? x.rest (Cut.segments x.plain x.redirections)

theorem Stretch.describes_command {x : Stretch} (h : ∀ p ∈ x.redirections, p.isPipe = false) :
    x.Describes value? (x.command value?) := by
  obtain ⟨input, output, append⟩ := redirectsOf_last value? x.redirections h
  have read := read_segments value? {} x.plain x.redirections
  constructor
  · rfl
  · simp [Stretch.command, Command.ofSegments, plainText_segments]
  · simp [Stretch.command, Command.ofSegments, plainText_segments]
  · rw [Stretch.command, Command.ofSegments, read, input]
  · rw [Stretch.command, Command.ofSegments, read, output]
  · rw [Stretch.command, Command.ofSegments, read, append]

theorem outline_textSegments_append (t : Text) (rest : List Segment) :
    outline value? (textSegments t ++ rest) =
      ⟨textSegments t ++ (outline value? rest).first, t ++ (outline value? rest).raw,
        (outline value? rest).later⟩ := by
  cases t <;> rfl

theorem first_outline (first : Text) (parts : List Part) :
    (outline value? (Cut.segments first parts)).first =
      Cut.segments first (parts.takeWhile (!·.isPipe)) := by
  induction parts generalizing first with
  | nil => cases first <;> rfl
  | cons p rest ih =>
      rw [Cut.segments, outline_textSegments_append]
      obtain ⟨op, spelling, after⟩ := p
      cases op with
      | pipe => simp [outline, Part.isPipe, Cut.segments]
      | input | output | append => simp [outline, Part.isPipe, Cut.segments, ih]

end

/-- A line with an operator is not blank. -/
theorem not_allBlank_spelled {s : Scan} {first : Text} {p : Part} {rest : List Part}
    (h : Cut.Sound s first (p :: rest)) :
    Text.allBlank (Cut.spelled first (p :: rest)) = false := by
  obtain ⟨-, -, spelled, -⟩ := h
  obtain ⟨c, sign, more, hc, spelling⟩ := spelled.exists_cons
  simp [Cut.spelled, spelling, Text.allBlank, not_isBlank_of_ofChar? hc]

theorem not_allBlank_of_laterStretches {s : Scan} {first : Text} {parts : List Part}
    (h : Cut.Sound s first parts) {x y : Stretch} {more : List Stretch}
    (later : laterStretches parts = x :: y :: more) : Text.allBlank x.rest = false := by
  induction parts generalizing s first with
  | nil => cases later
  | cons p rest ih =>
      obtain ⟨-, -, -, -, sound⟩ := h
      cases pipe : p.isPipe with
      | false =>
          rw [laterStretches, pipe] at later
          exact ih sound later
      | true =>
          rw [laterStretches, pipe, if_pos rfl, List.cons.injEq] at later
          obtain ⟨rfl, behind⟩ := later
          cases rest with
          | nil => cases behind
          | cons q rest => exact not_allBlank_spelled sound

/-- No command comes after the first one exactly if there are only blanks behind each pipe. -/
theorem chain_laterStretches_eq_nil_iff {s : Scan} {first : Text} {parts : List Part}
    (h : Cut.Sound s first parts) :
    chain (laterStretches parts) = [] ↔
      ∀ x ∈ laterStretches parts, Text.allBlank x.rest = true := by
  cases later : laterStretches parts with
  | nil => simp [chain]
  | cons x more =>
      cases more with
      | nil => simp [chain]
      | cons y more =>
          have shown := not_allBlank_of_laterStretches h later
          simp [chain, shown]

section
variable (value? : Text → Option Text)

theorem commands_of_later {s : Scan} {first : Text} {parts : List Part}
    (h : Cut.Sound s first parts)
    (later : (outline value? (Cut.segments first parts)).later =
      (chain (laterStretches parts)).map (Stretch.command value?)) :
    (outline value? (Cut.segments first parts)).commands value? =
      (chain (stretches first parts)).map (Stretch.command value?) := by
  rw [Outline.commands, raw_outline, Cut.spelledAll_segments h, first_outline, later]
  cases blank : Text.allBlank (Cut.spelled first parts) with
  | false => rw [stretches, chain_cons blank]; rfl
  | true =>
      cases parts with
      | nil => simp [stretches, laterStretches, chain, blank]
      | cons p rest => rw [not_allBlank_spelled h] at blank; cases blank

theorem later_outline {s : Scan} {first : Text} {parts : List Part}
    (h : Cut.Sound s first parts) :
    (outline value? (Cut.segments first parts)).later =
      (chain (laterStretches parts)).map (Stretch.command value?) := by
  induction parts generalizing s first with
  | nil => cases first <;> rfl
  | cons p rest ih =>
      obtain ⟨-, -, -, -, sound⟩ := h
      have later := ih sound
      rw [Cut.segments, outline_textSegments_append]
      cases pipe : p.isPipe with
      | true =>
          -- What follows a pipe is read as a line of its own, blank or not.
          have commands := commands_of_later value? sound later
          obtain ⟨op, spelling, after⟩ := p
          obtain rfl : op = .pipe := by simpa [Part.isPipe] using pipe
          simpa [outline, laterStretches, stretches, pipe] using commands
      | false =>
          obtain ⟨op, spelling, after⟩ := p
          cases op with
          | pipe => cases pipe
          | input | output | append => simpa [outline, laterStretches, pipe] using later

/-- Reading a line makes the commands of the stretches of its cut. -/
theorem parse_eq_chain {line : Text} {cut : Cut} (h : cut.Of line) :
    parse value? line = (chain cut.stretches).map (Stretch.command value?) := by
  have segments : segments line = Cut.segments cut.first cut.parts := by
    rw [← h.spelled, Line.segments, Cut.segmentsFrom_spelled h.sound]
  rw [parse, segments, commands_of_later value? h.sound (later_outline value? h.sound)]
  rfl

/-- The first command of a line is that of its first stretch. -/
theorem parse_eq_cons {line : Text} {cut : Cut} (h : cut.Of line)
    (shown : Text.allBlank line = false) :
    parse value? line = cut.head.command value? ::
      (chain (laterStretches cut.parts)).map (Stretch.command value?) := by
  have start : Text.allBlank cut.head.rest = false := by rwa [Cut.head, h.spelled]
  rw [parse_eq_chain value? h, Cut.stretches, stretches]
  exact congrArg _ (chain_cons start _)

theorem Cut.describes_head (cut : Cut) :
    cut.head.Describes value? (cut.head.command value?) :=
  Stretch.describes_command value? fun p hp => by simpa using List.mem_takeWhile_imp hp

theorem parse_spelled {s : Scan} (hs : s.Outside) {first : Text} {parts : List Part}
    (h : Cut.Sound s first parts) :
    parse value? (Cut.spelled first parts) =
      (chain (stretches first parts)).map (Stretch.command value?) := by
  have fresh := h.of_outside hs Scan.outside_start
  have cut : Cut.Of ⟨first, parts⟩ (Cut.spelled first parts) := ⟨rfl, fresh⟩
  exact parse_eq_chain value? cut

/-- The text of a stretch is read as the stretches from there on, although it is cut afresh. -/
theorem parse_rest {s : Scan} (hs : s.Outside) {first : Text} {parts : List Part}
    (h : Cut.Sound s first parts) {k : Nat} {x : Stretch}
    (found : (stretches first parts)[k]? = some x) :
    parse value? x.rest =
      ((chain (stretches first parts)).drop k).map (Stretch.command value?) := by
  induction parts generalizing s first k with
  | nil =>
      cases k with
      | zero =>
          cases found
          exact parse_spelled value? hs h
      | succ k => cases found
  | cons p rest ih =>
      cases k with
      | zero =>
          cases found
          exact parse_spelled value? hs h
      | succ k =>
          obtain ⟨-, outside, spelling, -, sound⟩ := h
          have after := Scan.outside_readAll_spelled spelling outside
          have here : (laterStretches (p :: rest))[k]? = some x := by simpa [stretches] using found
          rw [stretches, drop_chain_cons]
          cases pipe : p.isPipe with
          | true =>
              have later : laterStretches (p :: rest) = stretches p.after rest := by
                simp [laterStretches, stretches, pipe]
              rw [later] at here ⊢
              exact ih after sound here
          | false =>
              -- The stretch goes on after a redirection, so what is found lies one step further.
              have later : laterStretches (p :: rest) = laterStretches rest := by
                simp [laterStretches, pipe]
              rw [later] at here ⊢
              rw [ih after sound (k := k + 1) (by simpa [stretches] using here), stretches,
                drop_chain_cons]

end

theorem suffix_spelled_after (first : Text) (p : Part) (rest : List Part) :
    Cut.spelled p.after rest <:+ Cut.spelled first (p :: rest) :=
  ⟨first ++ p.spelling, by simp [Cut.spelled]⟩

theorem laterStretches_subset (p : Part) (rest : List Part) :
    laterStretches (p :: rest) ⊆ stretches p.after rest := by
  cases pipe : p.isPipe <;> simp [laterStretches, stretches, pipe]

theorem suffix_of_mem_stretches {first : Text} {parts : List Part} {x : Stretch}
    (h : x ∈ stretches first parts) : x.rest <:+ Cut.spelled first parts := by
  induction parts generalizing first with
  | nil =>
      obtain rfl := List.mem_singleton.1 h
      exact List.suffix_rfl
  | cons p rest ih =>
      rw [stretches, List.mem_cons] at h
      rcases h with rfl | later
      · exact List.suffix_rfl
      · exact (ih (laterStretches_subset p rest later)).trans (suffix_spelled_after first p rest)

theorem not_isPipe_of_mem_stretches {first : Text} {parts : List Part} {x : Stretch}
    (h : x ∈ stretches first parts) : ∀ p ∈ x.redirections, p.isPipe = false := by
  induction parts generalizing first with
  | nil =>
      obtain rfl := List.mem_singleton.1 h
      nofun
  | cons p rest ih =>
      rw [stretches, List.mem_cons] at h
      rcases h with rfl | later
      · intro q hq
        simpa using List.mem_takeWhile_imp hq
      · exact ih (laterStretches_subset p rest later)

/-- A line with `n` pipes has `n + 1` stretches and as many commands, or one less if the last
stretch is blank. The command at each place is that of its stretch, and the commands from there on
are those of its text read alone. -/
theorem parse_agrees_with_cut (value? : Text → Option Text) (line : Text) :
    (∃! cut : Cut, cut.Of line) ∧ ∀ cut : Cut, cut.Of line →
      cut.stretches.length = cut.pipes + 1 ∧
      (parse value? line).length =
        (if cut.stretches.getLast?.any (Text.allBlank ·.rest) then cut.pipes
          else cut.pipes + 1) ∧
      ∀ k command, (parse value? line)[k]? = some command →
        (∃ x, cut.stretches[k]? = some x ∧ x.rest <:+ line ∧ x.Describes value? command) ∧
          parse value? command.raw = (parse value? line).drop k := by
  refine ⟨Cut.existsUnique_of line, fun cut h => ?_⟩
  have parsed := parse_eq_chain value? h
  have pieces : cut.stretches.length = cut.pipes + 1 := by
    rw [Cut.stretches, stretches, List.length_cons, length_laterStretches, Cut.pipes]
  refine ⟨pieces, ?_, ?_⟩
  · rw [parsed, List.length_map, length_chain, pieces]
    rfl
  · intro k command found
    rw [parsed, List.getElem?_map, Option.map_eq_some_iff] at found
    obtain ⟨x, place, rfl⟩ := found
    have place : cut.stretches[k]? = some x := by
      obtain ⟨dropped, whole⟩ := prefix_chain cut.stretches
      rw [← whole, List.getElem?_append_left (List.getElem?_eq_some_iff.1 place).1, place]
    have member := List.mem_of_getElem? place
    refine ⟨⟨x, place, h.spelled ▸ suffix_of_mem_stretches member, ?_⟩, ?_⟩
    · exact x.describes_command value? (not_isPipe_of_mem_stretches member)
    · rw [parsed, ← List.map_drop]
      exact parse_rest value? Scan.outside_start h.sound place

theorem parse_agrees_with_cut_crowded :
    let value? : Text → Option Text := fun _ => some "o p".toList
    let line := "echo \"a|b\" $A> x>>$F | |sort<in||".toList
    let cut : Cut := ⟨"echo \"a|b\" $A".toList,
      [⟨.output, ['>'], " x".toList⟩, ⟨.append, ['>', '>'], "$F ".toList⟩, ⟨.pipe, ['|'], [' ']⟩,
        ⟨.pipe, ['|'], "sort".toList⟩, ⟨.input, ['<'], "in".toList⟩, ⟨.pipe, ['|', '|'], []⟩]⟩
    cut.Of line ∧ cut.stretches.length = 4 ∧ (parse value? line).length = 3 ∧
      (parse value? line).map Command.arguments = [["\"a|b\"".toList, ['o'], ['p']], [], []] ∧
      parse value? " |sort<in||".toList = (parse value? line).drop 1 := by
  intro value? line cut
  have of : cut.Of line := by
    have same : Cut.ofSegments (segments line) = cut := by decide
    exact same ▸ Cut.of_ofSegments line
  obtain ⟨pieces, length, commands⟩ := (parse_agrees_with_cut value? line).2 cut of
  obtain ⟨-, later⟩ := commands 1 ⟨" |sort<in||".toList, [], [], {}⟩ (by decide)
  exact ⟨of, pieces, length.trans (by decide), by decide, later⟩

end CommandShell.Line
