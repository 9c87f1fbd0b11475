import CommandShell.Builtin.File
import CommandShell.Machine.Standard
import CommandShell.Proofs.Files.Written

/-!
What a copy leaves behind. The target is emptied before the source is read, so the target gets the
bytes that the source had unless both paths lead to one file, by whatever names and links: then its
bytes are lost. Nothing else changes but the directory of a target that is new.
-/
namespace CommandShell

namespace Files

/-- Files that differ in the node `id` alone, and in the one directory that names it if it is
new. -/
inductive DifferAt (f g : Files) (id : FileId) : Prop
  | old (same : ∀ other, other ≠ id → g.nodes[other]? = f.nodes[other]?)
  | new (fresh : id = f.nodes.length) (holder : FileId) (entries : List (Text × FileId))
      (name : Text) (before : f.entries? holder = some entries)
      (after : g.entries? holder = some (entries ++ [(name, id)]))
      (same : ∀ other, other ≠ id → other ≠ holder → g.nodes[other]? = f.nodes[other]?)

/-- What a copy comes to: it changes nothing but the file that its target leads to, which gets the
bytes of the source unless it is the source, and is then empty. The device that keeps nothing stays
as it is. -/
structure Copied (f g : Files) (source target : Text) (origin : FileId) (bytes : Bytes)
    (place : Place) : Prop where
  found : f.fileAt? source = some origin
  held : f.bytes? origin = some bytes
  reached : g.locate true target = .ok place
  differ : DifferAt f g place.id
  void : f.contentAt target = .ok .void → g = f
  regular : f.contentAt target ≠ .ok .void →
    g.contentAt target = .ok (.file (if f.fileAt? target = some origin then [] else bytes))

theorem SameWays.trans {f g h : Files} (first : SameWays f g) (second : SameWays g h) :
    SameWays f h where
  entries id := (second.entries id).trans (first.entries id)
  links id := (second.links id).trans (first.links id)

theorem getElem?_setMode_of_ne (f : Files) {id other : FileId} (ne : other ≠ id) (mode : Nat) :
    (f.setMode id mode).nodes[other]? = f.nodes[other]? := by
  simp [setMode, Ne.symm ne]

theorem getElem?_create_of_ne (f : Files) {directory other : FileId}
    {entries : List (Text × FileId)} (h : f.entries? directory = some entries)
    (old : other ≠ directory) (new : other ≠ f.nodes.length) (name : Text) (content : Content)
    (mode : Nat) :
    (f.create directory name content mode).nodes[other]? = f.nodes[other]? := by
  rw [create_eq f h]
  by_cases there : other < f.nodes.length
  · simp [setEntries, setContent, addNode, Ne.symm old, List.getElem?_append_left there]
  · have beyond : f.nodes.length + 1 ≤ other :=
      Nat.lt_of_le_of_ne (Nat.le_of_not_lt there) (Ne.symm new)
    have grown : ((f.addNode ⟨content, mode, f.now⟩).setEntries directory
        (entries ++ [(name, f.nodes.length)])).nodes.length = f.nodes.length + 1 := by
      simp [setEntries, setContent, addNode]
    rw [List.getElem?_eq_none (Nat.le_of_succ_le beyond)]
    exact List.getElem?_eq_none (grown ▸ beyond)

theorem content?_setMode (f : Files) (id other : FileId) (mode : Nat) :
    (f.setMode id mode).content? other = f.content? other := by
  simp only [content?, setMode, List.getElem?_modify]
  cases f.nodes[other]? with
  | none => rfl
  | some node => by_cases same : id = other <;> simp [same]

theorem sameWays_setMode (f : Files) (id : FileId) (mode : Nat) :
    SameWays f (f.setMode id mode) where
  entries other := by simp only [entries?, content?_setMode]
  links other := by simp only [linkTarget?, content?_setMode]

/-- What a copy does to the node `id` that it has opened: a regular file gets the permission bits of
`origin`, and its bytes. -/
def fill (f : Files) (origin id : FileId) (mode : Nat) : Except Stopped Files :=
  let f := if (f.bytes? id).isSome then f.setMode id mode else f
  f.append id ((f.bytes? origin).getD [])

theorem fill_of_dropped {f : Files} {id : FileId} (dropped : f.bytes? id = none) (origin : FileId)
    (mode : Nat) : f.fill origin id mode = .ok f := by
  rw [fill, dropped]
  exact append_of_dropped dropped _

theorem fill_eq_ok {f g : Files} {origin id : FileId} {mode : Nat}
    (emptied : f.content? id = some (.file [])) (h : f.fill origin id mode = .ok g) :
    Appended f g id [] ((f.bytes? origin).getD []) := by
  have held : (f.setMode id mode).bytes? id = some [] := by
    rw [bytes?_eq_some_iff, content?_setMode, emptied]
  have kept : (f.setMode id mode).bytes? origin = f.bytes? origin := by
    rw [bytes?, bytes?, content?_setMode]
  rw [fill, bytes?_eq_some_iff.2 emptied, Option.isSome_some, if_pos rfl, kept] at h
  obtain ⟨_, done, -, appended⟩ | ⟨_, _, stopped, -⟩ :=
    append_cases held ((f.bytes? origin).getD [])
  · rw [done] at h
    cases h
    exact ⟨appended.content,
      fun other ne => (appended.others other ne).trans (getElem?_setMode_of_ne f ne mode),
      (sameWays_setMode f id mode).trans appended.ways⟩
  · rw [stopped] at h
    cases h

theorem copy_eq_ok {f g : Files} {source target : Text} (h : f.copy source target = .ok g) :
    ∃ origin bytes opened id mode, f.fileAt? source = some origin ∧
      f.bytes? origin = some bytes ∧ f.openForWriting target false mode = .ok (opened, id) ∧
      opened.fill origin id mode = .ok g := by
  rw [copy] at h
  cases located : f.locate true source with
  | error cause =>
      rw [located] at h
      cases h
  | ok place =>
      rw [located] at h
      dsimp only at h
      split at h
      · next bytes mode modified node =>
        have there : f.bytes? place.id = some bytes := by simp [bytes?, content?, node]
        cases opened : f.openForWriting target false mode with
        | error cause =>
            rw [opened] at h
            cases h
        | ok answer =>
            rw [opened] at h
            exact ⟨place.id, bytes, answer.1, answer.2, mode, by simp [fileAt?, located, there],
              there, opened, h⟩
      · cases h

theorem fileAt?_of_found {f : Files} {path : Text} {place : Place} {bytes : Bytes}
    (found : f.walk true path = .ok (.found place))
    (there : f.content? place.id = some (.file bytes)) : f.fileAt? path = some place.id := by
  simp [fileAt?, locate, found, bytes?, there]

section
variable {f g : Files} {source target : Text} {origin : FileId} {bytes : Bytes} {mode : Nat}
  (found : f.fileAt? source = some origin) (held : f.bytes? origin = some bytes)
include found held

/-- The target of a copy is the device that keeps nothing. -/
theorem copied_of_void {place : Place} (walked : f.walk true target = .ok (.found place))
    (there : f.content? place.id = some .void) : Copied f f source target origin bytes place where
  found
  held
  reached := by simp [locate, walked]
  differ := .old fun _ _ => rfl
  void _ := rfl
  regular regular := absurd (contentAt_of_found walked there) regular

/-- The target of a copy is a file that is there already. One that is copied onto itself has lost
its bytes by the time they are read. -/
theorem copied_of_found {place : Place} {old : Bytes}
    (walked : f.walk true target = .ok (.found place))
    (there : f.content? place.id = some (.file old))
    (filled : (f.setBytes place.id []).fill origin place.id mode = .ok g) :
    Copied f g source target origin bytes place := by
  have emptied := content?_setBytes there []
  have appended := fill_eq_ok emptied filled
  have ways := (sameWays_setBytes f place.id []).trans appended.ways
  have reached := (ways.walk true target).trans walked
  have read : ((f.setBytes place.id []).bytes? origin).getD [] =
      if some place.id = some origin then [] else bytes := by
    by_cases same : place.id = origin
    · rw [if_pos (congrArg some same), ← same, bytes?_eq_some_iff.2 emptied]
      rfl
    · have kept : (f.setBytes place.id []).bytes? origin = some bytes := by
        rw [← held, bytes?, bytes?, content?, content?,
          getElem?_setBytes_of_ne f (Ne.symm same)]
      rw [if_neg fun eq => same (Option.some.inj eq), kept]
      rfl
  refine ⟨found, held, by simp [locate, reached], .old fun other ne => ?_, fun void => ?_,
    fun _ => ?_⟩
  · rw [appended.others other ne, getElem?_setBytes_of_ne f ne]
  · cases (contentAt_of_found walked there).symm.trans void
  · rw [contentAt_of_found reached appended.content, fileAt?_of_found walked there, read]
    rfl

/-- The target of a copy is new. -/
theorem copied_of_free {holder : Place} {name : Text}
    (walked : f.walk true target = .ok (.free holder name false))
    (filled : (f.create holder.id name (.file []) mode).fill origin f.nodes.length mode = .ok g) :
    Copied f g source target origin bytes ((name, f.nodes.length) :: holder) := by
  obtain ⟨entries, inside⟩ := inDirectory_walk walked
  have named := named_create f inside name [] mode
  have new := content?_length_create f inside name (.file []) mode
  have appended := fill_eq_ok new filled
  have reached := (appended.ways.walk true target).trans (walk_named named walked)
  refine ⟨found, held, by simp [locate, reached], ?_, fun void => ?_, fun _ => ?_⟩
  · refine .new rfl holder.id entries name inside ?_ ?_
    · rw [appended.ways.entries]
      exact named.entries entries inside
    · intro other ne old
      exact (appended.others other ne).trans
        (getElem?_create_of_ne f inside old ne name (.file []) mode)
  · rw [contentAt_of_free walked] at void
    cases void
  · have content := bytes?_eq_some_iff.1 held
    have directory : origin ≠ holder.id := by
      rintro rfl
      cases content.symm.trans (content?_of_entries? inside)
    have bound : origin ≠ f.nodes.length := by
      rintro rfl
      cases content.symm.trans (content?_length f)
    have kept : (f.create holder.id name (.file []) mode).bytes? origin = some bytes := by
      rw [bytes?_eq_some_iff, content?_create f inside, if_neg directory, if_neg bound]
      exact content
    have none : f.fileAt? target = none := by simp [fileAt?, locate, walked]
    rw [contentAt_of_found reached appended.content, kept, none]
    rfl

end

theorem exists_copied {f g : Files} {source target : Text} (h : f.copy source target = .ok g) :
    ∃ origin bytes place, Copied f g source target origin bytes place := by
  obtain ⟨origin, bytes, opened, id, mode, found, held, writable, filled⟩ := copy_eq_ok h
  rcases openForWriting_eq_ok writable with
    ⟨place, content, walked, there, rfl | ⟨old, rfl⟩, rfl, rfl⟩ | ⟨holder, name, walked, rfl, rfl⟩
  · rw [if_neg Bool.false_ne_true, setBytes_void there,
      fill_of_dropped (by simp [bytes?, there])] at filled
    cases filled
    exact ⟨origin, bytes, place, copied_of_void found held walked there⟩
  · exact ⟨origin, bytes, place, copied_of_found found held walked there filled⟩
  · exact ⟨origin, bytes, _, copied_of_free found held walked filled⟩

/-- A copy keeps the bytes of its source exactly if the target is another file, or there are none to
keep. -/
theorem Copied.keeps_iff {f g : Files} {source target : Text} {origin : FileId} {bytes : Bytes}
    {place : Place} (h : Copied f g source target origin bytes place)
    (regular : f.contentAt target ≠ .ok .void) :
    g.contentAt target = .ok (.file bytes) ↔ f.fileAt? target ≠ some origin ∨ bytes = [] := by
  rw [h.regular regular]
  by_cases same : f.fileAt? target = some origin
  · simp [same, eq_comm]
  · simp [same]

end Files

namespace Builtin

theorem invoke_copy (name a b : Text) (s : State) :
    let source := s.environment.resolve (Line.unquote a)
    let target := copyTarget s.files source (s.environment.resolve (Line.unquote b))
    (copy name).invoke [a, b] s =
      transferred s "copy".toList "Copied".toList (Line.unquote a) (Line.unquote b)
        (s.files.copy source target) := by
  intro source target
  have other : [a, b] ≠ [helpWord] := by simp
  have contained (result : Except Stopped Files) :
      Answer.contained name (transferred s "copy".toList "Copied".toList (Line.unquote a)
          (Line.unquote b) result).2 =
        (transferred s "copy".toList "Copied".toList (Line.unquote a) (Line.unquote b)
          result).2 := by
    cases result <;> rfl
  rw [invoke, copy, ofSignature_eq]
  dsimp only
  rw [if_neg other]
  exact Prod.ext rfl (contained _)

/-- A copy that reports success has changed nothing but the file that its target leads to. That file
then holds the bytes that the source had, exactly if it is not the source itself under whatever
name, or these bytes are none. -/
theorem copied_of_success {name a b : Text} {s s' : State} {r : Result}
    (answered : (copy name).invoke [a, b] s = (s', .result r)) (success : r.success = true) :
    let source := s.environment.resolve (Line.unquote a)
    let target := copyTarget s.files source (s.environment.resolve (Line.unquote b))
    s' = s.withFiles s'.files ∧
    ∃ origin bytes place, Files.Copied s.files s'.files source target origin bytes place ∧
      (s.files.contentAt target ≠ .ok .void →
        (s'.files.contentAt target = .ok (.file bytes) ↔
          s.files.fileAt? target ≠ some origin ∨ bytes = [])) := by
  intro source target
  rw [invoke_copy] at answered
  cases done : s.files.copy source target with
  | error cause =>
      rw [done] at answered
      cases answered
      cases success
  | ok files =>
      rw [done] at answered
      cases answered
      obtain ⟨origin, bytes, place, copied⟩ := Files.exists_copied done
      exact ⟨rfl, origin, bytes, place, copied, copied.keeps_iff⟩

theorem copied_of_success_linked :
    let data := Text.encode "data".toList
    let files := (((Files.empty 0).layFile "/home/a".toList data 0o644).layFile "/home/b".toList []
      0o644).layLink "/home/l".toList ['a']
    let s := State.start { assets := [] } [] { Machine.standard 0 "/home".toList with files }
    let copied (target : Text) (left : Bytes) : Prop :=
      ∃ s' r, (copy "cp".toList).invoke [['a'], target] s = (s', .result r) ∧ r.success = true ∧
        s'.files.contentAt ("/home/".toList ++ target) = .ok (.file left)
    copied ['b'] data ∧ copied ['l'] [] := by
  intro data files s copied
  have here : s.environment.resolve (Line.unquote ['a']) = "/home/a".toList := by decide +kernel
  have both {p : Char → Prop} (b : p 'b') (l : p 'l') : ∀ c ∈ ['b', 'l'], p c :=
    List.forall_mem_cons.2 ⟨b, List.forall_mem_singleton.2 l⟩
  have targets : ∀ c ∈ ['b', 'l'], copyTarget s.files "/home/a".toList
      (s.environment.resolve (Line.unquote [c])) = "/home/".toList ++ [c] :=
    both (by decide +kernel) (by decide +kernel)
  have regular : ∀ c ∈ ['b', 'l'], s.files.isFile ("/home/".toList ++ [c]) = true :=
    both (by decide +kernel) (by decide +kernel)
  have copies : ∀ c ∈ ['b', 'l'],
      (s.files.copy "/home/a".toList ("/home/".toList ++ [c])).isOk = true :=
    both (by decide +kernel) (by decide +kernel)
  have source : s.files.fileAt? "/home/a".toList = some 2 := by decide +kernel
  have held : s.files.bytes? 2 = some data := by decide +kernel
  have apart : s.files.fileAt? ("/home/".toList ++ ['b']) ≠ some 2 := by decide +kernel
  have same : s.files.fileAt? ("/home/".toList ++ ['l']) = some 2 := by decide +kernel
  clear_value s
  have ran (c : Char) (mem : c ∈ ['b', 'l']) : ∃ s' r,
      (copy "cp".toList).invoke [['a'], [c]] s = (s', .result r) ∧ r.success = true ∧
      s'.files.contentAt ("/home/".toList ++ [c]) = .ok (.file
        (if s.files.fileAt? ("/home/".toList ++ [c]) = some 2 then [] else data)) := by
    obtain ⟨s', r, answered, success⟩ : ∃ s' r,
        (copy "cp".toList).invoke [['a'], [c]] s = (s', .result r) ∧ r.success = true := by
      rw [invoke_copy, here, targets c mem]
      have done := copies c mem
      cases copied : s.files.copy "/home/a".toList ("/home/".toList ++ [c]) with
      | ok files => exact ⟨_, _, rfl, rfl⟩
      | error cause =>
          rw [copied] at done
          cases done
    obtain ⟨-, origin, bytes, place, copied, -⟩ := copied_of_success answered success
    rw [here, targets c mem] at copied
    cases source.symm.trans copied.found
    cases held.symm.trans copied.held
    refine ⟨s', r, answered, success, copied.regular fun void => ?_⟩
    have file := regular c mem
    rw [Files.isFile, void] at file
    cases file
  obtain ⟨s₁, r₁, answered₁, success₁, left₁⟩ := ran 'b' (by decide)
  obtain ⟨s₂, r₂, answered₂, success₂, left₂⟩ := ran 'l' (by decide)
  exact ⟨⟨s₁, r₁, answered₁, success₁, left₁.trans (by rw [if_neg apart])⟩,
    s₂, r₂, answered₂, success₂, left₂.trans (by rw [if_pos same])⟩

end Builtin

end CommandShell
