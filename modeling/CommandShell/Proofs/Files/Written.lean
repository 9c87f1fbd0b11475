import CommandShell.Files.Write
import Mathlib.Tactic.SplitIfs

/-!
What a path leads to once bytes have been written to it. A walk reads nothing of regular files, so
changing the bytes of one changes no walk, and a walk that ends at a free name ends at the new file
once that name has been given to it.
-/
namespace CommandShell.Files

/-- What a path leads to after a write, from what it has led to before. The device that keeps
nothing stays as it is. -/
def written (append : Bool) (bytes : Bytes) : Except IoError Content → Content
  | .ok .void => .void
  | .ok (.file old) => .file (if append then old ++ bytes else bytes)
  | _ => .file bytes

theorem written_behind (append : Bool) (bytes more : Bytes) (before : Except IoError Content) :
    written true more (.ok (written append bytes before)) =
      written append (bytes ++ more) before := by
  rcases before with error | (_ | _ | _ | _) <;> cases append <;> simp [written]

theorem written_over (append : Bool) (bytes more : Bytes) (before : Except IoError Content) :
    written false more (.ok (written append bytes before)) = written false more before := by
  rcases before with error | (_ | _ | _ | _) <;> simp [written]

/-- Files in whose directories each name stands for the same node. -/
structure SameNames (f g : Files) : Prop where
  directories : ∀ id, g.isDirectoryId id = f.isDirectoryId id
  children : ∀ id name, g.child? id name = f.child? id name
  links : ∀ id, g.linkTarget? id = f.linkTarget? id

namespace SameNames
variable {f g : Files} (h : SameNames f g)
include h

theorem walkNames (follow closed : Bool)
    (next : Bool → Place → List Text → Except IoError Spot) (place : Place) (names : List Text) :
    g.walkNames follow closed next place names = f.walkNames follow closed next place names := by
  induction names generalizing place with
  | nil => simp only [Files.walkNames, h.directories]
  | cons name rest ih =>
      have directory := h.directories place.id
      have child := h.children place.id name
      rw [isDirectoryId, isDirectoryId] at directory
      rw [child?, child?] at child
      rw [Files.walkNames, Files.walkNames]
      cases before : f.entries? place.id with
      | none =>
          rw [before, Option.isSome_none, Option.isSome_eq_false_iff, Option.isNone_iff_eq_none]
            at directory
          rw [directory]
      | some entries =>
          rw [before, Option.isSome_some, Option.isSome_iff_exists] at directory
          obtain ⟨others, after⟩ := directory
          rw [before, after, Option.bind_some, Option.bind_some] at child
          simp only [after, child, h.links, ih]

theorem walkLinks (follow : Bool) (links : Nat) :
    g.walkLinks follow links = f.walkLinks follow links := by
  induction links with
  | zero =>
      funext closed place names
      exact h.walkNames ..
  | succ links ih =>
      funext closed place names
      simp only [Files.walkLinks, ih, h.walkNames]

theorem walk (follow : Bool) (path : Text) : g.walk follow path = f.walk follow path := by
  simp only [Files.walk, h.walkLinks]

end SameNames

/-- Files whose directories and links are the same. -/
structure SameWays (f g : Files) : Prop where
  entries : ∀ id, g.entries? id = f.entries? id
  links : ∀ id, g.linkTarget? id = f.linkTarget? id

theorem SameWays.sameNames {f g : Files} (h : SameWays f g) : SameNames f g where
  directories id := by rw [isDirectoryId, isDirectoryId, h.entries]
  children id name := by rw [child?, child?, h.entries]
  links := h.links

theorem SameWays.walk {f g : Files} (h : SameWays f g) (follow : Bool) (path : Text) :
    g.walk follow path = f.walk follow path := h.sameNames.walk follow path

theorem content?_setContent (f : Files) (id : FileId) (content : Content) (other : FileId) :
    (f.setContent id content).content? other =
      if other = id then (f.content? id).map fun _ => content else f.content? other := by
  simp only [setContent, content?, List.getElem?_modify]
  by_cases h : id = other
  · subst h
    simp [Option.map_map, Function.comp_def]
  · simp [h, Ne.symm h]

theorem sameWays_setBytes (f : Files) (id : FileId) (bytes : Bytes) :
    SameWays f (f.setBytes id bytes) := by
  unfold setBytes
  split
  · next found =>
    obtain ⟨old, h⟩ : ∃ old, f.content? id = some (.file old) := by
      unfold bytes? at found
      split at found
      · next old h => exact ⟨old, h⟩
      · cases found
    constructor
    · intro other
      simp only [entries?, content?_setContent, h]
      split_ifs with same
      · subst same; simp [h]
      · rfl
    · intro other
      simp only [linkTarget?, content?_setContent, h]
      split_ifs with same
      · subst same; simp [h]
      · rfl
  · exact ⟨fun _ => rfl, fun _ => rfl⟩

theorem content?_setBytes {f : Files} {id : FileId} {old : Bytes}
    (h : f.content? id = some (.file old)) (bytes : Bytes) :
    (f.setBytes id bytes).content? id = some (.file bytes) := by
  have found : (f.bytes? id).isSome = true := by simp [bytes?, h]
  rw [setBytes, if_pos found, content?_setContent, if_pos rfl, h]
  rfl

theorem getElem?_setBytes_of_ne (f : Files) {id other : FileId} (ne : other ≠ id) (bytes : Bytes) :
    (f.setBytes id bytes).nodes[other]? = f.nodes[other]? := by
  rw [setBytes]
  split
  · simp [setContent, Ne.symm ne]
  · rfl

theorem bytes?_eq_some_iff {f : Files} {id : FileId} {bytes : Bytes} :
    f.bytes? id = some bytes ↔ f.content? id = some (.file bytes) := by
  rw [bytes?]
  cases f.content? id with
  | none => simp
  | some content => cases content <;> simp

/-- Files of which the second ones also have the name `name` in `directory`, for a node that is no
directory and no link. -/
structure Named (f g : Files) (directory : FileId) (name : Text) (id : FileId) : Prop where
  entries : ∀ entries, f.entries? directory = some entries →
    g.entries? directory = some (entries ++ [(name, id)])
  others : ∀ other, other ≠ directory → g.entries? other = f.entries? other
  links : ∀ other, g.linkTarget? other = f.linkTarget? other
  plain : f.linkTarget? id = none

/-- The files with one more node, which no directory has yet. -/
def addNode (f : Files) (n : Node) : Files := { f with nodes := f.nodes ++ [n] }

theorem content?_addNode (f : Files) (n : Node) (other : FileId) :
    (f.addNode n).content? other =
      if other = f.nodes.length then some n.content else f.content? other := by
  simp only [content?, addNode]
  rcases Nat.lt_trichotomy other f.nodes.length with old | rfl | beyond
  · rw [List.getElem?_append_left old, if_neg (Nat.ne_of_lt old)]
  · simp
  · rw [if_neg (Nat.ne_of_gt beyond), List.getElem?_eq_none (Nat.le_of_lt beyond),
      List.getElem?_eq_none (by simpa using Nat.succ_le_of_lt beyond)]

theorem content?_length (f : Files) : f.content? f.nodes.length = none := by
  simp [content?]

theorem content?_of_entries? {f : Files} {id : FileId} {entries : List (Text × FileId)}
    (h : f.entries? id = some entries) : f.content? id = some (.directory entries) := by
  unfold entries? at h
  split at h
  · cases h
    assumption
  · cases h

theorem ne_length_of_entries? {f : Files} {id : FileId} {entries : List (Text × FileId)}
    (h : f.entries? id = some entries) : id ≠ f.nodes.length := by
  rintro rfl
  have there := content?_of_entries? h
  rw [content?_length] at there
  cases there

theorem create_eq (f : Files) {directory : FileId} {entries : List (Text × FileId)}
    (h : f.entries? directory = some entries) (name : Text) (content : Content) (mode : Nat) :
    f.create directory name content mode =
      (f.addNode ⟨content, mode, f.now⟩).setEntries directory
        (entries ++ [(name, f.nodes.length)]) := by
  have kept : (f.addNode ⟨content, mode, f.now⟩).entries? directory = some entries := by
    rw [entries?, content?_addNode, if_neg (ne_length_of_entries? h)]
    exact h
  rw [create, bind]
  simp only [addNode] at kept ⊢
  rw [kept]

theorem content?_create (f : Files) {directory : FileId} {entries : List (Text × FileId)}
    (h : f.entries? directory = some entries) (name : Text) (content : Content) (mode : Nat)
    (other : FileId) :
    (f.create directory name content mode).content? other =
      if other = directory then some (.directory (entries ++ [(name, f.nodes.length)]))
      else if other = f.nodes.length then some content
      else f.content? other := by
  have holder := content?_of_entries? h
  have old := ne_length_of_entries? h
  rw [create_eq f h, setEntries, content?_setContent, content?_addNode, content?_addNode,
    if_neg old, holder]
  rfl

theorem content?_length_create (f : Files) {directory : FileId} {entries : List (Text × FileId)}
    (h : f.entries? directory = some entries) (name : Text) (content : Content) (mode : Nat) :
    (f.create directory name content mode).content? f.nodes.length = some content := by
  rw [content?_create f h, if_neg (ne_length_of_entries? h).symm, if_pos rfl]

theorem named_create (f : Files) {directory : FileId} {entries : List (Text × FileId)}
    (h : f.entries? directory = some entries) (name : Text) (bytes : Bytes) (mode : Nat) :
    Named f (f.create directory name (.file bytes) mode) directory name f.nodes.length := by
  have holder := content?_of_entries? h
  constructor
  · intro found same
    rw [h] at same
    cases same
    simp [entries?, content?_create f h]
  · intro other ne
    simp only [entries?, content?_create f h, if_neg ne]
    split_ifs with new
    · simp [new, content?_length]
    · rfl
  · intro other
    simp only [linkTarget?, content?_create f h]
    split_ifs with same new
    · simp [same, holder]
    · simp [new, content?_length]
    · rfl
  · simp [linkTarget?, content?_length]

namespace Named
variable {f g : Files} {directory : FileId} {name : Text} {id : FileId}
  (h : Named f g directory name id)
include h

/-- Names that are there stay where they are. -/
theorem exists_entries {place : FileId} {entries : List (Text × FileId)}
    (found : f.entries? place = some entries) :
    ∃ more, g.entries? place = some (entries ++ more) ∧
      (place = directory → more = [(name, id)]) := by
  by_cases same : place = directory
  · subst same
    exact ⟨[(name, id)], h.entries entries found, fun _ => rfl⟩
  · exact ⟨[], by rw [h.others place same, found, List.append_nil], fun eq => absurd eq same⟩

end Named

theorem walkNames_named {f g : Files} {holder : Place} {name : Text} {id : FileId}
    (h : Named f g holder.id name id) (follow : Bool)
    {next next' : Bool → Place → List Text → Except IoError Spot}
    (later : ∀ closed place names, next closed place names = .ok (.free holder name false) →
      next' closed place names = .ok (.found ((name, id) :: holder)))
    {closed : Bool} {place : Place} {names : List Text}
    (free : f.walkNames follow closed next place names = .ok (.free holder name false)) :
    g.walkNames follow closed next' place names = .ok (.found ((name, id) :: holder)) := by
  induction names generalizing place with
  | nil =>
      simp only [Files.walkNames] at free
      split at free <;> cases free
  | cons first rest ih =>
      rw [Files.walkNames] at free ⊢
      split at free
      · cases free
      next entries found =>
      obtain ⟨more, kept, last⟩ := h.exists_entries found
      rw [kept]
      dsimp only
      by_cases here : (first == Path.here) = true
      · rw [if_pos here] at free ⊢
        exact ih free
      by_cases above : (first == Path.above) = true
      · rw [if_neg here, if_pos above] at free ⊢
        exact ih free
      by_cases long : isTooLong first = true
      · rw [if_neg here, if_neg above, if_pos long] at free
        cases free
      rw [if_neg here, if_neg above, if_neg long] at free ⊢
      rw [List.lookup_append]
      cases there : entries.lookup first with
      | none =>
          -- The walk has ended here, so this is the directory that has got the name.
          rw [there] at free
          cases rest with
          | cons second rest => cases free
          | nil =>
              cases free
              simp [last rfl, h.links, h.plain, Files.walkNames]
      | some node =>
          rw [there] at free
          simp only [Option.some_or, h.links] at free ⊢
          split at free
          · exact ih free
          · split at free
            · cases free
            · next ended =>
              rw [if_neg ended]
              exact later _ _ _ free

theorem walkLinks_named {f g : Files} {holder : Place} {name : Text} {id : FileId}
    (h : Named f g holder.id name id) (follow : Bool) {links : Nat} {closed : Bool} {place : Place}
    {names : List Text}
    (free : f.walkLinks follow links closed place names = .ok (.free holder name false)) :
    g.walkLinks follow links closed place names = .ok (.found ((name, id) :: holder)) := by
  induction links generalizing closed place names with
  | zero =>
      refine walkNames_named h follow ?_ free
      intro _ _ _ failed
      cases failed
  | succ links ih => exact walkNames_named h follow (fun _ _ _ => ih) free

theorem walk_named {f g : Files} {holder : Place} {name : Text} {id : FileId}
    (h : Named f g holder.id name id) {follow : Bool} {path : Text}
    (free : f.walk follow path = .ok (.free holder name false)) :
    g.walk follow path = .ok (.found ((name, id) :: holder)) := by
  unfold walk at free ⊢
  split at free
  · cases free
  · exact walkLinks_named h follow free

/-- A walk that ends at a free name ends in a directory. -/
def InDirectory (f : Files) : Spot → Prop
  | .found _ => True
  | .free holder _ _ => ∃ entries, f.entries? holder.id = some entries

theorem inDirectory_walkNames {f : Files} {follow closed : Bool}
    {next : Bool → Place → List Text → Except IoError Spot}
    {spot : Spot} (later : ∀ closed place names, next closed place names = .ok spot →
      InDirectory f spot)
    {place : Place} {names : List Text}
    (walked : f.walkNames follow closed next place names = .ok spot) :
    InDirectory f spot := by
  induction names generalizing place with
  | nil =>
      rw [walkNames] at walked
      split at walked <;> cases walked
      trivial
  | cons first rest ih =>
      rw [walkNames] at walked
      split at walked
      · cases walked
      next entries found =>
      split at walked
      · exact ih walked
      · split at walked
        · exact ih walked
        · split at walked
          · cases walked
          · split at walked
            · split at walked <;> cases walked
              exact ⟨entries, found⟩
            · split at walked
              · exact ih walked
              · split at walked
                · cases walked
                  trivial
                · exact later _ _ _ walked

theorem inDirectory_walkLinks {f : Files} {follow closed : Bool} {links : Nat} {place : Place}
    {names : List Text} {spot : Spot}
    (walked : f.walkLinks follow links closed place names = .ok spot) :
    InDirectory f spot := by
  induction links generalizing closed place names with
  | zero =>
      refine inDirectory_walkNames ?_ walked
      intro _ _ _ failed
      cases failed
  | succ links ih =>
      refine inDirectory_walkNames ?_ walked
      intro _ _ _ deeper
      exact ih deeper

theorem inDirectory_walk {f : Files} {follow : Bool} {path : Text} {spot : Spot}
    (walked : f.walk follow path = .ok spot) : InDirectory f spot := by
  unfold walk at walked
  split at walked
  · cases walked
  · exact inDirectory_walkLinks walked

theorem contentAt_of_found {f : Files} {path : Text} {place : Place} {content : Content}
    (found : f.walk true path = .ok (.found place)) (there : f.content? place.id = some content) :
    f.contentAt path = .ok content := by
  simp [contentAt, locate, found, there]

theorem setBytes_void {f : Files} {id : FileId} (there : f.content? id = some .void)
    (bytes : Bytes) : f.setBytes id bytes = f := by
  simp [setBytes, bytes?, there]

theorem contentAt_of_free {f : Files} {path name : Text} {holder : Place} {closed : Bool}
    (free : f.walk true path = .ok (.free holder name closed)) :
    f.contentAt path = .error .notFound := by
  simp [contentAt, locate, free]

/-- The regular file that a path leads to. -/
def fileAt? (f : Files) (path : Text) : Option FileId :=
  match f.locate true path with
  | .ok place => if (f.bytes? place.id).isSome then some place.id else none
  | .error _ => none

theorem isSome_fileAt? (f : Files) (path : Text) : (f.fileAt? path).isSome = f.isFile path := by
  rw [fileAt?, isFile, contentAt]
  cases f.locate true path with
  | error _ => rfl
  | ok place =>
      dsimp only
      rw [bytes?]
      cases f.content? place.id with
      | none => rfl
      | some content => cases content <;> rfl

/-- What is opened for writing: a node that bytes can be written to, emptied unless it keeps them,
or a new file under the free name where the walk of the path ends. -/
theorem openForWriting_eq_ok {f g : Files} {path : Text} {keep : Bool} {mode : Nat} {id : FileId}
    (h : f.openForWriting path keep mode = .ok (g, id)) :
    (∃ place content, f.walk true path = .ok (.found place) ∧
        f.content? place.id = some content ∧ (content = .void ∨ ∃ old, content = .file old) ∧
        g = (if keep then f else f.setBytes place.id []) ∧ id = place.id) ∨
      ∃ holder name, f.walk true path = .ok (.free holder name false) ∧
        g = f.create holder.id name (.file []) mode ∧ id = f.nodes.length := by
  unfold openForWriting at h
  split at h
  · split at h <;> cases h
  · split at h
    · next place found =>
      split at h
      · next old there =>
        cases h
        exact .inl ⟨place, _, found, there, .inr ⟨old, rfl⟩, rfl, rfl⟩
      · next there =>
        cases h
        exact .inl ⟨place, _, found, there, .inl rfl, rfl, rfl⟩
      · cases h
      · cases h
      · cases h
    · next holder name closed free =>
      cases closed with
      | true => cases h
      | false =>
          cases h
          exact .inr ⟨holder, name, free, rfl, rfl⟩
    · cases h

/-- The bytes that a path leads to once it has been opened for writing, if they are not dropped. -/
theorem opened_cases {f g : Files} {path : Text} {behind : Bool} {mode : Nat} {id : FileId}
    (h : f.openForWriting path behind mode = .ok (g, id)) :
    ∃ place, g.walk true path = .ok (.found place) ∧ place.id = id ∧
      (g.content? id = some .void ∧ f.contentAt path = .ok .void ∨
        ∃ kept, g.content? id = some (.file kept) ∧
          ∀ bytes, written behind bytes (f.contentAt path) = .file (kept ++ bytes)) := by
  rcases openForWriting_eq_ok h with
    ⟨place, content, found, there, rfl | ⟨old, rfl⟩, rfl, rfl⟩ | ⟨holder, name, free, rfl, rfl⟩
  · rw [setBytes_void there, ite_self]
    exact ⟨place, found, rfl, .inl ⟨there, contentAt_of_found found there⟩⟩
  · rw [contentAt_of_found found there]
    cases behind with
    | true => exact ⟨place, found, rfl, .inr ⟨old, there, fun _ => rfl⟩⟩
    | false =>
        have same := (sameWays_setBytes f place.id []).walk true path
        exact ⟨place, same.trans found, rfl, .inr ⟨[], content?_setBytes there [], fun _ => rfl⟩⟩
  · obtain ⟨entries, inside⟩ := inDirectory_walk free
    rw [contentAt_of_free free]
    exact ⟨(name, f.nodes.length) :: holder, walk_named (named_create f inside name [] mode) free,
      rfl, .inr ⟨[], content?_length_create f inside name (.file []) mode, fun _ => rfl⟩⟩

/-- The first of some bytes, as many as a write takes of them. -/
def taken (f : Files) (bytes : Bytes) : Bytes :=
  (f.fault? bytes).elim bytes fun fault => bytes.take fault.taken

/-- The bytes that a write of some bytes brings to the file that a path leads to. It brings nothing,
not even none, to a file that cannot be opened, and a node that drops them takes all. -/
def arriving? (f : Files) (path : Text) (behind : Bool) (bytes : Bytes) : Option Bytes :=
  match f.openForWriting path behind fileMode with
  | .ok (f, id) => some (if (f.bytes? id).isSome then f.taken bytes else bytes)
  | .error _ => none

/-- How a write of some bytes goes, and what it brings to the file. -/
inductive WriteOutcome (f : Files) (path : Text) (behind : Bool) (bytes : Bytes) :
    Except Stopped Files → Option Bytes → Prop
  | unopened (cause : IoError) : WriteOutcome f path behind bytes (.error ⟨f, cause⟩) none
  | whole (g : Files) (content : g.contentAt path = .ok (written behind bytes (f.contentAt path))) :
    WriteOutcome f path behind bytes (.ok g) (some bytes)
  | broken (g : Files) (cause : IoError) {part : Bytes} (first : part <+: bytes)
      (short : part.length < bytes.length)
      (content : g.contentAt path = .ok (written behind part (f.contentAt path))) :
    WriteOutcome f path behind bytes (.error ⟨g, cause⟩) (some part)

theorem lt_length_of_fault? {f : Files} {bytes : Bytes} {fault : Fault}
    (h : f.fault? bytes = some fault) : fault.taken < bytes.length := by
  simpa using (Option.filter_eq_some_iff.1 h).2

/-- Files of which the second ones have some more bytes behind those of the regular file `id`, and
are the same ones otherwise. -/
structure Appended (f g : Files) (id : FileId) (kept more : Bytes) : Prop where
  content : g.content? id = some (.file (kept ++ more))
  others : ∀ other, other ≠ id → g.nodes[other]? = f.nodes[other]?
  ways : SameWays f g

/-- How the disk goes on with later writes is nothing that a path leads to. -/
theorem appended_setBytes {f : Files} {id : FileId} {kept : Bytes} (held : f.bytes? id = some kept)
    (more : Bytes) :
    Appended f ({ f with faults := f.faults.tail }.setBytes id (kept ++ more)) id kept more where
  content := by
    have there : { f with faults := f.faults.tail }.content? id = some (.file kept) :=
      bytes?_eq_some_iff.1 held
    exact content?_setBytes there _
  others _ ne := getElem?_setBytes_of_ne _ ne _
  ways := by
    have same := sameWays_setBytes { f with faults := f.faults.tail } id (kept ++ more)
    exact ⟨same.entries, same.links⟩

/-- A write to an open file brings all bytes to it, or else the first ones and not all. -/
theorem append_cases {f : Files} {id : FileId} {kept : Bytes} (held : f.bytes? id = some kept)
    (bytes : Bytes) :
    (∃ g, f.append id bytes = .ok g ∧ f.taken bytes = bytes ∧ Appended f g id kept bytes) ∨
      ∃ g cause, f.append id bytes = .error ⟨g, cause⟩ ∧ f.taken bytes <+: bytes ∧
        (f.taken bytes).length < bytes.length ∧ Appended f g id kept (f.taken bytes) := by
  cases bytes with
  | nil =>
      have nothing : f.taken [] = [] := by
        rw [taken]
        cases f.fault? [] <;> simp
      refine .inl ⟨f, rfl, nothing, ?_, fun _ _ => rfl, fun _ => rfl, fun _ => rfl⟩
      rw [List.append_nil]
      exact bytes?_eq_some_iff.1 held
  | cons b rest =>
      unfold append
      rw [held]
      dsimp only
      cases stopped : f.fault? (b :: rest) with
      | none =>
          have all : f.taken (b :: rest) = b :: rest := by rw [taken, stopped]; rfl
          exact .inl ⟨_, rfl, all, appended_setBytes held _⟩
      | some fault =>
          have first : f.taken (b :: rest) = (b :: rest).take fault.taken := by
            rw [taken, stopped]
            rfl
          have short := lt_length_of_fault? stopped
          rw [first]
          refine .inr ⟨_, fault.cause, rfl, List.take_prefix _ _, ?_, appended_setBytes held _⟩
          rw [List.length_take]
          omega

theorem append_of_dropped {f : Files} {id : FileId} (dropped : f.bytes? id = none)
    (bytes : Bytes) : f.append id bytes = .ok f := by
  cases bytes with
  | nil => rfl
  | cons b rest =>
      unfold append
      rw [dropped]

/-- After a write a path leads to the bytes that it has brought, behind those that were there if
they have been kept. All of them have been brought if it succeeds, and if it fails either not even the
file has been opened, or some are missing at the end. -/
theorem write_outcome (f : Files) (path : Text) (behind : Bool) (bytes : Bytes) :
    WriteOutcome f path behind bytes (f.write path behind bytes)
      (f.arriving? path behind bytes) := by
  rw [write, arriving?]
  cases opened : f.openForWriting path behind fileMode with
  | error cause => exact .unopened cause
  | ok target =>
      obtain ⟨g, id⟩ := target
      obtain ⟨place, found, rfl, ⟨there, void⟩ | ⟨kept, there, brings⟩⟩ := opened_cases opened
      · have dropped : g.bytes? place.id = none := by simp [bytes?, there]
        dsimp only
        rw [append_of_dropped dropped, dropped]
        exact .whole g ((contentAt_of_found found there).trans (by rw [void]; rfl))
      · have held := bytes?_eq_some_iff.2 there
        have filled {h : Files} {more : Bytes} (appended : Appended g h place.id kept more) :
            h.contentAt path = .ok (written behind more (f.contentAt path)) := by
          rw [brings]
          exact contentAt_of_found ((appended.ways.walk true path).trans found) appended.content
        dsimp only
        rw [held, Option.isSome_some, if_pos rfl]
        obtain ⟨h, done, all, appended⟩ | ⟨h, cause, stopped, first, short, appended⟩ :=
          append_cases held bytes
        · rw [done, all]
          exact .whole h (filled appended)
        · rw [stopped]
          exact .broken h cause first short (filled appended)

end CommandShell.Files
