import CommandShell.Proofs.Files.Written

/-!
The order of the entries of directories. No directory has a name twice, so what a path leads to does
not depend on that order. The entries of a directory come in it, and are the same ones otherwise.
-/
namespace CommandShell

/-- The names in a directory. -/
def Content.names : Content → List Text
  | .directory entries => entries.map Prod.fst
  | _ => []

/-- The same content, with the entries of a directory in any order. -/
inductive Content.Reordered : Content → Content → Prop
  | same (content : Content) : Reordered content content
  | directory {entries others : List (Text × FileId)} (perm : others.Perm entries) :
    Reordered (.directory entries) (.directory others)

/-- The same node, with the entries of a directory in any order. -/
structure Node.Reordered (n m : Node) : Prop where
  content : n.content.Reordered m.content
  mode : m.mode = n.mode
  modified : m.modified = n.modified

/-- Of entries with different names, a name stands for the same one in whatever order they are. -/
theorem lookup_eq_of_perm {α : Type} {entries others : List (Text × α)}
    (perm : others.Perm entries) (distinct : (entries.map Prod.fst).Nodup) (name : Text) :
    others.lookup name = entries.lookup name := by
  induction perm with
  | nil => rfl
  | cons entry _ ih =>
      rw [List.lookup_cons, List.lookup_cons, ih (List.nodup_cons.1 distinct).2]
  | swap a b rest =>
      have apart : b.1 ≠ a.1 := fun same => by simp [same] at distinct
      rw [List.lookup_cons, List.lookup_cons, List.lookup_cons, List.lookup_cons]
      cases first : name == a.1 with
      | false => rfl
      | true =>
          have second : (name == b.1) = false := by
            rw [beq_iff_eq.1 first]
            exact beq_eq_false_iff_ne.2 apart.symm
          rw [second]
  | trans first second ih ih' =>
      rw [ih ((second.map Prod.fst).nodup_iff.2 distinct), ih' distinct]

namespace Files

/-- No directory has a name twice. -/
def Distinct (f : Files) : Prop := ∀ n ∈ f.nodes, n.content.names.Nodup

instance (f : Files) : Decidable f.Distinct :=
  inferInstanceAs (Decidable (∀ n ∈ f.nodes, n.content.names.Nodup))

/-- The same files, with the entries of each directory in any order. -/
structure Reordered (f g : Files) : Prop where
  nodes : ∀ id : FileId, Option.Rel Node.Reordered f.nodes[id]? g.nodes[id]?
  now : g.now = f.now

theorem Distinct.entries {f : Files} (h : f.Distinct) {id : FileId}
    {entries : List (Text × FileId)} (found : f.content? id = some (.directory entries)) :
    (entries.map Prod.fst).Nodup := by
  obtain ⟨n, place, content⟩ := Option.map_eq_some_iff.1 found
  have names := h n (List.mem_of_getElem? place)
  rwa [content] at names

theorem exists_of_contentAt {f : Files} {path : Text} {content : Content}
    (held : f.contentAt path = .ok content) :
    ∃ place, f.locate true path = .ok place ∧ f.content? place.id = some content := by
  rw [contentAt] at held
  cases found : f.locate true path with
  | error error =>
      rw [found] at held
      cases held
  | ok place =>
      rw [found] at held
      dsimp only at held
      refine ⟨place, rfl, ?_⟩
      cases there : f.content? place.id with
      | none =>
          rw [there] at held
          cases held
      | some other =>
          rw [there] at held
          cases held
          rfl

theorem Distinct.of_contentAt {f : Files} (h : f.Distinct) {path : Text}
    {entries : List (Text × FileId)} (held : f.contentAt path = .ok (.directory entries)) :
    (entries.map Prod.fst).Nodup := by
  obtain ⟨place, -, there⟩ := exists_of_contentAt held
  exact h.entries there

/-- The same files with the entries of one directory in another order. -/
theorem reordered_set {f : Files} {id : FileId} {n : Node} {entries others : List (Text × FileId)}
    (place : f.nodes[id]? = some n) (content : n.content = .directory entries)
    (perm : others.Perm entries) :
    f.Reordered { f with nodes := f.nodes.set id { n with content := .directory others } } where
  nodes other := by
    by_cases same : id = other
    · subst same
      rw [List.getElem?_set_self (List.getElem?_eq_some_iff.1 place).1, place]
      exact .some ⟨content ▸ .directory perm, rfl, rfl⟩
    · rw [List.getElem?_set_ne same]
      cases f.nodes[other]? with
      | none => exact .none
      | some node => exact .some ⟨.same node.content, rfl, rfl⟩
  now := rfl

namespace Reordered
variable {f g : Files} (h : f.Reordered g)
include h

theorem content? (id : FileId) :
    Option.Rel Content.Reordered (f.content? id) (g.content? id) := by
  have node := h.nodes id
  unfold Files.content?
  generalize f.nodes[id]? = n, g.nodes[id]? = m at node
  cases node with
  | none => exact .none
  | some same => exact .some same.content

theorem linkTarget? (id : FileId) : g.linkTarget? id = f.linkTarget? id := by
  have content := h.content? id
  unfold Files.linkTarget?
  generalize f.content? id = a, g.content? id = b at content
  cases content with
  | none => rfl
  | some same => cases same <;> rfl

theorem entries? (id : FileId) :
    f.entries? id = none ∧ g.entries? id = none ∨
      ∃ entries others, f.content? id = some (.directory entries) ∧
        f.entries? id = some entries ∧ g.entries? id = some others ∧ others.Perm entries := by
  have content := h.content? id
  unfold Files.entries?
  generalize f.content? id = a, g.content? id = b at content
  cases content with
  | none => exact .inl ⟨rfl, rfl⟩
  | @some content _ same =>
      cases same with
      | same =>
          cases content with
          | directory entries => exact .inr ⟨entries, entries, rfl, rfl, rfl, .refl entries⟩
          | file | link | void => exact .inl ⟨rfl, rfl⟩
      | @directory entries others perm => exact .inr ⟨entries, others, rfl, rfl, rfl, perm⟩

theorem isDirectoryId (id : FileId) : g.isDirectoryId id = f.isDirectoryId id := by
  rw [Files.isDirectoryId, Files.isDirectoryId]
  obtain ⟨none, other⟩ | ⟨entries, others, -, some, other, -⟩ := h.entries? id
  · rw [none, other]
  · rw [some, other]
    rfl

variable (distinct : f.Distinct)
include distinct

theorem sameNames : SameNames f g where
  directories := h.isDirectoryId
  children id name := by
    rw [child?, child?]
    obtain ⟨none, other⟩ | ⟨entries, others, content, some, other, perm⟩ := h.entries? id
    · rw [none, other]
    · rw [some, other]
      exact lookup_eq_of_perm perm (distinct.entries content) name
  links := h.linkTarget?

theorem locate (follow : Bool) (path : Text) : g.locate follow path = f.locate follow path := by
  simp only [Files.locate, (h.sameNames distinct).walk]

theorem canonical (path : Text) : g.canonical path = f.canonical path := by
  rw [Files.canonical, Files.canonical, h.locate distinct]

/-- A path leads to the same directory, whose entries are the same in another order. -/
theorem contentAt {path : Text} {entries : List (Text × FileId)}
    (held : f.contentAt path = .ok (.directory entries)) :
    ∃ others, g.contentAt path = .ok (.directory others) ∧ others.Perm entries := by
  obtain ⟨place, found, there⟩ := exists_of_contentAt held
  have content := h.content? place.id
  rw [Files.contentAt, h.locate distinct, found]
  dsimp only
  generalize g.content? place.id = b at content ⊢
  rw [there] at content
  cases content with
  | some same =>
      cases same with
      | same => exact ⟨entries, rfl, .refl entries⟩
      | @directory _ others perm => exact ⟨others, rfl, perm⟩

end Reordered

end Files

end CommandShell
