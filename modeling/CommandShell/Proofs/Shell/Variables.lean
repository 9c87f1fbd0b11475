import CommandShell.Proofs.Text.Order
import CommandShell.Shell.Variables
import Mathlib.Data.List.Induction

/-!
The store of variables as a map. Names are the same up to the case of ASCII letters, the spelling is
that of the first assignment and the value that of the last. What is listed depends on no more than
this: neither on the order of the assignments to different variables nor on that of the store.
-/
namespace CommandShell

/-- The items of a list whose name is that of a variable, however it is spelled. -/
def spelledAs (name : Text) (items : List (Text × Text)) : List (Text × Text) :=
  items.filter fun item => Variables.sameName item.1 name

/-- The value that the last of some assignments to a variable gives it. -/
def latest? (name : Text) (assignments : List (Text × Text)) : Option Text :=
  (spelledAs name assignments).getLast?.map Prod.snd

/-- What assignments to one variable leave: the spelling of the first and the value of the last. -/
def settled : List (Text × Text) → List (Text × Text)
  | [] => []
  | first :: rest => [(first.1, (rest.getLastD first).2)]

theorem settled_append (a b : List (Text × Text)) : settled (settled a ++ b) = settled (a ++ b) := by
  cases a with
  | nil => rfl
  | cons first rest =>
      cases b using List.reverseRecOn with
      | nil => simp [settled]
      | append_singleton b last => simp [settled]

namespace Variables

theorem sameName_iff {a b : Text} : sameName a b = true ↔ fold a = fold b := beq_iff_eq

theorem sameName_self (a : Text) : sameName a a = true := sameName_iff.2 rfl

theorem sameName_comm (a b : Text) : sameName a b = sameName b a := by
  rw [sameName, sameName, Bool.beq_comm]

/-- Two spellings of one variable are the same as the same others. -/
theorem sameName_congr {a b : Text} (same : sameName a b = true) (c : Text) :
    sameName a c = sameName b c := by
  rw [sameName, sameName, sameName_iff.1 same]

theorem spelledAs_nil (name : Text) : spelledAs name [] = [] := rfl

theorem spelledAs_cons (name : Text) (item : Text × Text) (rest : List (Text × Text)) :
    spelledAs name (item :: rest) =
      if sameName item.1 name then item :: spelledAs name rest else spelledAs name rest :=
  List.filter_cons

theorem spelledAs_append (name : Text) (a b : List (Text × Text)) :
    spelledAs name (a ++ b) = spelledAs name a ++ spelledAs name b := List.filter_append _ _

theorem mem_spelledAs {item : Text × Text} {items : List (Text × Text)} :
    item ∈ spelledAs item.1 items ↔ item ∈ items := by
  simp [spelledAs, sameName_self]

/-- Setting a variable leaves the other items, and its own has the new value. -/
theorem mem_setIn {name value : Text} {items : List (Text × Text)} {item : Text × Text}
    (h : item ∈ setIn name value items) :
    item ∈ items ∨ item.2 = value ∧ (item.1 = name ∨ ∃ old ∈ items, item.1 = old.1) := by
  induction items with
  | nil =>
      obtain rfl := List.mem_singleton.1 h
      exact .inr ⟨rfl, .inl rfl⟩
  | cons other rest ih =>
      rw [setIn] at h
      split at h
      · rcases List.mem_cons.1 h with rfl | old
        · exact .inr ⟨rfl, .inr ⟨other, List.mem_cons_self, rfl⟩⟩
        · exact .inl (List.mem_cons_of_mem _ old)
      · rcases List.mem_cons.1 h with rfl | later
        · exact .inl List.mem_cons_self
        · rcases ih later with old | ⟨new, spelled | ⟨old, member, same⟩⟩
          · exact .inl (List.mem_cons_of_mem _ old)
          · exact .inr ⟨new, .inl spelled⟩
          · exact .inr ⟨new, .inr ⟨old, List.mem_cons_of_mem _ member, same⟩⟩

/-- What is set is in the store, perhaps under another spelling. -/
theorem exists_mem_setIn (name value : Text) (items : List (Text × Text)) :
    ∃ item ∈ setIn name value items, sameName item.1 name = true ∧ item.2 = value := by
  induction items with
  | nil => exact ⟨_, List.mem_singleton_self _, sameName_self name, rfl⟩
  | cons other rest ih =>
      rw [setIn]
      split
      · next same => exact ⟨_, List.mem_cons_self, same, rfl⟩
      · obtain ⟨item, member, set⟩ := ih
        exact ⟨item, List.mem_cons_of_mem _ member, set⟩

theorem spelledAs_setIn_of_ne {name other : Text} (ne : sameName name other = false) (value : Text)
    (items : List (Text × Text)) : spelledAs other (setIn name value items) = spelledAs other items := by
  induction items with
  | nil => simp [setIn, spelledAs_cons, spelledAs_nil, ne]
  | cons item rest ih =>
      rw [setIn]
      split
      · next here =>
        have missed := (sameName_congr here other).trans ne
        simp [spelledAs_cons, missed]
      · simp [spelledAs_cons, ih]

/-- The names of the items are those of different variables. -/
def Apart (items : List (Text × Text)) : Prop :=
  items.Pairwise fun a b => sameName a.1 b.1 = false

namespace Apart
variable {items : List (Text × Text)}

theorem of_cons {item : Text × Text} (h : Apart (item :: items)) : Apart items :=
  List.Pairwise.of_cons h

theorem nodup (h : Apart items) : items.Nodup := by
  refine List.Pairwise.imp ?_ h
  rintro a b other rfl
  rw [sameName_self] at other
  cases other

/-- Behind an item of a variable there is no other one of it. -/
theorem spelledAs_rest {item : Text × Text} (h : Apart (item :: items)) {name : Text}
    (same : sameName item.1 name = true) : spelledAs name items = [] := by
  refine List.filter_eq_nil_iff.2 fun other member here => ?_
  have apart := List.rel_of_pairwise_cons h member
  rw [sameName_congr same, sameName_comm, here] at apart
  cases apart

theorem settled_spelledAs (h : Apart items) (name : Text) :
    settled (spelledAs name items) = spelledAs name items := by
  induction items with
  | nil => rfl
  | cons item rest ih =>
      rw [spelledAs_cons]
      split
      · next same =>
        rw [h.spelledAs_rest same]
        rfl
      · exact ih h.of_cons

theorem setIn (h : Apart items) (name value : Text) : Apart (setIn name value items) := by
  induction items with
  | nil => exact List.pairwise_singleton _ _
  | cons item rest ih =>
      obtain ⟨first, later⟩ := List.pairwise_cons.1 h
      rw [Variables.setIn]
      split
      · exact List.pairwise_cons.2 ⟨first, later⟩
      · next other =>
        refine List.pairwise_cons.2 ⟨fun x member => ?_, ih later⟩
        rcases mem_setIn member with old | ⟨-, new | ⟨old, found, same⟩⟩
        · exact first x old
        · rw [new]
          exact Bool.eq_false_iff.2 other
        · rw [same]
          exact first old found

/-- An assignment is the last one to its variable, and none to any other. -/
theorem spelledAs_setIn (h : Apart items) (name value other : Text) :
    spelledAs other (Variables.setIn name value items) =
      settled (spelledAs other items ++ spelledAs other [(name, value)]) := by
  cases same : sameName name other with
  | false =>
      rw [spelledAs_setIn_of_ne same, spelledAs_cons, same, spelledAs_nil]
      simp [h.settled_spelledAs other]
  | true =>
      have last : spelledAs other [(name, value)] = [(name, value)] := by
        simp [spelledAs_cons, same, spelledAs_nil]
      rw [last]
      induction items with
      | nil => exact last
      | cons item rest ih =>
          have names : sameName item.1 name = sameName item.1 other := by
            rw [sameName_comm, sameName_congr same, sameName_comm]
          rw [Variables.setIn, names, spelledAs_cons]
          split
          · next here =>
            rw [spelledAs_cons, if_pos here, h.spelledAs_rest here]
            rfl
          · next missed => rw [spelledAs_cons, if_neg missed, ih h.of_cons]

end Apart

theorem apart_set {v : Variables} (h : Apart v.items) (name value : Text) :
    Apart (v.set name value).items := h.setIn name value

theorem apart_setAll {v : Variables} (h : Apart v.items) (calls : List (Text × Text)) :
    Apart (v.setAll calls).items := by
  induction calls generalizing v with
  | nil => exact h
  | cons call rest ih => exact ih (apart_set h call.1 call.2)

/-- Of each variable the store keeps what all assignments to it leave. -/
theorem spelledAs_setAll {v : Variables} (h : Apart v.items) (calls : List (Text × Text))
    (name : Text) :
    spelledAs name (v.setAll calls).items = settled (spelledAs name (v.items ++ calls)) := by
  induction calls generalizing v with
  | nil => rw [List.append_nil, h.settled_spelledAs]; rfl
  | cons call rest ih =>
      have first : spelledAs name (v.set call.1 call.2).items =
          settled (spelledAs name v.items ++ spelledAs name [call]) :=
        h.spelledAs_setIn call.1 call.2 name
      calc spelledAs name ((v.set call.1 call.2).setAll rest).items
        _ = settled (spelledAs name (v.set call.1 call.2).items ++ spelledAs name rest) := by
          rw [ih (apart_set h call.1 call.2), spelledAs_append]
        _ = settled (spelledAs name (v.items ++ call :: rest)) := by
          rw [first, settled_append, ← spelledAs_append, ← spelledAs_append, List.append_assoc,
            List.singleton_append]

theorem latest?_cons (name : Text) (call : Text × Text) (rest : List (Text × Text)) :
    latest? name (call :: rest) =
      (latest? name rest).or (if sameName call.1 name then some call.2 else none) := by
  rw [latest?, latest?, spelledAs_cons]
  split
  · cases spelledAs name rest using List.reverseRecOn with
    | nil => rfl
    | append_singleton items last => simp [List.getLast?_cons]
  · simp

theorem get?_setAll (v : Variables) (calls : List (Text × Text)) (name : Text) :
    (v.setAll calls).get? name = (latest? name calls).or (v.get? name) := by
  induction calls generalizing v with
  | nil => rfl
  | cons call rest ih =>
      calc ((v.set call.1 call.2).setAll rest).get? name
        _ = (latest? name rest).or ((v.set call.1 call.2).get? name) := ih _
        _ = (latest? name (call :: rest)).or (v.get? name) := by
          rw [get?_set, latest?_cons, Option.or_assoc]
          split <;> rfl

/-- Stores that agree on each variable list the same items. -/
theorem perm_of_spelledAs {a b : List (Text × Text)} (ha : Apart a) (hb : Apart b)
    (same : ∀ name, spelledAs name a = spelledAs name b) : a.Perm b := by
  refine (List.perm_ext_iff_of_nodup ha.nodup hb.nodup).2 fun item => ?_
  rw [← mem_spelledAs, same, mem_spelledAs]

theorem sorted_perm (v : Variables) : v.sorted.Perm v.items := List.mergeSort_perm _ _

theorem Apart.keys {items : List (Text × Text)} (h : Apart items) :
    items.Pairwise fun a b => a.1 ≠ b.1 := by
  refine List.Pairwise.imp ?_ h
  intro a b other same
  rw [same, sameName_self] at other
  cases other

theorem pairwise_sorted {v : Variables} (h : Apart v.items) :
    v.sorted.Pairwise fun a b => Text.Before a.1 b.1 :=
  (Text.leads_precedes Prod.fst).pairwise_mergeSort h.keys

/-- The sorted items do not depend on the order of the store. -/
theorem sorted_eq_of_perm {v w : Variables} (h : Apart v.items) (perm : w.items.Perm v.items) :
    w.sorted = v.sorted :=
  (Text.leads_precedes Prod.fst).mergeSort_eq h.keys (Text.leads_precedes Prod.fst) perm

/-- A store after any assignments. Each name, in whatever case its letters are, has the value of the
last assignment to it, or else the one that it had. There is exactly one item for each variable that
the store had or that was assigned, in the spelling that was first used for it and with the value
that was last. The items sorted by name are the strictly increasing arrangement of these, whatever
order the store lists them in and in whatever order different variables were assigned. -/
theorem listed_after_assignments {v : Variables} (apart : Apart v.items)
    (calls : List (Text × Text)) :
    let after := v.setAll calls
    (∀ name, after.get? name = (latest? name calls).or (v.get? name)) ∧
      (∀ name, spelledAs name after.items = settled (spelledAs name (v.items ++ calls))) ∧
      after.sorted.Perm after.items ∧
      after.sorted.Pairwise (fun a b => Text.Before a.1 b.1) ∧
      (∀ listed : List (Text × Text), listed.Perm after.items → sorted ⟨listed⟩ = after.sorted) ∧
      ∀ others, (∀ name, spelledAs name others = spelledAs name calls) →
        (v.setAll others).sorted = after.sorted := by
  intro after
  have kept : Apart after.items := apart_setAll apart calls
  refine ⟨v.get?_setAll calls, spelledAs_setAll apart calls, after.sorted_perm,
    pairwise_sorted kept, fun listed perm => sorted_eq_of_perm (w := ⟨listed⟩) kept perm, ?_⟩
  intro others same
  refine sorted_eq_of_perm kept (perm_of_spelledAs (apart_setAll apart others) kept fun name => ?_)
  rw [spelledAs_setAll apart, spelledAs_setAll apart, spelledAs_append, same, spelledAs_append]

theorem listed_after_assignments_mixed :
    let v := Variables.setAll {} [("Path".toList, "/bin".toList)]
    let after := v.setAll [("home".toList, "/a".toList), ("PATH".toList, "/usr".toList),
      ("Home".toList, "/b".toList)]
    let others := v.setAll [("PATH".toList, "/usr".toList), ("home".toList, "/a".toList),
      ("Home".toList, "/b".toList)]
    Apart v.items ∧ after.get? "pAtH".toList = some "/usr".toList ∧
      spelledAs "HOME".toList after.items = [("home".toList, "/b".toList)] ∧
      after.sorted = [("Path".toList, "/usr".toList), ("home".toList, "/b".toList)] ∧
      others.sorted = after.sorted := by
  intro v after others
  have apart : Apart v.items := apart_setAll .nil _
  obtain ⟨found, listed, -, -, -, reordered⟩ := listed_after_assignments apart
    [("home".toList, "/a".toList), ("PATH".toList, "/usr".toList), ("Home".toList, "/b".toList)]
  have items : after.items = [("Path".toList, "/usr".toList), ("home".toList, "/b".toList)] := by
    decide
  have sorted : after.sorted = after.items := List.mergeSort_of_pairwise (by rw [items]; decide)
  refine ⟨apart, (found _).trans (by decide), (listed _).trans (by decide),
    sorted.trans items, ?_⟩
  refine reordered _ fun name => ?_
  cases home : sameName "home".toList name with
  | false => simp only [spelledAs_cons, home, Bool.false_eq_true, if_false]
  | true =>
      have path : sameName "PATH".toList name = false := by
        rw [sameName_comm, ← sameName_congr home]
        decide
      simp only [spelledAs_cons, path, Bool.false_eq_true, if_false]

end Variables

end CommandShell
