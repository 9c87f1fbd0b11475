import CommandShell.Proofs.Process.Maps
import Mathlib.Data.Set.Card

/-!
The registry as one ledger.

A ledger holds under each pid at most one tracked process, with the placement it has. Its operations
are those of the registry, said on this one map: which map a pid is in, and in which order the maps
are asked, does not show. The registry follows the ledger through every run of operations, in what
it holds and in what it answers.
-/
namespace CommandShell

/-- A partial map from pids to tracked processes, the next serial, and the tokens by which the end
of a process has been requested. -/
@[ext] structure Ledger where
  tracked : Pid → Option Tracked
  nextSerial : Serial
  cancelled : Set Token

/-- Something that is asked of the registry. -/
inductive Operation
  | insert (pid : Pid) (name : Text) (placement : Placement) (token : Token)
  | finish (pid : Pid) (serial : Serial) (state : ProcessState)
  | remove (pid : Pid) (serial : Serial)
  | kill (pid : Pid)
  | toForeground (pid : Pid)
  | drain
deriving DecidableEq, Repr

/-- What the registry answers to an operation. -/
inductive Receipt
  | serial (number : Serial)
  | nothing
  | hit (found : Bool)
  | foreground (answer : Foreground)
  | count (number : Nat)
deriving DecidableEq, Repr

/-- The serial that an answer gives to a new process. -/
def Receipt.serial? : Receipt → Option Serial
  | .serial number => some number
  | _ => none

/-- Whether an operation requests the end of what it evicts. -/
def Operation.ends : Operation → Bool
  | kill _ | drain => true
  | _ => false

namespace Ledger

/-- The ledger in which nothing has been tracked yet. -/
def empty : Ledger := ⟨fun _ => none, 0, ∅⟩

/-- Changes what is tracked under a pid, if anything is. -/
def change (l : Ledger) (pid : Pid) (f : Tracked → Option Tracked) : Ledger :=
  { l with tracked := fun p => if p = pid then (l.tracked pid).bind f else l.tracked p }

/-- The tokens of what is tracked under some pids. -/
def tokens (l : Ledger) (pids : Set Pid) : Set Token :=
  {token | ∃ pid ∈ pids, ∃ t, l.tracked pid = some t ∧ t.entry.token = token}

/-- What an operation does to a ledger, and what is answered. -/
noncomputable def perform (l : Ledger) : Operation → Ledger × Receipt
  | .insert pid name placement token =>
    let t : Tracked := ⟨placement, l.nextSerial, name, .running, token⟩
    ({ l with
        tracked := fun p => if p = pid then some t else l.tracked p
        nextSerial := l.nextSerial + 1 },
      .serial l.nextSerial)
  | .finish pid serial state =>
    (l.change pid fun t =>
      if t.entry.serial = serial then some ⟨t.placement, { t.entry with state }⟩ else some t,
      .nothing)
  | .remove pid serial =>
    (l.change pid fun t => if t.entry.serial = serial then none else some t, .nothing)
  | .kill pid =>
    ({ l.change pid fun _ => none with cancelled := l.cancelled ∪ l.tokens {pid} },
      .hit (l.tracked pid).isSome)
  | .toForeground pid =>
    (l.change pid Tracked.foregrounded?,
      .foreground ((l.tracked pid).elim .notFound Tracked.foregroundAnswer))
  | .drain =>
    ({ l with tracked := fun _ => none, cancelled := l.cancelled ∪ l.tokens Set.univ },
      .count {pid | (l.tracked pid).isSome}.ncard)

/-- A run of operations. -/
noncomputable def performAll : Ledger → List Operation → Ledger × List Receipt
  | l, [] => (l, [])
  | l, op :: rest =>
    let (l, reply) := l.perform op
    let (l, replies) := l.performAll rest
    (l, reply :: replies)

end Ledger

namespace Registry

/-- The ledger that a registry stands for. -/
def ledger (r : Registry) : Ledger := ⟨r.tracked?, r.nextSerial, {token | token ∈ r.cancelled}⟩

/-- What an operation does to a registry, and what is answered. -/
def perform (r : Registry) : Operation → Registry × Receipt
  | .insert pid name placement token =>
    (r.insert pid name placement token, .serial r.nextSerial)
  | .finish pid serial state => (r.finish pid serial state, .nothing)
  | .remove pid serial => (r.remove pid serial, .nothing)
  | .kill pid => let (r, hit) := r.kill pid; (r, .hit hit)
  | .toForeground pid => let (r, answer) := r.toForeground pid; (r, .foreground answer)
  | .drain => let (r, count) := r.drain; (r, .count count)

/-- A run of operations. -/
def performAll : Registry → List Operation → Registry × List Receipt
  | r, [] => (r, [])
  | r, op :: rest =>
    let (r, reply) := r.perform op
    let (r, replies) := r.performAll rest
    (r, reply :: replies)

theorem wellFormed_perform {r : Registry} (h : r.WellFormed) (op : Operation) :
    (r.perform op).1.WellFormed := by
  cases op with
  | insert pid name placement token => exact wellFormed_insert h pid name placement token
  | finish pid serial state => exact wellFormed_finish h pid serial state
  | remove pid serial => exact wellFormed_remove h pid serial
  | kill pid => exact wellFormed_kill h pid
  | toForeground pid => exact wellFormed_toForeground h pid
  | drain => exact wellFormed_drain r

theorem ledger_eq {r : Registry} {l : Ledger} (tracked : ∀ p, r.tracked? p = l.tracked p)
    (nextSerial : r.nextSerial = l.nextSerial)
    (cancelled : ∀ token, token ∈ r.cancelled ↔ token ∈ l.cancelled) : r.ledger = l :=
  Ledger.ext (funext tracked) nextSerial (Set.ext cancelled)

theorem ncard_tracked {r : Registry} (h : r.WellFormed) :
    {pid | (r.tracked? pid).isSome}.ncard = r.drain.2 := by
  have pids : {pid | (r.tracked? pid).isSome} =
      ((r.running ++ r.background).map Prod.fst).toFinset := by
    ext pid
    rw [Set.mem_ofPred_eq, ← mem_pids_iff h, List.coe_toFinset, Set.mem_ofPred_eq]
  rw [pids, Set.ncard_coe_finset, List.toFinset_card_of_nodup (pids_nodup h), List.length_map]
  rfl

/-- One operation on the two maps is the same operation on the one map. -/
theorem ledger_perform {r : Registry} (h : r.WellFormed) (op : Operation) :
    ((r.perform op).1.ledger, (r.perform op).2) = r.ledger.perform op := by
  cases op with
  | insert pid name placement token =>
      refine Prod.ext (ledger_eq (fun p => ?_) ?_ fun t => ?_) rfl
      · exact tracked?_insert r pid p name placement token
      · exact nextSerial_insert r pid name placement token
      · simp [perform, Ledger.perform, ledger]
  | finish pid serial state =>
      refine Prod.ext (ledger_eq (fun p => ?_) ?_ fun t => ?_) rfl
      · refine (tracked?_finish h pid p serial state).trans ?_
        by_cases hp : p = pid
        · subst hp
          cases found : r.tracked? p with
          | none => simp [Ledger.perform, Ledger.change, ledger, found]
          | some t =>
              by_cases same : t.entry.serial = serial <;>
                simp [Ledger.perform, Ledger.change, ledger, found, same]
        · simp [Ledger.perform, Ledger.change, ledger, hp]
      · exact nextSerial_finish r pid serial state
      · simp [perform, Ledger.perform, Ledger.change, ledger]
  | remove pid serial =>
      refine Prod.ext (ledger_eq (fun p => ?_) ?_ fun t => ?_) rfl
      · refine (tracked?_remove h pid p serial).trans ?_
        by_cases hp : p = pid <;> simp [Ledger.perform, Ledger.change, ledger, hp]
      · exact nextSerial_remove r pid serial
      · simp [perform, Ledger.perform, Ledger.change, ledger]
  | kill pid =>
      refine Prod.ext (ledger_eq (fun p => ?_) ?_ fun t => ?_) ?_
      · refine (tracked?_kill h pid p).trans ?_
        by_cases hp : p = pid <;> simp [Ledger.perform, Ledger.change, ledger, hp]
      · exact nextSerial_kill r pid
      · refine (mem_cancelled_kill h pid t).trans ?_
        simp [Ledger.perform, Ledger.change, Ledger.tokens, ledger, or_comm]
      · exact congrArg Receipt.hit (hit_kill h pid)
  | toForeground pid =>
      refine Prod.ext (ledger_eq (fun p => ?_) ?_ fun t => ?_) ?_
      · exact tracked?_toForeground h pid p
      · exact nextSerial_toForeground r pid
      · simp [perform, Ledger.perform, Ledger.change, ledger]
      · exact congrArg Receipt.foreground (answer_toForeground h pid)
  | drain =>
      refine Prod.ext (ledger_eq (fun p => rfl) rfl fun t => ?_) ?_
      · refine (mem_cancelled_drain h t).trans ?_
        simp [Ledger.perform, Ledger.tokens, ledger, or_comm]
      · exact congrArg Receipt.count (ncard_tracked h).symm

theorem wellFormed_performAll {r : Registry} (h : r.WellFormed) (ops : List Operation) :
    (r.performAll ops).1.WellFormed := by
  induction ops generalizing r with
  | nil => exact h
  | cons op rest ih => exact ih (wellFormed_perform h op)

/-- A run on the two maps is the same run on the one map, with the same answers. -/
theorem ledger_performAll {r : Registry} (h : r.WellFormed) (ops : List Operation) :
    ((r.performAll ops).1.ledger, (r.performAll ops).2) = r.ledger.performAll ops := by
  induction ops generalizing r with
  | nil => rfl
  | cons op rest ih =>
      have here := ledger_perform h op
      have later := ih (wellFormed_perform h op)
      simp only [performAll, Ledger.performAll, ← here, ← later]

/-- What is tracked after an operation is the process it has inserted, or was tracked under the same
pid before, with the same serial, name and token. -/
theorem tracked_perform {r : Registry} (h : r.WellFormed) {op : Operation} {pid : Pid} {t : Tracked}
    (after : (r.perform op).1.tracked? pid = some t) :
    (∃ name placement token, op = .insert pid name placement token ∧
      t = ⟨placement, r.nextSerial, name, .running, token⟩) ∨
    (∃ old, r.tracked? pid = some old ∧ old.entry.serial = t.entry.serial ∧
      old.entry.name = t.entry.name ∧ old.entry.token = t.entry.token) := by
  cases op with
  | insert p name placement token =>
      rw [perform, tracked?_insert] at after
      split at after
      · next same => exact .inl ⟨name, placement, token, by rw [same], by simpa using after.symm⟩
      · exact .inr ⟨t, after, rfl, rfl, rfl⟩
  | finish p serial state =>
      rw [perform, tracked?_finish h, Option.map_eq_some_iff] at after
      obtain ⟨old, found, rfl⟩ := after
      refine .inr ⟨old, found, ?_⟩
      split <;> exact ⟨rfl, rfl, rfl⟩
  | remove p serial =>
      rw [perform, tracked?_remove h, Option.bind_eq_some_iff] at after
      obtain ⟨old, found, kept⟩ := after
      split at kept
      · cases kept
      · cases kept
        exact .inr ⟨t, found, rfl, rfl, rfl⟩
  | kill p =>
      rw [show (r.perform (.kill p)).1 = (r.kill p).1 from rfl, tracked?_kill h] at after
      split at after
      · cases after
      · exact .inr ⟨t, after, rfl, rfl, rfl⟩
  | toForeground p =>
      rw [show (r.perform (.toForeground p)).1 = (r.toForeground p).1 from rfl,
        tracked?_toForeground h] at after
      split at after
      · next same =>
        subst same
        obtain ⟨old, found, moved⟩ := Option.bind_eq_some_iff.1 after
        refine .inr ⟨old, found, ?_⟩
        unfold Tracked.foregrounded? at moved
        split at moved
        · split at moved
          · cases moved
          · cases moved
            exact ⟨rfl, rfl, rfl⟩
        · cases moved
          exact ⟨rfl, rfl, rfl⟩
      · exact .inr ⟨t, after, rfl, rfl, rfl⟩
  | drain => cases after

/-- An operation gives out the next serial, or none. -/
theorem serial_perform (r : Registry) (op : Operation) :
    ((r.perform op).2.serial? = some r.nextSerial ∧
      (r.perform op).1.nextSerial = r.nextSerial + 1) ∨
    ((r.perform op).2.serial? = none ∧ (r.perform op).1.nextSerial = r.nextSerial) := by
  cases op with
  | insert pid name placement token =>
      exact .inl ⟨rfl, nextSerial_insert r pid name placement token⟩
  | finish pid serial state => exact .inr ⟨rfl, nextSerial_finish r pid serial state⟩
  | remove pid serial => exact .inr ⟨rfl, nextSerial_remove r pid serial⟩
  | kill pid => exact .inr ⟨rfl, nextSerial_kill r pid⟩
  | toForeground pid => exact .inr ⟨rfl, nextSerial_toForeground r pid⟩
  | drain => exact .inr ⟨rfl, rfl⟩

/-- The serials that a run gives out are consecutive. -/
theorem serials_performAll (r : Registry) (ops : List Operation) :
    ∃ count, (r.performAll ops).2.filterMap Receipt.serial? = List.range' r.nextSerial count := by
  induction ops generalizing r with
  | nil => exact ⟨0, rfl⟩
  | cons op rest ih =>
      obtain ⟨count, later⟩ := ih (r.perform op).1
      rcases serial_perform r op with ⟨given, next⟩ | ⟨given, next⟩
      · refine ⟨count + 1, ?_⟩
        rw [performAll, List.filterMap_cons_some given, later, next, List.range'_succ]
      · refine ⟨count, ?_⟩
        rw [performAll, List.filterMap_cons_none given, later, next]

/-- Different pids are tracked with different serials, all of them given out. -/
structure SerialsApart (r : Registry) : Prop where
  given : ∀ pid t, r.tracked? pid = some t → t.entry.serial < r.nextSerial
  apart : ∀ p q s t, r.tracked? p = some s → r.tracked? q = some t →
    s.entry.serial = t.entry.serial → p = q

theorem serialsApart_perform {r : Registry} (h : r.WellFormed) (apart : r.SerialsApart)
    (op : Operation) : (r.perform op).1.SerialsApart := by
  have grows : r.nextSerial ≤ (r.perform op).1.nextSerial := by
    rcases serial_perform r op with ⟨-, next⟩ | ⟨-, next⟩
    · exact next ▸ Nat.le_succ r.nextSerial
    · exact next ▸ Nat.le_refl r.nextSerial
  constructor
  · intro pid t after
    rcases tracked_perform h after with ⟨name, placement, token, rfl, rfl⟩ | ⟨old, found, same, -⟩
    · simp [perform]
    · exact same ▸ Nat.lt_of_lt_of_le (apart.given pid old found) grows
  · intro p q s t after after' equal
    rcases tracked_perform h after with ⟨name, placement, token, rfl, rfl⟩ | ⟨old, found, same, -⟩
    · rcases tracked_perform h after' with ⟨_, _, _, inserted, -⟩ | ⟨old', found', same', -⟩
      · exact (Operation.insert.inj inserted).1
      · have below := apart.given q old' found'
        rw [same', ← equal] at below
        exact absurd below (Nat.lt_irrefl r.nextSerial)
    · rcases tracked_perform h after' with ⟨_, _, _, -, rfl⟩ | ⟨old', found', same', -⟩
      · have below := apart.given p old found
        rw [same, equal] at below
        exact absurd below (Nat.lt_irrefl r.nextSerial)
      · exact apart.apart p q old old' found found' (by rw [same, same', equal])

theorem serialsApart_performAll {r : Registry} (h : r.WellFormed) (apart : r.SerialsApart)
    (ops : List Operation) : (r.performAll ops).1.SerialsApart := by
  induction ops generalizing r with
  | nil => exact apart
  | cons op rest ih => exact ih (wellFormed_perform h op) (serialsApart_perform h apart op)

/-- An operation that requests the end of what it evicts evicts a process with this token. -/
def Evicts (r : Registry) (op : Operation) (token : Token) : Prop :=
  op.ends = true ∧ ∃ pid t, r.tracked? pid = some t ∧
    (r.perform op).1.tracked? pid = none ∧ t.entry.token = token

theorem mem_cancelled_perform {r : Registry} (h : r.WellFormed) (op : Operation) (token : Token) :
    token ∈ (r.perform op).1.cancelled ↔ r.Evicts op token ∨ token ∈ r.cancelled := by
  cases op with
  | insert pid name placement token =>
      simp [perform, Evicts, Operation.ends]
  | finish pid serial state => simp [perform, Evicts, Operation.ends]
  | remove pid serial => simp [perform, Evicts, Operation.ends]
  | toForeground pid => simp [perform, Evicts, Operation.ends]
  | kill pid =>
      refine (mem_cancelled_kill h pid token).trans (or_congr_left ?_)
      simp only [Evicts, perform, Operation.ends, true_and, tracked?_kill h]
      constructor
      · rintro ⟨t, found, rfl⟩
        exact ⟨pid, t, found, by simp, rfl⟩
      · rintro ⟨p, t, found, gone, rfl⟩
        split at gone
        · next same => exact ⟨t, same ▸ found, rfl⟩
        · rw [found] at gone
          cases gone
  | drain =>
      refine (mem_cancelled_drain h token).trans (or_congr_left ?_)
      simp [Evicts, perform, Operation.ends]

/-- The cancelled tokens of a run are those of the processes that a kill or a drain has evicted. -/
theorem mem_cancelled_performAll {r : Registry} (h : r.WellFormed) (ops : List Operation)
    (token : Token) :
    token ∈ (r.performAll ops).1.cancelled ↔
      (∃ before op after, ops = before ++ op :: after ∧
        (r.performAll before).1.Evicts op token) ∨ token ∈ r.cancelled := by
  induction ops generalizing r with
  | nil => simp [performAll]
  | cons op rest ih =>
      rw [performAll]
      refine (ih (wellFormed_perform h op)).trans ?_
      rw [mem_cancelled_perform h]
      constructor
      · rintro (⟨before, later, after, rfl, evicts⟩ | evicts | old)
        · exact .inl ⟨op :: before, later, after, rfl, evicts⟩
        · exact .inl ⟨[], op, rest, rfl, evicts⟩
        · exact .inr old
      · rintro (⟨before, later, after, split, evicts⟩ | old)
        · cases before with
          | nil =>
              obtain ⟨rfl, rfl⟩ := List.cons.inj split
              exact .inr (.inl evicts)
          | cons first before =>
              obtain ⟨rfl, rfl⟩ := List.cons.inj split
              exact .inl ⟨before, later, after, rfl, evicts⟩
        · exact .inr (.inr old)

theorem ledger_empty : ledger {} = Ledger.empty :=
  ledger_eq (fun _ => rfl) rfl fun _ => by simp [Ledger.empty]

theorem serialsApart_empty : SerialsApart {} := ⟨nofun, nofun⟩

/-- After every run of operations from an empty registry: what is held and answered is what the
ledger holds and answers, no pid is in both maps, serials are distinct, exactly the tokens of
killed and drained processes are cancelled, and each listing is its placement in order. -/
theorem performAll_agrees_with_ledger (ops : List Operation) :
    let r := (performAll {} ops).1
    let l := (Ledger.performAll Ledger.empty ops).1
    (r.ledger = l ∧ (performAll {} ops).2 = (Ledger.performAll Ledger.empty ops).2) ∧
    (∀ pid, ¬(r.contains pid .running = true ∧ r.contains pid .background = true)) ∧
    (((performAll {} ops).2.filterMap Receipt.serial?).Nodup ∧
      ∀ p q s t, l.tracked p = some s → l.tracked q = some t →
        s.entry.serial = t.entry.serial → p = q) ∧
    (∀ token, r.isCancelled token = true ↔
      ∃ before op after, ops = before ++ op :: after ∧
        (performAll {} before).1.Evicts op token) ∧
    ((r.jobs.map Job.pid).Pairwise (· < ·) ∧
      ∀ job, job ∈ r.jobs ↔ ∃ entry, l.tracked job.pid = some ⟨.background, entry⟩ ∧
        job.name = entry.name ∧ job.state = entry.state) ∧
    (r.runningPids.Pairwise (· < ·) ∧
      ∀ pid, pid ∈ r.runningPids ↔ ∃ entry, l.tracked pid = some ⟨.running, entry⟩) := by
  intro r l
  have formed : r.WellFormed := wellFormed_performAll wellFormed_empty ops
  have refines := ledger_performAll wellFormed_empty ops
  rw [ledger_empty] at refines
  have same : r.ledger = l := congrArg Prod.fst refines
  have apart := serialsApart_performAll wellFormed_empty serialsApart_empty ops
  refine ⟨⟨same, congrArg Prod.snd refines⟩, ?_, ⟨?_, ?_⟩, ?_, ⟨?_, ?_⟩, ?_, ?_⟩
  · rintro pid ⟨running, background⟩
    obtain ⟨entry, found⟩ := (contains_iff formed pid .running).1 running
    obtain ⟨entry', found'⟩ := (contains_iff formed pid .background).1 background
    rw [found] at found'
    cases found'
  · obtain ⟨count, given⟩ := serials_performAll {} ops
    rw [given]
    exact List.nodup_range' 1
  · rw [← same]
    exact apart.apart
  · intro token
    rw [isCancelled_iff, mem_cancelled_performAll wellFormed_empty]
    simp
  · rw [pids_jobs]
    exact ProcessMap.pids_sorted formed.background
  · rw [← same]
    exact mem_jobs_iff formed
  · exact ProcessMap.pids_sorted formed.running
  · rw [← same]
    exact mem_runningPids_iff formed

end Registry

end CommandShell
