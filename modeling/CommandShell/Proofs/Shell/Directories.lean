import CommandShell.Builtin.Directory
import CommandShell.Files.Tree
import CommandShell.Files.Write
import Mathlib.Data.List.Induction

/-!
The stack of directories. A push opens a bracket and a pop closes one, whether or not the directory
that it returns to is still there; nothing else touches the stack, and the files may be others at
every call. So a pop leads back to the directory that its bracket was opened in.
-/
namespace CommandShell

/-- A way of moving between directories. -/
inductive Movement
  | change (path : Text)
  | push (path : Text)
  | pop
deriving DecidableEq, Repr

/-- A movement and the files that it finds. -/
structure DirectoryCall where
  movement : Movement
  files : Files

/-- What a movement comes to. -/
inductive Effect
  | changed
  | pushed
  | popped
  /-- The directory to return to has vanished. -/
  | gone
  /-- There is no directory to return to. -/
  | empty
  | refused
deriving DecidableEq, Repr

/-- The number of open brackets after an effect, from that before it. -/
def Effect.level : Effect → Nat → Option Nat
  | .pushed, n => some (n + 1)
  | .popped, n + 1 | .gone, n + 1 => some n
  | .popped, 0 | .gone, 0 => none
  | .changed, n | .empty, n | .refused, n => some n

/-- The number of brackets that are open behind some effects, unless one of them closes a bracket
that was not opened. -/
def level (n : Nat) (effects : List Effect) : Option Nat :=
  effects.foldlM (fun n x => x.level n) n

theorem level_concat (n : Nat) (effects : List Effect) (x : Effect) :
    level n (effects ++ [x]) = (level n effects).bind x.level := by
  simp [level, List.foldlM_append]

theorem isAbsolute_path (place : Place) : Path.isAbsolute place.path = true := by
  cases names : place.reverse.map Prod.fst <;>
    simp [Place.path, names, Path.ofNames, Path.isAbsolute]

theorem Files.isAbsolute_of_canonical {f : Files} {path directory : Text}
    (h : f.canonical path = .ok directory) : Path.isAbsolute directory = true := by
  rw [canonical] at h
  cases located : f.locate true path with
  | error cause => rw [located] at h; cases h
  | ok place =>
      rw [located] at h
      cases h
      exact isAbsolute_path place

namespace Environment

/-- Every directory of an environment is given from the root. -/
structure Absolute (e : Environment) : Prop where
  directory : Path.isAbsolute e.directory = true
  stack : ∀ d ∈ e.stack, Path.isAbsolute d = true

/-- The environment after a call, and what the call has come to. -/
def perform (e : Environment) (c : DirectoryCall) : Environment × Effect :=
  match c.movement with
  | .change path =>
    match e.changeDirectory? c.files path with
    | some changed => (changed, .changed)
    | none => (e, .refused)
  | .push path =>
    match e.pushDirectory? c.files path with
    | some changed => (changed, .pushed)
    | none => (e, .refused)
  | .pop =>
    match e.popDirectory c.files with
    | (changed, .ok _) => (changed, .popped)
    | (changed, .error (.missing _)) => (changed, .gone)
    | (changed, .error .empty) => (changed, .empty)

/-- The environment after some calls. -/
def performAll (e : Environment) (calls : List DirectoryCall) : Environment :=
  calls.foldl (fun e c => (e.perform c).1) e

/-- What some calls come to. -/
def effects (e : Environment) : List DirectoryCall → List Effect
  | [] => []
  | c :: rest => (e.perform c).2 :: (e.perform c).1.effects rest

theorem performAll_append (e : Environment) (a b : List DirectoryCall) :
    e.performAll (a ++ b) = (e.performAll a).performAll b := List.foldl_append

theorem effects_append (e : Environment) (a b : List DirectoryCall) :
    e.effects (a ++ b) = e.effects a ++ (e.performAll a).effects b := by
  induction a generalizing e with
  | nil => rfl
  | cons c a ih => exact congrArg _ (ih _)

/-- What each effect does to the directory and the stack. -/
inductive Does (e : Environment) (files : Files) : Effect → Environment → Prop
  | changed {directory : Text} (absolute : Path.isAbsolute directory = true) :
    Does e files .changed { e with directory }
  | pushed {directory : Text} (absolute : Path.isAbsolute directory = true) :
    Does e files .pushed { e with directory, stack := e.directory :: e.stack }
  | popped {directory : Text} {stack : List Text} (top : e.stack = directory :: stack)
    (there : files.isDirectory directory = true) : Does e files .popped { e with directory, stack }
  | gone {lost : Text} {stack : List Text} (top : e.stack = lost :: stack)
    (vanished : files.isDirectory lost = false) : Does e files .gone { e with stack }
  | empty (none : e.stack = []) : Does e files .empty e
  | refused : Does e files .refused e

theorem exists_of_changeDirectory? {e changed : Environment} {files : Files} {path : Text}
    (h : e.changeDirectory? files path = some changed) :
    ∃ directory, Path.isAbsolute directory = true ∧ changed = { e with directory } := by
  unfold changeDirectory? at h
  split at h
  · next directory found =>
    split at h
    · cases h
      exact ⟨directory, Files.isAbsolute_of_canonical found, rfl⟩
    · cases h
  · cases h

theorem exists_of_pushDirectory? {e changed : Environment} {files : Files} {path : Text}
    (h : e.pushDirectory? files path = some changed) :
    ∃ directory, Path.isAbsolute directory = true ∧
      changed = { e with directory, stack := e.directory :: e.stack } := by
  obtain ⟨other, moved, rfl⟩ := Option.map_eq_some_iff.1 h
  obtain ⟨directory, absolute, rfl⟩ := exists_of_changeDirectory? moved
  exact ⟨directory, absolute, rfl⟩

theorem does_perform (e : Environment) (c : DirectoryCall) :
    e.Does c.files (e.perform c).2 (e.perform c).1 := by
  obtain ⟨movement, files⟩ := c
  cases movement with
  | change path =>
      cases moved : e.changeDirectory? files path with
      | none => simpa [perform, moved] using Does.refused
      | some changed =>
          obtain ⟨directory, absolute, rfl⟩ := exists_of_changeDirectory? moved
          simpa [perform, moved] using Does.changed absolute
  | push path =>
      cases moved : e.pushDirectory? files path with
      | none => simpa [perform, moved] using Does.refused
      | some changed =>
          obtain ⟨directory, absolute, rfl⟩ := exists_of_pushDirectory? moved
          simpa [perform, moved] using Does.pushed absolute
  | pop =>
      cases top : e.stack with
      | nil => simpa [perform, popDirectory, top] using Does.empty top
      | cons directory stack =>
          cases there : files.isDirectory directory with
          | false => simpa [perform, popDirectory, top, there] using Does.gone top there
          | true => simpa [perform, popDirectory, top, there] using Does.popped top there

namespace Does
variable {e after : Environment} {files : Files}

theorem of_pushed (h : e.Does files .pushed after) : after.stack = e.directory :: e.stack := by
  cases h
  rfl

theorem of_popped (h : e.Does files .popped after) : e.stack = after.directory :: after.stack := by
  cases h with
  | popped top => exact top

theorem of_gone (h : e.Does files .gone after) :
    ∃ lost, e.stack = lost :: after.stack ∧ files.isDirectory lost = false ∧
      after = { e with stack := after.stack } := by
  cases h with
  | gone top vanished => exact ⟨_, top, vanished, rfl⟩

theorem of_empty (h : e.Does files .empty after) : e.stack = [] ∧ after = e := by
  cases h with
  | empty none => exact ⟨none, rfl⟩

theorem of_refused (h : e.Does files .refused after) : after = e := by
  cases h
  rfl

end Does

/-- A call touches only the entries of the brackets that are open. -/
theorem Does.stack_append {e after : Environment} {files : Files} {x : Effect}
    (h : e.Does files x after) {top base : List Text} (stack : e.stack = top ++ base) {n : Nat}
    (open? : x.level top.length = some n) :
    ∃ top', after.stack = top' ++ base ∧ top'.length = n := by
  cases h with
  | changed | empty | refused =>
      cases open?
      exact ⟨top, stack, rfl⟩
  | pushed =>
      cases open?
      exact ⟨e.directory :: top, congrArg (e.directory :: ·) stack, rfl⟩
  | popped first | gone first =>
      cases top with
      | nil => cases open?
      | cons d rest =>
          cases open?
          rw [first, List.cons_append, List.cons.injEq] at stack
          exact ⟨rest, stack.2, rfl⟩

/-- Some calls touch only the entries of the brackets that are open. -/
theorem stack_performAll {e : Environment} {top base : List Text} (stack : e.stack = top ++ base)
    {calls : List DirectoryCall} {n : Nat} (open? : level top.length (e.effects calls) = some n) :
    ∃ top', (e.performAll calls).stack = top' ++ base ∧ top'.length = n := by
  induction calls generalizing e top with
  | nil =>
      cases open?
      exact ⟨top, stack, rfl⟩
  | cons c rest ih =>
      obtain ⟨m, here, later⟩ := Option.bind_eq_some_iff.1 open?
      obtain ⟨top', stack', rfl⟩ := (e.does_perform c).stack_append stack here
      exact ih stack' later

/-- Calls among which every bracket is closed leave the stack as it was. -/
theorem stack_of_closed {e : Environment} {calls : List DirectoryCall}
    (closed : level 0 (e.effects calls) = some 0) : (e.performAll calls).stack = e.stack := by
  have base : e.stack = [] ++ e.stack := rfl
  obtain ⟨top, stack, none⟩ := stack_performAll base closed
  rw [stack, List.eq_nil_of_length_eq_zero none, List.nil_append]

/-- In a run from `e`, the call that follows `outer` opens a bracket, and behind `inner`, the calls
that come next, that bracket is still open with `n` others inside it. -/
structure Opens (e : Environment) (n : Nat) (outer : List DirectoryCall) (push : DirectoryCall)
    (inner : List DirectoryCall) : Prop where
  pushed : ((e.performAll outer).perform push).2 = .pushed
  level : level 0 ((e.performAll (outer ++ [push])).effects inner) = some n

theorem Opens.concat {e : Environment} {n m : Nat} {outer inner : List DirectoryCall}
    {push : DirectoryCall} (h : e.Opens n outer push inner) (c : DirectoryCall)
    (next : ((e.performAll (outer ++ push :: inner)).perform c).2.level n = some m) :
    e.Opens m outer push (inner ++ [c]) := by
  refine ⟨h.pushed, ?_⟩
  have place : (e.performAll (outer ++ [push])).performAll inner =
      e.performAll (outer ++ push :: inner) := by
    rw [← performAll_append, List.append_assoc, List.singleton_append]
  rw [effects_append, effects, effects, level_concat, h.level, place]
  exact next

/-- Every entry of the stack is one of the stack that the run began with, or the directory in which
the bracket was opened that is open at its depth. -/
theorem exists_opens (e : Environment) (calls : List DirectoryCall) {n : Nat} {d : Text}
    (entry : (e.performAll calls).stack[n]? = some d) :
    d ∈ e.stack ∨ ∃ outer push inner, calls = outer ++ push :: inner ∧
      e.Opens n outer push inner ∧ d = (e.performAll outer).directory := by
  induction calls using List.reverseRecOn generalizing n with
  | nil => exact .inl (List.mem_of_getElem? entry)
  | append_singleton before c ih =>
      -- An entry that was there before stays that of its bracket, at the depth it now has.
      have kept {m : Nat} (old : (e.performAll before).stack[m]? = some d)
          (next : ((e.performAll before).perform c).2.level m = some n) :
          d ∈ e.stack ∨ ∃ outer push inner, before ++ [c] = outer ++ push :: inner ∧
            e.Opens n outer push inner ∧ d = (e.performAll outer).directory := by
        refine (ih old).imp_right ?_
        rintro ⟨outer, push, inner, rfl, opens, directory⟩
        exact ⟨outer, push, inner ++ [c], by simp, opens.concat c next, directory⟩
      have after : e.performAll (before ++ [c]) = ((e.performAll before).perform c).1 :=
        performAll_append e before [c]
      have does := (e.performAll before).does_perform c
      rw [after] at entry
      generalize moved : (e.performAll before).perform c = outcome at entry does kept
      obtain ⟨now, x⟩ := outcome
      cases does with
      | changed | empty | refused => exact kept entry rfl
      | pushed =>
          cases n with
          | succ n => exact kept entry rfl
          | zero =>
              cases entry
              exact .inr ⟨before, c, [], rfl, ⟨congrArg Prod.snd moved, rfl⟩, rfl⟩
      | popped top | gone top => exact kept (m := n + 1) (by rw [top]; exact entry) rfl

theorem Does.absolute {e after : Environment} {files : Files} {x : Effect}
    (h : e.Does files x after) (absolute : e.Absolute) : after.Absolute := by
  cases h with
  | changed found => exact ⟨found, absolute.stack⟩
  | pushed found => exact ⟨found, List.forall_mem_cons.2 ⟨absolute.directory, absolute.stack⟩⟩
  | popped top =>
      have entries := absolute.stack
      rw [top] at entries
      exact ⟨(List.forall_mem_cons.1 entries).1, (List.forall_mem_cons.1 entries).2⟩
  | gone top =>
      have entries := absolute.stack
      rw [top] at entries
      exact ⟨absolute.directory, (List.forall_mem_cons.1 entries).2⟩
  | empty | refused => exact absolute

theorem absolute_performAll {e : Environment} (absolute : e.Absolute)
    (calls : List DirectoryCall) : (e.performAll calls).Absolute := by
  induction calls generalizing e with
  | nil => exact absolute
  | cons c rest ih => exact ih ((e.does_perform c).absolute absolute)

/-- A pop that closes the bracket of a push leads back to where this was made. -/
theorem Opens.stack {e : Environment} {outer inner : List DirectoryCall} {push : DirectoryCall}
    (h : e.Opens 0 outer push inner) :
    (e.performAll (outer ++ push :: inner)).stack =
      (e.performAll outer).directory :: (e.performAll outer).stack := by
  have does := (e.performAll outer).does_perform push
  rw [h.pushed] at does
  rw [← List.singleton_append, ← List.append_assoc, performAll_append, stack_of_closed h.level,
    performAll_append]
  exact does.of_pushed

/-- Whatever calls have been made and whatever has become of the files since: a call that is refused
and a pop of the empty stack change nothing, a pop whose directory has vanished takes its entry away
and nothing else, and a pop that succeeds leads exactly to where the push was made whose bracket it
closes, if it does not return to an entry that the stack began with. -/
theorem perform_after_performAll (e : Environment) (before : List DirectoryCall)
    (c : DirectoryCall) :
    let now := e.performAll before
    let after := (now.perform c).1
    let effect := (now.perform c).2
    (effect = .refused → after = now) ∧
      (effect = .empty → now.stack = [] ∧ after = now) ∧
      (effect = .gone → ∃ lost, now.stack = lost :: after.stack ∧
        c.files.isDirectory lost = false ∧ after = { now with stack := after.stack }) ∧
      (effect = .popped →
        (∀ outer push inner, before = outer ++ push :: inner → e.Opens 0 outer push inner →
          after.directory = (e.performAll outer).directory ∧
            after.stack = (e.performAll outer).stack) ∧
        (after.directory ∈ e.stack ∨ ∃ outer push inner, before = outer ++ push :: inner ∧
          e.Opens 0 outer push inner)) ∧
      (e.Absolute → after.Absolute) := by
  intro now after effect
  have does : now.Does c.files effect after := now.does_perform c
  have absolute (start : e.Absolute) : after.Absolute :=
    does.absolute (absolute_performAll start before)
  refine ⟨fun refused => ?_, fun empty => ?_, fun gone => ?_, fun popped => ?_, absolute⟩
  · rw [refused] at does
    exact does.of_refused
  · rw [empty] at does
    exact does.of_empty
  · rw [gone] at does
    exact does.of_gone
  · rw [popped] at does
    have top := does.of_popped
    refine ⟨?_, ?_⟩
    · rintro outer push inner rfl opens
      exact List.cons.inj (top.symm.trans opens.stack)
    · refine (e.exists_opens before (n := 0) (congrArg (·[0]?) top)).imp_right ?_
      rintro ⟨outer, push, inner, split, opens, -⟩
      exact ⟨outer, push, inner, split, opens⟩

theorem perform_after_performAll_vanished :
    let files :=
      ["/etc".toList, "/home".toList, "/tmp".toList, "/usr".toList].foldl
        Files.layDirectory (.empty 0)
    let fewer := (files.removeTree "/usr".toList).files
    let e := Environment.start { assets := [] } [] "/home".toList []
    let before := [⟨.push "/tmp".toList, files⟩, ⟨.push "gone".toList, files⟩,
      ⟨.change "../usr".toList, files⟩, ⟨.push "/etc".toList, files⟩, ⟨.pop, fewer⟩]
    let c : DirectoryCall := ⟨.pop, fewer⟩
    e.effects (before ++ [c]) = [.pushed, .refused, .changed, .pushed, .gone, .popped] ∧
      ((e.performAll before).perform c).1.directory = "/home".toList ∧
      ((e.performAll before).perform c).1.Absolute := by
  intro files fewer e before c
  have effects : e.effects (before ++ [c]) =
      [.pushed, .refused, .changed, .pushed, .gone, .popped] := by decide +kernel
  have last : ((e.performAll before).perform c).2 = .popped := by decide +kernel
  have opens : e.Opens 0 [] ⟨.push "/tmp".toList, files⟩ before.tail :=
    ⟨by decide +kernel, by decide +kernel⟩
  obtain ⟨-, -, -, popped, absolute⟩ := e.perform_after_performAll before c
  exact ⟨effects, ((popped last).1 [] _ before.tail rfl opens).1, absolute ⟨rfl, nofun⟩⟩

end Environment

/-- Whether an effect is a success. -/
def Effect.succeeds : Effect → Bool
  | .changed | .pushed | .popped => true
  | .gone | .empty | .refused => false

/-- An outcome that is a movement and nothing else, and a success exactly if the movement is. -/
def State.Moves (s : State) (m : Movement) (outcome : State × Answer) : Prop :=
  outcome.1 = s.withEnvironment (s.environment.perform ⟨m, s.files⟩).1 ∧
    ∃ r, outcome.2 = .result r ∧ r.success = (s.environment.perform ⟨m, s.files⟩).2.succeeds

namespace Builtin
variable (name : Text) {words : List Text} (s : State)

/-- The path that some words of a command spell. -/
def spelledPath (words : List Text) : Text := Text.unwords (words.map Line.unquote)

theorem moves_cd (given : words ≠ []) (help : words ≠ [helpWord]) :
    s.Moves (.change (spelledPath words)) ((cd name).invoke words s) := by
  unfold State.Moves Environment.perform spelledPath
  cases moved : s.environment.changeDirectory? s.files (Text.unwords (words.map Line.unquote)) <;>
    simp [invoke, cd, ofSignature_eq, Signature.many, help, given, moved, say, refuse, reply,
      Answer.contained, Effect.succeeds, State.withEnvironment, Result.ok, Result.failure]

theorem moves_pushd (help : words ≠ [helpWord]) :
    s.Moves (.push (if words = [] then s.environment.home else spelledPath words))
      ((pushd name).invoke words s) := by
  unfold State.Moves Environment.perform spelledPath
  generalize path : (if words = [] then s.environment.home
    else Text.unwords (words.map Line.unquote)) = target
  cases moved : s.environment.pushDirectory? s.files target <;>
    simp [invoke, pushd, ofSignature_eq, Signature.many, help, path, moved, say, refuse, reply,
      Answer.contained, Effect.succeeds, State.withEnvironment, Result.ok, Result.failure]

theorem moves_popd : s.Moves .pop ((popd name).invoke [] s) := by
  have other : [] ≠ [helpWord] := nofun
  unfold State.Moves Environment.perform invoke popd
  rw [ofSignature_eq]
  dsimp only
  rw [if_neg other]
  cases s.environment.popDirectory s.files with
  | mk environment answer =>
      rcases answer with (_ | path) | directory <;> exact ⟨rfl, _, rfl, rfl⟩

end Builtin

end CommandShell
