import CommandShell.Machine.Standard
import CommandShell.Shell.Execution
import Mathlib.Data.List.Forall2

/-!
Starting the stages of a pipeline. All of them run or none does: when one cannot be started, those
before it are killed and waited for, those after it are never started, and what is left is the
failure of that one stage. The registry, the supervisors and the events see nothing of it.
-/
namespace CommandShell

namespace Child

/-- A process that has been killed by some time, then or before. -/
def killedAt (c : Child) (time : Nat) : Child := { c with killed := some (c.killed.getD time) }

@[simp] theorem pid_killedAt (c : Child) (time : Nat) : (c.killedAt time).pid = c.pid := rfl

/-- A process that has been started and nothing else. -/
structure IsNew (c : Child) : Prop where
  run : c.run = {}
  killed : c.killed = none

/-- A process that has not been fed has done nothing, and ends when it is killed. -/
theorem IsNew.ending?_killedAt {c : Child} (h : c.IsNew) (time : Nat) :
    (c.killedAt time).ending? = some (time, Status.killed) := by
  rw [ending?, killedAt, h.run, h.killed]
  rfl

end Child

namespace Machine

/-- The machine with some more processes at the end of its table. -/
def populate (m : Machine) (new : List Child) : Machine :=
  { m with nextPid := m.nextPid + new.length, children := m.children ++ new }

/-- A process as it stands in the table when it has just been started. -/
def born (m : Machine) (l : Launch) (image : Program.Image) : Child :=
  { pid := m.nextPid, image, vars := l.vars, directory := l.directory, started := m.clock }

theorem populate_nil (m : Machine) : m.populate [] = m := by
  simp [populate]

theorem populate_populate (m : Machine) (new more : List Child) :
    (m.populate new).populate more = m.populate (new ++ more) := by
  simp [populate, Nat.add_assoc]

/-- A launch fails or finds its program whatever processes there are on the machine. -/
theorem spawn_cases (m : Machine) (l : Launch) :
    (∃ cause, ∀ new, (m.populate new).spawn l = .error cause) ∨
    ∃ image, ∀ new, (m.populate new).spawn l =
      .ok ((m.populate new).populate [(m.populate new).born l image], (m.populate new).nextPid) := by
  cases nul : hasNul l with
  | true => exact .inl ⟨.nulInData, fun new => by simp [spawn, nul]⟩
  | false =>
      cases place : m.files.contentAt l.directory with
      | error cause => exact .inl ⟨cause, fun new => by simp [spawn, nul, populate, place]⟩
      | ok content =>
          cases content with
          | directory entries =>
              -- The pid that the call would have is not looked at.
              have find (pid : Pid) :
                  Program.find l.path ⟨l.path, l.arguments, l.vars, l.directory, {}, pid, m.files⟩ =
                  Program.find l.path ⟨l.path, l.arguments, l.vars, l.directory, {}, 0, m.files⟩ :=
                rfl
              cases found : Program.find l.path
                  ⟨l.path, l.arguments, l.vars, l.directory, {}, 0, m.files⟩ with
              | error cause =>
                  refine .inl ⟨cause, fun new => ?_⟩
                  simp [spawn, nul, populate, place, find, found]
              | ok image =>
                  refine .inr ⟨image, fun new => ?_⟩
                  simp [spawn, nul, populate, place, find, found, born]
          | file | link | void =>
              exact .inl ⟨.notDirectory, fun new => by simp [spawn, nul, populate, place]⟩

/-- The processes with a pid, when they have been killed. -/
def killed (m : Machine) (pid : Pid) : List Child :=
  (m.children.filter fun c => c.pid == pid).map (·.killedAt m.clock)

/-- A process with a pid of its own is the only one that is killed under it. -/
theorem killed_populate {m : Machine} {new : List Child} {c : Child} (member : c ∈ new)
    (distinct : (new.map Child.pid).Nodup) (unused : c.pid ∉ m.children.map Child.pid) :
    (m.populate new).killed c.pid = [c.killedAt m.clock] := by
  have before : m.children.filter (fun d => d.pid == c.pid) = [] := by
    rw [List.filter_eq_nil_iff]
    intro d old same
    exact unused (List.mem_map.2 ⟨d, old, by simpa using same⟩)
  have alone : new.filter (fun d => d.pid == c.pid) = [c] := by
    obtain ⟨first, later, rfl⟩ := List.append_of_mem member
    have apart : ∀ d ∈ first ++ later, ¬(d.pid == c.pid) = true := by
      have moved := (List.perm_middle.map Child.pid).nodup_iff.1 distinct
      rw [List.map_cons, List.nodup_cons] at moved
      intro d other same
      exact moved.1 (List.mem_map.2 ⟨d, other, by simpa using same⟩)
    obtain ⟨before, after⟩ := List.forall_mem_append.1 apart
    rw [List.filter_append, List.filter_cons_of_pos (by simp), List.filter_eq_nil_iff.2 before,
      List.filter_eq_nil_iff.2 after]
    rfl
  rw [killed, populate, List.filter_append, before, alone]
  rfl

/-- To destroy a process is to kill it and then to wait for it. -/
theorem destroy_eq (m : Machine) (pid : Pid) :
    m.destroy pid = { m with
      children := m.children.filter fun c => c.pid != pid
      waited := m.waited ++ m.killed pid } := by
  cases found : m.child? pid with
  | none =>
      have none : m.children.filter (fun c => c.pid == pid) = [] := by
        simpa [child?] using found
      simp [destroy, kill, found, reap, killed, none]
  | some c =>
      have kept (cs : List Child) :
          (cs.map fun c => if c.pid = pid then c.killedAt m.clock else c).filter
            (fun c => c.pid != pid) = cs.filter fun c => c.pid != pid := by
        induction cs with
        | nil => rfl
        | cons c rest ih => by_cases same : c.pid = pid <;> simp [same, ih]
      have gone (cs : List Child) :
          (cs.map fun c => if c.pid = pid then c.killedAt m.clock else c).filter
            (fun c => c.pid == pid) = (cs.filter fun c => c.pid == pid).map (·.killedAt m.clock) := by
        induction cs with
        | nil => rfl
        | cons c rest ih => by_cases same : c.pid = pid <;> simp [same, ih]
      have reached : (m.kill pid).1 = m.update pid (·.killedAt m.clock) := by
        rw [kill, found]
        rfl
      rw [destroy, reached, reap, update, kept, gone]
      rfl

theorem foldl_destroy {pids : List Pid} (distinct : pids.Nodup) (m : Machine) :
    pids.foldl destroy m = { m with
      children := m.children.filter fun c => c.pid ∉ pids
      waited := m.waited ++ pids.flatMap m.killed } := by
  induction pids generalizing m with
  | nil => simp
  | cons pid rest ih =>
      obtain ⟨apart, distinct⟩ := List.nodup_cons.1 distinct
      have both (c : Child) :
          (decide (c.pid ∉ rest) && c.pid != pid) = decide (c.pid ∉ pid :: rest) := by
        by_cases same : c.pid = pid <;> simp [same]
      have later (more : List Child) : ∀ other ∈ rest,
          killed { m with
            children := m.children.filter fun c => c.pid != pid
            waited := more } other = m.killed other := by
        intro other member
        have ne : other ≠ pid := fun same => apart (same ▸ member)
        simp only [killed, List.filter_filter]
        congr 2
        funext c
        by_cases same : c.pid = other <;> simp [same, ne]
      rw [List.foldl_cons, destroy_eq, ih distinct, List.flatMap_congr (later _),
        List.flatMap_cons, ← List.append_assoc]
      simp only [List.filter_filter, both]

end Machine

namespace State

/-- The state with some more processes on its machine, of which it knows nothing. -/
def populate (s : State) (new : List Child) : State :=
  { s with machine := s.machine.populate new }

/-- How the program of a stage is launched from a path. -/
def launch (s : State) (path : Text) (stage : Stage) : Launch where
  path
  arguments := stage.arguments.map Line.unquote
  vars := s.environment.vars.sorted
  directory := s.environment.directory

/-- Whether a stage can be started: its name leads to a program, and that can be spawned. -/
def Starts (s : State) (stage : Stage) : Prop :=
  ∃ path, s.resolveCommand stage.command = some path ∧
    (s.machine.spawn (s.launch path stage)).isOk = true

/-- How a stage fails to start: its name leads to no program, or the program cannot be spawned. -/
inductive FailsToStart (s : State) (stage : Stage) : Result → Prop
  | unresolved (unknown : s.resolveCommand stage.command = none) :
      FailsToStart s stage (Result.failure ('\'' :: stage.command ++
        "' is not recognized as an internal or external command.".toList) 1)
  | unspawned {path : Text} {cause : IoError}
      (found : s.resolveCommand stage.command = some path)
      (refused : s.machine.spawn (s.launch path stage) = .error cause) :
      FailsToStart s stage (Result.failure cause.message (-1))

theorem populate_nil (s : State) : s.populate [] = s := by
  rw [populate, Machine.populate_nil]

theorem begin_populate (s : State) (new : List Child) (stage : Stage) :
    (s.populate new).begin stage.command stage.arguments =
      match s.resolveCommand stage.command with
      | none => .error (.notRecognized stage.command)
      | some path =>
        match (s.machine.populate new).spawn (s.launch path stage) with
        | .error cause => .error (.notStarted cause)
        | .ok (machine, pid) => .ok ({ s with machine }, pid) := rfl

/-- A process is started under the next pid, and nothing else changes. -/
theorem exists_populate_of_begin {s s' : State} {command : Text} {arguments : List Text} {pid : Pid}
    (h : s.begin command arguments = .ok (s', pid)) :
    ∃ l image, s' = s.populate [s.machine.born l image] ∧ pid = s.machine.nextPid := by
  unfold begin at h
  split at h
  · cases h
  · next path _ =>
    rcases s.machine.spawn_cases ⟨path, arguments.map Line.unquote, s.environment.vars.sorted,
        s.environment.directory⟩ with ⟨cause, fails⟩ | ⟨image, runs⟩
    · have spawned := fails []
      rw [Machine.populate_nil] at spawned
      rw [spawned] at h
      cases h
    · have spawned := runs []
      rw [Machine.populate_nil] at spawned
      rw [spawned] at h
      cases h
      exact ⟨_, image, rfl, rfl⟩

theorem begin_of_starts {s : State} {stage : Stage} (h : s.Starts stage) (new : List Child) :
    ∃ c : Child, c.pid = s.machine.nextPid + new.length ∧
      (s.populate new).begin stage.command stage.arguments =
        .ok (s.populate (new ++ [c]), c.pid) ∧ c.IsNew := by
  obtain ⟨path, found, spawned⟩ := h
  rcases s.machine.spawn_cases (s.launch path stage) with ⟨cause, fails⟩ | ⟨image, runs⟩
  · have alone := fails []
    rw [Machine.populate_nil] at alone
    rw [alone] at spawned
    cases spawned
  · refine ⟨(s.machine.populate new).born (s.launch path stage) image, rfl, ?_, rfl, rfl⟩
    rw [begin_populate, found]
    dsimp only
    rw [runs, Machine.populate_populate]
    rfl

theorem begin_of_failsToStart {s : State} {stage : Stage} {r : Result}
    (h : s.FailsToStart stage r) (new : List Child) :
    ∃ error, (s.populate new).begin stage.command stage.arguments = .error error ∧
      error.result = r := by
  cases h with
  | unresolved unknown =>
      exact ⟨.notRecognized stage.command, by rw [begin_populate, unknown], rfl⟩
  | @unspawned path cause found refused =>
      refine ⟨.notStarted cause, ?_, rfl⟩
      rcases s.machine.spawn_cases (s.launch path stage) with ⟨other, fails⟩ | ⟨image, runs⟩
      · have alone := fails []
        rw [Machine.populate_nil, refused] at alone
        cases alone
        rw [begin_populate, found]
        dsimp only
        rw [fails]
      · have alone := runs []
        rw [Machine.populate_nil, refused] at alone
        cases alone

/-- Where each stage of some can be started at any time, so can all of them in order. -/
theorem beginAll_of_each {s : State} {α : Type} {R : Stage → α → Prop} {P : Child → α → Prop}
    (each : ∀ stage a, R stage a → ∀ new : List Child, ∃ c : Child,
      c.pid = s.machine.nextPid + new.length ∧
      (s.populate new).begin stage.command stage.arguments =
        .ok (s.populate (new ++ [c]), c.pid) ∧ P c a)
    {stages : List Stage} {items : List α} (all : List.Forall₂ R stages items) (new : List Child)
    (started : List Pid) :
    ∃ more : List Child,
      more.map Child.pid = List.range' (s.machine.nextPid + new.length) stages.length ∧
      (s.populate new).beginAll started stages =
        .ok (s.populate (new ++ more), started ++ more.map Child.pid) ∧
      List.Forall₂ P more items := by
  induction all generalizing new started with
  | nil => exact ⟨[], rfl, by simp [beginAll], .nil⟩
  | @cons stage a rest items here later ih =>
      obtain ⟨c, pid, began, shows⟩ := each stage a here new
      obtain ⟨more, pids, all, shows'⟩ := ih (new ++ [c]) (started ++ [c.pid])
      refine ⟨c :: more, ?_, ?_, .cons shows shows'⟩
      · rw [List.map_cons, pids, pid, List.length_cons, List.range'_succ, List.length_append]
        rfl
      · rw [beginAll, began]
        dsimp only
        rw [all, List.append_assoc, List.append_assoc]
        rfl

theorem beginAll_of_starts {s : State} {stages : List Stage}
    (starts : ∀ stage ∈ stages, s.Starts stage) :
    ∃ new : List Child, new.map Child.pid = List.range' s.machine.nextPid stages.length ∧
      s.beginAll [] stages = .ok (s.populate new, new.map Child.pid) ∧ ∀ c ∈ new, c.IsNew := by
  obtain ⟨new, pids, all, each⟩ := beginAll_of_each (R := fun stage _ => s.Starts stage)
    (P := fun c _ => c.IsNew ∧ True)
    (fun _ _ starts new => by simpa using begin_of_starts starts new)
    (List.forall₂_same.2 starts) [] []
  rw [populate_nil, List.nil_append, List.nil_append] at all
  exact ⟨new, pids, all, ((List.forall₂_and_left _ _).1 each).1⟩

theorem beginAll_append (s : State) (started : List Pid) (first later : List Stage) :
    s.beginAll started (first ++ later) =
      match s.beginAll started first with
      | .ok (s, started) => s.beginAll started later
      | .error undone => .error undone := by
  induction first generalizing s started with
  | nil => rfl
  | cons stage rest ih =>
      rw [List.cons_append, beginAll, beginAll]
      cases s.begin stage.command stage.arguments with
      | error error => rfl
      | ok begun => exact ih begun.1 (started ++ [begun.2])

theorem runStages_of_undone {s undone : State} {stages : List Stage} {error : ShellError}
    (h : s.beginAll [] stages = .error (undone, error)) (input : Text) (cancelled : Bool) :
    s.runStages stages input cancelled = (undone, error.result) := by
  cases stages with
  | nil => cases h
  | cons stage rest => rw [runStages, List.isEmpty_cons, if_neg Bool.false_ne_true, h]

/-- Where a stage is the first that fails to start, exactly the stages before it have been started.
Each of them is killed and has ended by that when it is waited for, one after the other, and nothing
else is waited for. No more is left of them than the pids that they have used up and the memory of
the waits. The result is the failure of that stage. -/
theorem runStages_of_first_failure {s : State} {before : List Stage} {failing : Stage}
    {r : Result} (starts : ∀ stage ∈ before, s.Starts stage) (fails : s.FailsToStart failing r)
    (later : List Stage) (input : Text) (cancelled : Bool) :
    ∃ new gone : List Child,
      s.beginAll [] before = .ok (s.populate new, new.map Child.pid) ∧
      new.map Child.pid = List.range' s.machine.nextPid before.length ∧
      (∀ c ∈ new, c.killedAt s.machine.clock ∈ gone ∧
        (c.killedAt s.machine.clock).ending? = some (s.machine.clock, Status.killed)) ∧
      (∀ c ∈ gone, c.pid ∈ new.map Child.pid) ∧
      ((∀ c ∈ s.machine.children, c.pid < s.machine.nextPid) →
        gone = new.map (·.killedAt s.machine.clock)) ∧
      let ended : Machine := { s.machine with
        nextPid := s.machine.nextPid + before.length
        children := s.machine.children.filter fun c => c.pid ∉ new.map Child.pid
        waited := s.machine.waited ++ gone }
      s.runStages (before ++ failing :: later) input cancelled = ({ s with machine := ended }, r) ∧
      ∀ pipeline : Pipeline, pipeline.stages = before ++ failing :: later →
        s.runPipeline pipeline cancelled = ({ s with machine := ended }, r) := by
  obtain ⟨new, pids, began, isNew⟩ := beginAll_of_starts starts
  obtain ⟨error, refused, rfl⟩ := begin_of_failsToStart fails new
  have distinct : (new.map Child.pid).Nodup := pids ▸ List.nodup_range'
  have count : new.length = before.length := by simpa using congrArg List.length pids
  have emptied : new.filter (fun c => c.pid ∉ new.map Child.pid) = [] := by
    rw [List.filter_eq_nil_iff]
    intro c member
    simpa using ⟨c, member, rfl⟩
  let gone := (new.map Child.pid).flatMap (s.machine.populate new).killed
  have destroyed : (new.map Child.pid).foldl Machine.destroy (s.machine.populate new) =
      { s.machine with
        nextPid := s.machine.nextPid + before.length
        children := s.machine.children.filter fun c => c.pid ∉ new.map Child.pid
        waited := s.machine.waited ++ gone } := by
    rw [Machine.foldl_destroy distinct]
    simp only [Machine.populate, List.filter_append, emptied, List.append_nil, count, gone]
  have undone : s.beginAll [] (before ++ failing :: later) = .error ({ s with machine :=
      { s.machine with
        nextPid := s.machine.nextPid + before.length
        children := s.machine.children.filter fun c => c.pid ∉ new.map Child.pid
        waited := s.machine.waited ++ gone } }, error) := by
    rw [beginAll_append, began]
    dsimp only
    rw [beginAll, refused, ← destroyed]
    rfl
  refine ⟨new, gone, began, pids, fun c member => ⟨?_, (isNew c member).ending?_killedAt _⟩, ?_, ?_,
    runStages_of_undone undone input cancelled, ?_⟩
  · refine List.mem_flatMap.2 ⟨c.pid, List.mem_map_of_mem member, List.mem_map_of_mem ?_⟩
    simp [Machine.populate, member]
  · intro c member
    obtain ⟨pid, there, killed⟩ := List.mem_flatMap.1 member
    obtain ⟨d, same, rfl⟩ := List.mem_map.1 killed
    have named : d.pid = pid := by simpa using (List.mem_filter.1 same).2
    rw [Child.pid_killedAt, named]
    exact there
  · intro numbered
    have each : ∀ c ∈ new,
        (s.machine.populate new).killed c.pid = [c.killedAt s.machine.clock] := by
      intro c member
      refine Machine.killed_populate member distinct fun used => ?_
      obtain ⟨d, old, same⟩ := List.mem_map.1 used
      have given : c.pid ∈ List.range' s.machine.nextPid before.length :=
        pids ▸ List.mem_map_of_mem member
      have small : c.pid < s.machine.nextPid := same ▸ numbered d old
      exact absurd (List.mem_range'_1.1 given).1 (Nat.not_le.2 small)
    calc gone
      _ = new.flatMap fun c => (s.machine.populate new).killed c.pid := List.flatMap_map ..
      _ = new.flatMap fun c => [c.killedAt s.machine.clock] := List.flatMap_congr each
      _ = new.map (·.killedAt s.machine.clock) := List.map_eq_flatMap.symm
  · intro pipeline stages
    rw [runPipeline, stages]
    exact runStages_of_undone undone [] cancelled

theorem runStages_of_unknown_third :
    let search := "/usr/bin".toList
    let s := State.start { assets := [] } [("PATH".toList, search)]
      (Machine.standard 0 "/home".toList)
    let before : List Stage := [⟨"sleep".toList, [['5']], false⟩, ⟨"sort".toList, [], false⟩]
    let failing : Stage := ⟨"doesnotexist123".toList, [], false⟩
    (∀ stage ∈ before, s.Starts stage) ∧
    ∃ gone : List Child,
      gone.map (fun c => (c.pid, c.ending?)) =
        [(400001, some (0, Status.killed)), (400002, some (0, Status.killed))] ∧
      s.runStages (before ++ [failing, ⟨"wc".toList, [], false⟩]) "in".toList false =
        ({ s with machine := { s.machine with nextPid := 400003, waited := gone } },
          Result.failure
            "'doesnotexist123' is not recognized as an internal or external command.".toList 1) := by
  intro search s before failing
  have vars : s.environment.vars.sorted =
      [("PATH".toList, search), (Environment.promptName, defaultPrompt)] := by
    have items : s.environment.vars.items =
        [("PATH".toList, search), (Environment.promptName, defaultPrompt)] := by decide +kernel
    rw [Variables.sorted, items]
    simp [List.mergeSort, List.MergeSort.Internal.splitInTwo, List.merge]
    decide
  have starts : ∀ stage ∈ before, s.Starts stage := by
    intro stage member
    simp only [before, List.mem_cons, List.not_mem_nil, or_false] at member
    rcases member with rfl | rfl
    · refine ⟨"/usr/bin/sleep".toList, by decide +kernel, ?_⟩
      rw [launch, vars]
      decide +kernel
    · refine ⟨"/usr/bin/sort".toList, by decide +kernel, ?_⟩
      rw [launch, vars]
      decide +kernel
  have fails : s.FailsToStart failing _ := .unresolved (by decide +kernel)
  obtain ⟨new, gone, -, pids, killed, -, all, result, -⟩ :=
    runStages_of_first_failure starts fails [⟨"wc".toList, [], false⟩] "in".toList false
  have empty : s.machine.children = [] := rfl
  have same := all (by rw [empty]; exact nofun)
  refine ⟨starts, gone, ?_, result⟩
  calc gone.map (fun c => (c.pid, c.ending?))
    _ = new.map fun c => (c.pid, some (0, Status.killed)) := by
      rw [same, List.map_map]
      exact List.map_congr_left fun c member => congrArg (Prod.mk c.pid) (killed c member).2
    _ = (new.map Child.pid).map fun pid => (pid, some (0, Status.killed)) := by
      rw [List.map_map]
      rfl
    _ = _ := by
      rw [pids]
      rfl

end State
end CommandShell
