import CommandShell.Proofs.Shell.Effects

/-!
What holds of a shell as long as it runs. Every process has a pid below the next one, every token
by which an end has been requested is below the next one, and whatever is tracked has its
supervisor. So what is given out next is new, in the first line of a shell and in every later one.

Only two things bring something new in: a process is started, and it gets a supervisor. All else
that a line does leaves processes out, takes steps of supervisors, or makes requests.
-/
namespace CommandShell

namespace Machine

/-- A machine on which no process has been started since another one. -/
structure Keeps (m m' : Machine) : Prop where
  nextPid : m'.nextPid = m.nextPid
  pids : ∀ c ∈ m'.children, ∃ d ∈ m.children, d.pid = c.pid

namespace Keeps

theorem refl (m : Machine) : m.Keeps m := ⟨rfl, fun c member => ⟨c, member, rfl⟩⟩

theorem trans {m m' m'' : Machine} (first : m.Keeps m') (second : m'.Keeps m'') : m.Keeps m'' where
  nextPid := second.nextPid.trans first.nextPid
  pids c member := by
    obtain ⟨d, there, same⟩ := second.pids c member
    obtain ⟨e, before, same'⟩ := first.pids d there
    exact ⟨e, before, same'.trans same⟩

end Keeps

variable (m : Machine)

theorem keeps_files (files : Files) : m.Keeps { m with files } := ⟨rfl, (Keeps.refl m).pids⟩

theorem keeps_advance (time : Nat) : m.Keeps (m.advance time) := ⟨rfl, (Keeps.refl m).pids⟩

theorem keeps_update (pid : Pid) {change : Child → Child} (own : ∀ c, (change c).pid = c.pid) :
    m.Keeps (m.update pid change) where
  nextPid := rfl
  pids c member := by
    obtain ⟨d, there, rfl⟩ := List.mem_map.1 member
    refine ⟨d, there, ?_⟩
    split
    · exact (own d).symm
    · rfl

theorem keeps_feed (pid : Pid) (input : Supply) : m.Keeps (m.feed pid input) := by
  unfold feed
  split
  · exact .refl m
  · next c found =>
    exact (m.keeps_files _).trans (keeps_update _ pid fun _ => rfl)

theorem keeps_feedChain (cut : Bool) (input : Supply) (pids : List Pid) :
    m.Keeps (m.feedChain cut input pids) := by
  fun_induction feedChain m cut input pids with
  | case1 m => exact .refl m
  | case2 m input pid => exact m.keeps_feed pid input
  | case3 m input pid next rest fed ih =>
      have piped : (m.feed pid input).Keeps fed := keeps_update _ pid fun _ => rfl
      exact ((m.keeps_feed pid input).trans piped).trans ih

theorem keeps_breakPipe (writer reader : Pid) : m.Keeps (m.breakPipe writer reader) := by
  unfold breakPipe
  split
  · exact .refl m
  · split
    · exact .refl m
    · refine m.keeps_update writer fun c => ?_
      split <;> rfl

theorem keeps_breakPipes (pids : List Pid) : m.Keeps (m.breakPipes pids) := by
  fun_induction breakPipes m pids with
  | case1 writer reader rest ih => exact ih.trans (keeps_breakPipe _ writer reader)
  | case2 => exact .refl m

theorem keeps_kill (pid : Pid) : m.Keeps (m.kill pid).1 := by
  unfold kill
  split
  · exact .refl m
  · exact m.keeps_update pid fun _ => rfl

theorem keeps_killAny (pid : Pid) : m.Keeps (m.killAny pid).1 := by
  unfold killAny
  split
  · exact .refl m
  · exact m.keeps_kill pid

theorem keeps_reap (pid : Pid) : m.Keeps (m.reap pid) :=
  ⟨rfl, fun c member => ⟨c, List.mem_of_mem_filter member, rfl⟩⟩

theorem keeps_destroyAll (pids : List Pid) : m.Keeps (pids.foldl destroy m) := by
  induction pids generalizing m with
  | nil => exact .refl m
  | cons pid rest ih =>
      exact ((m.keeps_kill pid).trans (keeps_reap _ pid)).trans (ih (m.destroy pid))

end Machine

namespace State

/-- A state in which what is given out next is new, and what is tracked has its supervisor. -/
structure Orderly (s : State) : Prop extends Fresh s where
  sound : s.supervision.Sound

theorem orderly_start (config : Config) (inherited : List (Text × Text)) {m : Machine}
    (empty : m.children = []) : (State.start config inherited m).Orderly :=
  ⟨fresh_start config inherited empty, Supervision.sound_empty⟩

section Steps
variable {s s' : State} (h : s.Orderly)
include h

theorem orderly_of_keeps (same : s'.supervision = s.supervision)
    (keeps : s.machine.Keeps s'.machine) : s'.Orderly where
  children c member := by
    obtain ⟨d, there, pid⟩ := keeps.pids c member
    rw [keeps.nextPid, ← pid]
    exact h.children d there
  supervisors t ht := by
    rw [keeps.nextPid]
    exact h.supervisors t (same ▸ ht)
  tokens := same ▸ h.tokens
  sound := same ▸ h.sound

theorem orderly_advance {n : Serial} {v : Supervision} (step : s.supervision.Advance n v) :
    Orderly { s with supervision := v } where
  children := h.children
  supervisors t ht := by
    obtain ⟨f, supervisors, becomes⟩ := h.sound.numbered.supervisors_advance step
    rw [supervisors] at ht
    obtain ⟨u, hu, rfl⟩ := List.mem_map.1 ht
    rw [(becomes u hu).pid]
    exact h.supervisors u hu
  tokens token asked := by
    rw [Supervision.cancelled_advance step] at asked
    rw [Supervision.nextToken_advance step]
    exact h.tokens token asked
  sound := Supervision.sound_advance h.sound step

theorem orderly_request {r : Registry} (allowed : s.supervision.Allows r)
    (requests : s.supervision.registry.Requests r) :
    Orderly { s with supervision := { s.supervision with registry := r } } where
  children := h.children
  supervisors := h.supervisors
  tokens := Supervision.given_of_requests h.sound h.tokens requests
  sound := Supervision.sound_of_allows h.sound allowed _

omit h in
/-- The supervisor of an ended process takes its steps, and the process leaves the table. -/
theorem orderly_conclude {seen : Supervision} (orderly : Orderly { s with supervision := seen })
    (serial : Serial) (c : Child) : (s.conclude serial c seen).Orderly := by
  let told : State := { s with supervision := seen.emitAll (lineEvents c) }
  have first : told.Orderly := ⟨⟨orderly.children, orderly.supervisors, orderly.tokens⟩,
    Supervision.sound_of_allows orderly.sound (Supervision.allows_same orderly.sound) _⟩
  have steps := orderly_advance (orderly_advance (orderly_advance first
    (Supervision.advance_record _ serial)) (Supervision.advance_release _ serial))
    (Supervision.advance_announce _ serial)
  exact orderly_of_keeps steps rfl (s.machine.keeps_reap c.pid)

theorem orderly_settleOne (t : Supervisor) : (s.settleOne t).Orderly := by
  unfold settleOne
  split
  · exact h
  split
  · have killed : Orderly { s with machine := (s.machine.kill t.pid).1 } :=
      orderly_of_keeps h rfl (s.machine.keeps_kill t.pid)
    dsimp only
    split
    · have heeded := orderly_advance killed (Supervision.advance_heed _ t.serial)
      exact orderly_conclude (orderly_advance heeded (Supervision.advance_seeEnd _ t.serial _)) _ _
    · exact killed
  · split
    · exact orderly_conclude (orderly_advance h (Supervision.advance_seeEnd _ t.serial _)) _ _
    · exact h

theorem orderly_settle : s.settle.Orderly := by
  unfold settle
  generalize s.supervision.supervisors = supervisors
  induction supervisors generalizing s with
  | nil => exact h
  | cons t rest ih => exact ih (orderly_settleOne h t)

theorem orderly_await (pids : List Pid) (last : Pid) (cancelled : Bool) :
    (s.await pids last cancelled).1.Orderly := by
  unfold await
  split
  · next time _ =>
    have advanced : (s.advance time).Orderly :=
      orderly_of_keeps h rfl (s.machine.keeps_advance time)
    exact orderly_settle advanced
  · exact h

end Steps

/-- Some processes that have been started, but have no supervisor yet. -/
structure Unsupervised (s : State) (pids : List Pid) : Prop where
  nodup : pids.Nodup
  given : ∀ pid ∈ pids, pid < s.machine.nextPid
  apart : ∀ pid ∈ pids, ∀ t ∈ s.supervision.supervisors, t.pid ≠ pid

theorem unsupervised_nil (s : State) : s.Unsupervised [] := ⟨List.nodup_nil, nofun, nofun⟩

theorem Unsupervised.of_keeps {s s' : State} {pids : List Pid} (alone : s.Unsupervised pids)
    (same : s'.supervision = s.supervision) (keeps : s.machine.Keeps s'.machine) :
    s'.Unsupervised pids :=
  ⟨alone.nodup, keeps.nextPid ▸ alone.given, same ▸ alone.apart⟩

section Starting
variable {s s' : State} (h : s.Orderly)
include h

theorem orderly_begin {command : Text} {arguments : List Text} {pid : Pid} {started : List Pid}
    (alone : s.Unsupervised started) (begun : s.begin command arguments = .ok (s', pid)) :
    s'.Orderly ∧ s'.Unsupervised (started ++ [pid]) := by
  obtain ⟨l, image, rfl, rfl⟩ := exists_populate_of_begin begun
  constructor
  · refine ⟨⟨?_, fun t ht => Nat.lt_succ_of_lt (h.supervisors t ht), h.tokens⟩, h.sound⟩
    refine List.forall_mem_append.2 ⟨fun c old => Nat.lt_succ_of_lt (h.children c old), ?_⟩
    exact List.forall_mem_singleton.2 (Nat.lt_succ_self _)
  · refine ⟨?_, List.forall_mem_append.2 ⟨?_, ?_⟩, List.forall_mem_append.2 ⟨alone.apart, ?_⟩⟩
    · refine List.nodup_append.2 ⟨alone.nodup, List.nodup_singleton _, fun pid old => ?_⟩
      exact List.forall_mem_singleton.2 (Nat.ne_of_lt (alone.given pid old))
    · exact fun pid old => Nat.lt_succ_of_lt (alone.given pid old)
    · exact List.forall_mem_singleton.2 (Nat.lt_succ_self _)
    · exact List.forall_mem_singleton.2 fun t ht => Nat.ne_of_lt (h.supervisors t ht)

/-- Some stages are all started, or those that have been are killed again. -/
theorem orderly_beginAll {started : List Pid} (alone : s.Unsupervised started)
    (stages : List Stage) :
    match s.beginAll started stages with
    | .ok (s', pids) => s'.Orderly ∧ s'.Unsupervised pids
    | .error (s', _) => s'.Orderly := by
  induction stages generalizing s started with
  | nil => exact ⟨h, alone⟩
  | cons stage rest ih =>
      rw [beginAll]
      cases begun : s.begin stage.command stage.arguments with
      | error error => exact orderly_of_keeps h rfl (s.machine.keeps_destroyAll started)
      | ok next =>
          obtain ⟨orderly, more⟩ := orderly_begin h alone begun
          exact ih orderly more

/-- A process that has no supervisor gets one. -/
theorem orderly_supervise {pid : Pid} (given : pid < s.machine.nextPid)
    (apart : ∀ t ∈ s.supervision.supervisors, t.pid ≠ pid) (name : Text) (placement : Placement) :
    (s.supervise pid name placement).Orderly where
  children := h.children
  supervisors := List.forall_mem_append.2 ⟨h.supervisors, List.forall_mem_singleton.2 given⟩
  tokens token asked := by
    simp only [supervise, Supervision.start, Registry.cancelled_insert] at asked ⊢
    exact Nat.lt_succ_of_lt (h.tokens token asked)
  sound := Supervision.sound_start h.sound name placement fun t ht same => absurd same (apart t ht)

theorem orderly_superviseAll {pids : List Pid} (alone : s.Unsupervised pids)
    (stages : List Stage) : (s.superviseAll pids stages).Orderly := by
  induction pids generalizing s stages with
  | nil => exact h
  | cons pid rest ih =>
      cases stages with
      | nil => exact h
      | cons stage stages =>
          obtain ⟨other, distinct⟩ := List.nodup_cons.1 alone.nodup
          obtain ⟨given, later⟩ := List.forall_mem_cons.1 alone.given
          obtain ⟨apart, others⟩ := List.forall_mem_cons.1 alone.apart
          have first := orderly_supervise h given apart stage.command .running
          refine ih first ⟨distinct, later, fun p hp => ?_⟩ stages
          refine List.forall_mem_append.2 ⟨others p hp, List.forall_mem_singleton.2 ?_⟩
          rintro rfl
          exact other hp

/-- A process that has been started is fed, and then gets its supervisor. -/
theorem orderly_supervise_feed {pid : Pid} (alone : s.Unsupervised [pid]) (name : Text)
    (placement : Placement) :
    (supervise { s with machine := s.machine.feed pid {} } pid name placement).Orderly := by
  have keeps := s.machine.keeps_feed pid {}
  have fed : Orderly { s with machine := s.machine.feed pid {} } := orderly_of_keeps h rfl keeps
  have member := List.mem_singleton_self pid
  exact orderly_supervise fed (keeps.nextPid ▸ alone.given pid member) (alone.apart pid member)
    name placement

theorem orderly_execute (command : Text) (arguments : List Text) (cancelled : Bool) :
    (s.execute command arguments cancelled).1.Orderly := by
  rw [execute]
  split
  · exact h
  · next begun =>
    obtain ⟨orderly, alone⟩ := orderly_begin h (unsupervised_nil s) begun
    exact orderly_await (orderly_supervise_feed orderly alone command .running) _ _ _

theorem orderly_executeBackground (command : Text) (arguments : List Text) :
    (s.executeBackground command arguments).1.Orderly := by
  rw [executeBackground]
  split
  · exact h
  · next begun =>
    obtain ⟨orderly, alone⟩ := orderly_begin h (unsupervised_nil s) begun
    exact orderly_supervise_feed orderly alone command .background

theorem orderly_runStages (stages : List Stage) (input : Text) (cancelled : Bool) :
    (s.runStages stages input cancelled).1.Orderly := by
  have begun := orderly_beginAll h (unsupervised_nil s) stages
  rw [runStages]
  split
  · exact h
  · split
    · next failed => rwa [failed] at begun
    · next ran pids ok =>
      rw [ok] at begun
      obtain ⟨orderly, alone⟩ := begun
      let supply : Supply := if cancelled then {} else { bytes := Text.encode input }
      let fed : State :=
        { ran with machine := (ran.machine.feedChain cancelled supply pids).breakPipes pids }
      have keeps : ran.machine.Keeps fed.machine :=
        (ran.machine.keeps_feedChain cancelled supply pids).trans (Machine.keeps_breakPipes _ pids)
      have fed : fed.Orderly := orderly_of_keeps orderly rfl keeps
      exact orderly_await (orderly_superviseAll fed (alone.of_keeps rfl keeps) stages) _ _ _

theorem orderly_kill (pid : Pid) : (s.kill pid).1.Orderly := by
  unfold kill
  split
  · next killed =>
    obtain rfl := congrArg Prod.fst killed
    exact orderly_request h (Supervision.allows_kill h.sound pid)
      (Registry.requests_kill h.sound.formed pid)
  · exact orderly_of_keeps h rfl (s.machine.keeps_killAny pid)

theorem orderly_toForeground (pid : Pid) : (s.toForeground pid).1.Orderly :=
  orderly_request h (Supervision.allows_toForeground h.sound pid)
    (Registry.requests_toForeground h.sound.formed pid)

end Starting

end State

namespace Builtin

/-- A state that is another one up to the environment and the files. -/
def Beside (s s' : State) : Prop :=
  s'.supervision = s.supervision ∧ ∃ files, s'.machine = { s.machine with files }

theorem beside_self (s : State) : Beside s s := ⟨rfl, s.files, rfl⟩

theorem beside_withEnvironment (s : State) (environment : Environment) :
    Beside s (s.withEnvironment environment) := beside_self s

theorem beside_withFiles (s : State) (files : Files) : Beside s (s.withFiles files) :=
  ⟨rfl, files, rfl⟩

/-- A command that changes nothing but the environment and the files, whatever it is given. -/
def Confined (b : Builtin) : Prop := ∀ words (s : State), Beside s (b.run words s).1

section Signatures
variable {α : Type} {name : Text} {description doc : String} {signature : Signature α}
  {body : α → State → State × Answer}

theorem confined_ofSignature
    (h : ∀ operands (s : State), Beside s (body operands s).1) :
    (ofSignature name description doc signature body).Confined := by
  intro words s
  rw [ofSignature_eq]
  dsimp only
  split
  · exact beside_self s
  · split
    · exact h _ s
    · exact beside_self s

end Signatures

section Commands
variable (name : Text)

theorem confined_cd : (cd name).Confined := by
  refine confined_ofSignature fun words s => ?_
  split
  · exact beside_self s
  · dsimp only
    split
    · exact beside_withEnvironment s _
    · exact beside_self s

theorem confined_dir : (dir name).Confined := by
  refine confined_ofSignature fun words s => ?_
  dsimp only
  split
  · exact beside_self s
  · split <;> exact beside_self s

theorem confined_pwd : (pwd name).Confined := confined_ofSignature fun _ s => beside_self s

theorem confined_pushd : (pushd name).Confined := by
  refine confined_ofSignature fun words s => ?_
  dsimp only
  split
  · exact beside_withEnvironment s _
  · exact beside_self s

theorem confined_popd : (popd name).Confined := by
  refine confined_ofSignature fun _ s => ?_
  dsimp only
  split <;> exact beside_withEnvironment s _

theorem beside_changed (s : State) (command done path : Text) (change : Change) :
    Beside s (changed s command done path change).1 := by
  unfold changed
  dsimp only
  split <;> exact beside_withFiles s _

theorem confined_mkdir : (mkdir name).Confined := by
  refine confined_ofSignature fun words s => ?_
  split
  · exact beside_self s
  · exact beside_changed s _ _ _ _

theorem confined_rmdir : (rmdir name).Confined := by
  refine confined_ofSignature fun words s => ?_
  split
  · exact beside_self s
  · exact beside_changed s _ _ _ _

theorem confined_del : (del name).Confined := by
  refine confined_ofSignature fun words s => ?_
  split
  · exact beside_self s
  · dsimp only
    split <;> exact beside_withFiles s _

theorem beside_transferred (s : State) (command done source target : Text)
    (files : Except Stopped Files) :
    Beside s (transferred s command done source target files).1 := by
  cases files <;> exact beside_withFiles s _

theorem confined_copy : (copy name).Confined :=
  confined_ofSignature fun _ s => beside_transferred s _ _ _ _ _

theorem confined_move : (move name).Confined :=
  confined_ofSignature fun _ s => beside_transferred s _ _ _ _ _

theorem confined_type : (type name).Confined := by
  refine confined_ofSignature fun words s => ?_
  split
  · exact beside_self s
  · dsimp only
    split <;> exact beside_self s

theorem confined_echo : (echo name).Confined := by
  intro words s
  rw [run_echo]
  exact beside_self s

theorem confined_set : (set name).Confined := by
  refine confined_ofSignature fun words s => ?_
  split
  · exact beside_self s
  · split
    · exact beside_withEnvironment s _
    · exact beside_self s

theorem confined_env : (env name).Confined := confined_ofSignature fun _ s => beside_self s

theorem confined_clear : (clear name).Confined := confined_ofSignature fun _ s => beside_self s

theorem confined_exit : (exit name).Confined := confined_ofSignature fun _ s => beside_self s

theorem confined_history : (history name).Confined := confined_ofSignature fun _ s => beside_self s

theorem confined_prompt : (prompt name).Confined := by
  refine confined_ofSignature fun words s => ?_
  split
  · exact beside_self s
  · exact beside_withEnvironment s _

theorem confined_help : (help name).Confined := confined_ofSignature fun _ s => beside_self s

theorem confined_art (description : String) : (art description name).Confined := by
  intro words s
  unfold art
  dsimp only
  split
  · exact beside_self s
  · split <;> exact beside_self s

theorem confined_jobs : (jobs name).Confined := confined_ofSignature fun _ s => beside_self s

theorem confined_bg : (bg name).Confined := by
  refine confined_ofSignature fun pid s => ?_
  split <;> exact beside_self s

end Commands

/-- A command that leaves an orderly state orderly. -/
def Careful (b : Builtin) : Prop := ∀ words (s : State), s.Orderly → (b.run words s).1.Orderly

theorem Confined.careful {b : Builtin} (h : b.Confined) : b.Careful := by
  intro words s orderly
  obtain ⟨same, files, machine⟩ := h words s
  refine State.orderly_of_keeps orderly same ?_
  rw [machine]
  exact s.machine.keeps_files files

section Processes
variable (name : Text)

theorem careful_fg : (fg name).Careful := by
  intro words s orderly
  rw [fg, ofSignature_eq]
  dsimp only
  split
  · exact orderly
  · split
    · exact State.orderly_toForeground orderly _
    · exact orderly

theorem orderly_killEach {s : State} (orderly : s.Orderly) (words : List Text) :
    (killEach s words).1.Orderly := by
  induction words generalizing s with
  | nil => exact orderly
  | cons word rest ih =>
      rw [killEach]
      split
      · exact ih orderly
      · exact ih (State.orderly_kill orderly _)

theorem careful_kill : (kill name).Careful := by
  intro words s orderly
  rw [kill, ofSignature_eq]
  dsimp only
  split
  · exact orderly
  · split
    · split
      · exact orderly
      · exact orderly_killEach orderly _
    · exact orderly

end Processes

theorem careful_of_standard : ∀ b ∈ BuiltinTable.standard.commands, b.Careful := by
  have confined {command : Text → Builtin} (h : ∀ name, (command name).Confined)
      (names : List String) : ∀ b ∈ BuiltinTable.named command names, b.Careful :=
    forall_mem_named (fun name => (h name).careful) names
  unfold BuiltinTable.standard
  simp only [List.forall_mem_append, and_assoc]
  exact ⟨confined confined_cd _, confined confined_dir _, confined confined_pwd _,
    confined confined_echo _, confined confined_set _, confined confined_env _,
    confined confined_clear _, confined confined_exit _, confined confined_help _,
    confined confined_history _, confined confined_pushd _, confined confined_popd _,
    confined confined_mkdir _, confined confined_rmdir _, confined confined_del _,
    confined confined_copy _, confined confined_move _, confined confined_type _,
    confined confined_prompt _, confined confined_jobs _, forall_mem_named careful_fg _,
    confined confined_bg _, forall_mem_named careful_kill _, confined (confined_art · _) _,
    confined (confined_art · _) _, confined (confined_art · _) _⟩

end Builtin

namespace State

section Lines
variable {t : BuiltinTable} (careful : ∀ b ∈ t.commands, b.Careful) {s : State} (h : s.Orderly)

include h in
theorem orderly_withFiles (files : Files) : (s.withFiles files).Orderly :=
  orderly_of_keeps h rfl (s.machine.keeps_files files)

theorem orderly_redirect (target? : Option (Text × Bool)) {o : State × Answer}
    (h : o.1.Orderly) : (redirect target? o).1.Orderly := by
  unfold redirect
  split
  · split
    · split
      · unfold deliver
        split <;> exact orderly_withFiles h _
      · exact h
    · exact h
  · exact h

include careful h

theorem orderly_dispatch (command : Text) (arguments : List Text) (cancelled : Bool) :
    (dispatch t s command arguments cancelled).1.Orderly := by
  unfold dispatch
  split
  · next b found => exact careful b (List.mem_of_find?_eq_some found) arguments s h
  · exact orderly_execute h command arguments cancelled

theorem orderly_runStagesWith (pipeline : Pipeline) (cancelled : Bool) :
    (runStagesWith t s pipeline cancelled).1.Orderly := by
  unfold runStagesWith
  split
  · next first rest _ =>
    split
    · have head := orderly_dispatch careful h first.command first.arguments cancelled
      split
      · next ran =>
        rw [ran] at head
        split
        · exact orderly_runStages head _ _ _
        · exact head
      · next ran => rwa [ran] at head
    · exact orderly_runStages h _ _ _
  · exact h

theorem orderly_carryOut (cancelled : Bool) (p : Plan) :
    (carryOut t s cancelled p).1.Orderly := by
  cases p with
  | command name arguments target? =>
      exact orderly_redirect target? (orderly_dispatch careful h name arguments cancelled)
  | background name arguments => exact orderly_executeBackground h name arguments
  | pipeline pipeline target? =>
      have ran := orderly_runStagesWith careful h pipeline cancelled
      rw [carryOut]
      split
      · next outcome =>
        rw [outcome] at ran
        exact orderly_redirect target? ran
      · next outcome => rwa [outcome] at ran

theorem orderly_runLine (line : Text) (cancelled : Bool) :
    (runLine t s line cancelled).1.Orderly := by
  have recorded : (s.recorded line).Orderly := ⟨h.toFresh.recorded line, h.sound⟩
  cases shown : Text.allBlank line with
  | true =>
      rw [runLine, if_pos shown]
      exact h
  | false =>
      rw [runLine_of_kind t s shown, runKind_eq_plan, timed_fst]
      cases plan t (s.recorded line) line with
      | error cause => exact recorded
      | ok p => exact orderly_carryOut careful recorded cancelled p

end Lines

end State

namespace Session

theorem orderly_execute {s : Session} (careful : ∀ b ∈ s.builtins.commands, b.Careful)
    (h : s.state.Orderly) (line : Text) (cancelled : Bool) :
    (s.execute line cancelled).1.state.Orderly :=
  State.orderly_settle (State.orderly_runLine careful h line cancelled)

/-- A run of lines leaves an orderly state orderly. -/
theorem orderly_executeAll {s : Session} (careful : ∀ b ∈ s.builtins.commands, b.Careful)
    (h : s.state.Orderly) (lines : List (Text × Bool)) : (s.executeAll lines).state.Orderly := by
  induction lines generalizing s with
  | nil => exact h
  | cons line rest ih => exact ih careful (orderly_execute careful h line.1 line.2)

/-- Whatever lines a shell runs that has been started on a machine without processes, it gives out
nothing twice. -/
theorem fresh_executeAll (config : Config) (inherited : List (Text × Text)) {m : Machine}
    (empty : m.children = []) (lines : List (Text × Bool)) :
    ((start config inherited m).executeAll lines).state.Fresh :=
  (orderly_executeAll Builtin.careful_of_standard (State.orderly_start config inherited empty)
    lines).toFresh

end Session

end CommandShell
