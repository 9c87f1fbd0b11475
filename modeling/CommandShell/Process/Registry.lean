import CommandShell.Process.Status

/-!
The registry: which processes are tracked, in the foreground or in the background.

Each tracked process has an entry under its pid in one of two maps. An entry carries the serial
its process was given when it was tracked, so that what is done for an old process never touches a
newer one under the same pid. It also carries the token by which the end of its process is
requested; `cancelled` lists the tokens by which that has been done.
-/
namespace CommandShell

/-- How far a tracked process has come. -/
inductive ProcessState
  | running
  | exited (code : Int)
  | killed
deriving DecidableEq, Repr

/-- Which map a process is tracked in. -/
inductive Placement
  | running
  | background
deriving DecidableEq, Repr

abbrev Serial := Nat

/-- The name of a request to end a process, which may have been made or not. -/
abbrev Token := Nat

/-- A tracked process. -/
structure Entry where
  serial : Serial
  name : Text
  state : ProcessState
  token : Token
deriving DecidableEq, Repr

abbrev ProcessMap := List (Pid × Entry)

namespace ProcessMap

def get? (m : ProcessMap) (pid : Pid) : Option Entry := m.lookup pid

/-- The map without a pid. -/
def erase (m : ProcessMap) (pid : Pid) : ProcessMap := m.filter fun item => item.1 != pid

/-- The map with an entry under a pid, which may not have one yet. -/
def insert (m : ProcessMap) (pid : Pid) (entry : Entry) : ProcessMap := (pid, entry) :: m

def setState (m : ProcessMap) (pid : Pid) (state : ProcessState) : ProcessMap :=
  m.map fun item => if item.1 = pid then (item.1, { item.2 with state }) else item

def sorted (m : ProcessMap) : List (Pid × Entry) := m.mergeSort fun a b => a.1 ≤ b.1

/-- Whether the entry under a pid has a serial. -/
def holds (m : ProcessMap) (pid : Pid) (serial : Serial) : Bool :=
  (m.get? pid).any fun entry => entry.serial == serial

theorem get?_cons (pid other : Pid) (entry : Entry) (m : ProcessMap) :
    get? ((pid, entry) :: m) other = if other = pid then some entry else m.get? other := by
  by_cases h : other = pid <;> simp [get?, List.lookup_cons, h, beq_eq_false_iff_ne.2]

theorem get?_insert (m : ProcessMap) (pid other : Pid) (entry : Entry) :
    (m.insert pid entry).get? other = if other = pid then some entry else m.get? other :=
  get?_cons pid other entry m

theorem get?_erase (m : ProcessMap) (pid other : Pid) :
    (m.erase pid).get? other = if other = pid then none else m.get? other := by
  induction m with
  | nil => simp [erase, get?]
  | cons item rest ih =>
    obtain ⟨p, entry⟩ := item
    by_cases hp : p = pid
    · subst hp
      rw [show erase ((p, entry) :: rest) p = erase rest p by simp [erase], ih, get?_cons]
      split <;> rfl
    · rw [show erase ((p, entry) :: rest) pid = (p, entry) :: erase rest pid by simp [erase, hp],
        get?_cons, get?_cons, ih]
      split
      · next ho => rw [if_neg (ho ▸ hp)]
      · rfl

theorem get?_setState (m : ProcessMap) (pid other : Pid) (state : ProcessState) :
    (m.setState pid state).get? other =
      (m.get? other).map fun entry => if other = pid then { entry with state } else entry := by
  induction m with
  | nil => rfl
  | cons item rest ih =>
    obtain ⟨p, entry⟩ := item
    rw [show setState ((p, entry) :: rest) pid state =
        (p, if p = pid then { entry with state } else entry) :: setState rest pid state by
      simp only [setState, List.map_cons]; split <;> rfl, get?_cons, get?_cons, ih]
    split
    · next h => rw [h]; rfl
    · rfl

end ProcessMap

/-- The processes tracked in the foreground and in the background. -/
structure Registry where
  running : ProcessMap := []
  background : ProcessMap := []
  nextSerial : Serial := 0
  cancelled : List Token := []
deriving DecidableEq, Repr

/-- A background job as it is listed. -/
structure Job where
  pid : Pid
  name : Text
  state : ProcessState
deriving DecidableEq, Repr

/-- What became of moving a job to the foreground. -/
inductive Foreground
  | moved (name : Text)
  | alreadyExited (code : Int)
  | notFound
deriving DecidableEq, Repr

namespace Registry

/-- Tracks a new process in place of whatever is tracked under its pid. Its token is named by its
serial where none is given. -/
def insert (r : Registry) (pid : Pid) (name : Text) (placement : Placement)
    (token : Token := r.nextSerial) : Registry :=
  let entry : Entry := ⟨r.nextSerial, name, .running, token⟩
  let running := r.running.erase pid
  let background := r.background.erase pid
  match placement with
  | .running =>
    { r with running := running.insert pid entry, background, nextSerial := r.nextSerial + 1 }
  | .background =>
    { r with running, background := background.insert pid entry, nextSerial := r.nextSerial + 1 }

/-- Records the final state of a process if it is still tracked under its own serial. -/
def finish (r : Registry) (pid : Pid) (serial : Serial) (state : ProcessState) : Registry :=
  match r.running.get? pid with
  | some entry =>
    if entry.serial = serial then { r with running := r.running.setState pid state } else r
  | none =>
    if r.background.holds pid serial then
      { r with background := r.background.setState pid state }
    else r

/-- Stops tracking a process that is still tracked under its own serial. -/
def remove (r : Registry) (pid : Pid) (serial : Serial) : Registry :=
  if r.running.holds pid serial then { r with running := r.running.erase pid }
  else if r.background.holds pid serial then { r with background := r.background.erase pid }
  else r

/-- Requests the end of the process tracked under a pid and stops tracking it. The foreground is
looked at first. -/
def kill (r : Registry) (pid : Pid) : Registry × Bool :=
  match r.running.get? pid with
  | some entry =>
    ({ r with running := r.running.erase pid, cancelled := entry.token :: r.cancelled }, true)
  | none =>
    match r.background.get? pid with
    | some entry =>
      ({ r with background := r.background.erase pid, cancelled := entry.token :: r.cancelled },
        true)
    | none => (r, false)

/-- Moves a background job to the foreground, or drops it if it has exited. -/
def toForeground (r : Registry) (pid : Pid) : Registry × Foreground :=
  match r.background.get? pid with
  | none => (r, .notFound)
  | some entry =>
    let r := { r with background := r.background.erase pid }
    match entry.state with
    | .exited code => (r, .alreadyExited code)
    | _ =>
      ({ r with running := (r.running.erase pid).insert pid entry }, .moved entry.name)

/-- Whether a pid is tracked in one of the maps. -/
def contains (r : Registry) (pid : Pid) : Placement → Bool
  | .running => (r.running.get? pid).isSome
  | .background => (r.background.get? pid).isSome

def jobs (r : Registry) : List Job :=
  r.background.sorted.map fun (pid, entry) => ⟨pid, entry.name, entry.state⟩

/-- The pids tracked in the foreground, in order. -/
def runningPids (r : Registry) : List Pid := r.running.sorted.map Prod.fst

/-- Requests the end of every tracked process, stops tracking them all, and counts them. -/
def drain (r : Registry) : Registry × Nat :=
  let all := r.running ++ r.background
  ({ r with
      running := []
      background := []
      cancelled := all.map (fun item => item.2.token) ++ r.cancelled },
    all.length)

/-- Kills some pids one after the other and counts those that were tracked. -/
def killEach : Registry → List Pid → Registry × Nat
  | r, [] => (r, 0)
  | r, pid :: rest =>
    let (r, hit) := r.kill pid
    let (r, count) := r.killEach rest
    (r, if hit then count + 1 else count)

/-- Kills every process that is tracked in the foreground now, and counts them. -/
def killRunning (r : Registry) : Registry × Nat := r.killEach r.runningPids

/-- Whether the end of a process has been requested by a token. -/
def isCancelled (r : Registry) (token : Token) : Bool := r.cancelled.contains token

end Registry

end CommandShell
