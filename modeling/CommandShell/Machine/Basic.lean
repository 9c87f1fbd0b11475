import CommandShell.Files.Tree
import CommandShell.Process.Event
import CommandShell.Program.Loader

/-!
A machine: its files, its clock, and the processes that have been started on it.

A process is started first and fed later, because the stages of a pipe all start before any of
them gets its input. What it will do is known once it has been fed. Its output shows as the clock
goes on, and it stays in the table until someone has waited for it; then it is only remembered.
-/
namespace CommandShell

/-- A process in the table of a machine. -/
structure Child where
  pid : Pid
  image : Program.Image
  vars : List (Text × Text)
  directory : Text
  started : Nat
  /-- Whether its output goes to another process. -/
  piped : Bool := false
  /-- What it does once it has been fed, in time since its start. -/
  run : Run := {}
  /-- When it was killed. -/
  killed : Option Nat := none
deriving DecidableEq, Repr

/-- A machine. Its clock counts milliseconds. -/
structure Machine where
  files : Files
  clock : Nat
  nextPid : Pid
  children : List Child
  /-- The directory in which the shell itself was started. -/
  directory : Text
  host : Text
  /-- The processes that someone has waited for, as they were then. -/
  waited : List Child := []
deriving DecidableEq, Repr

/-- How a program is started: by which path, on which arguments, and with what it inherits. -/
structure Launch where
  path : Text
  arguments : List Text
  vars : List (Text × Text)
  directory : Text
deriving DecidableEq, Repr

namespace Child

/-- When and how a process ends: by itself, or by a kill that comes no later. -/
def ending? (c : Child) : Option (Nat × Status) :=
  let own := c.run.ending.map fun (time, status) => (c.started + time, status)
  match own, c.killed with
  | some (time, status), some kill =>
    if kill < time then some (kill, Status.killed) else some (time, status)
  | none, some kill => some (kill, Status.killed)
  | own, none => own

/-- The bytes that a process has written to a channel when it ends. -/
def stream (c : Child) (channel : Channel) : Bytes :=
  match c.ending? with
  | some (time, _) => c.run.upTo (time - c.started) channel
  | none => c.run.all channel

end Child

namespace Machine

/-- A path as seen from the directory in which the shell was started. -/
def absolute (m : Machine) (path : Text) : Text := Path.join m.directory path

/-- Whether a path, seen from the directory in which the shell was started, leads to a regular
file. -/
def isFile (m : Machine) (path : Text) : Bool := !path.isEmpty && m.files.isFile (m.absolute path)

def child? (m : Machine) (pid : Pid) : Option Child := m.children.find? fun c => c.pid == pid

def update (m : Machine) (pid : Pid) (change : Child → Child) : Machine :=
  { m with children := m.children.map fun c => if c.pid = pid then change c else c }

/-- Whether something handed to a program holds the character NUL. -/
def hasNul (l : Launch) : Bool :=
  l.arguments.any (·.contains '\x00') ||
    l.vars.any fun item => item.1.contains '\x00' || item.2.contains '\x00'

/-- Starts a process, in a directory that has to exist. -/
def spawn (m : Machine) (l : Launch) : Except IoError (Machine × Pid) :=
  if hasNul l then .error .nulInData
  else
    match m.files.contentAt l.directory with
    | .error error => .error error
    | .ok (.directory _) =>
      let call : Call :=
        { name := l.path
          arguments := l.arguments
          vars := l.vars
          directory := l.directory
          input := {}
          pid := m.nextPid
          files := m.files }
      match Program.find l.path call with
      | .error error => .error error
      | .ok image =>
        .ok ({ m with
            nextPid := m.nextPid + 1
            children := m.children ++
              [{ pid := m.nextPid
                 image
                 vars := l.vars
                 directory := l.directory
                 started := m.clock }] },
          m.nextPid)
    | .ok _ => .error .notDirectory

/-- Hands a process its whole input, and lets it run. -/
def feed (m : Machine) (pid : Pid) (input : Supply) : Machine :=
  match m.child? pid with
  | none => m
  | some c =>
    let outcome := c.image.run
      { name := c.image.name
        arguments := c.image.arguments
        vars := c.vars
        directory := c.directory
        input
        pid
        files := m.files }
    { m with files := outcome.files }.update pid fun c => { c with run := outcome.run }

def supplyOf (m : Machine) (pid : Pid) : Supply := (m.child? pid).elim {} fun c => c.run.supply

/-- Feeds a process, and then each of those after it with the output of the one before. Where the
pipes have been `cut`, those after it find their inputs empty. -/
def feedChain (m : Machine) (cut : Bool) (input : Supply) : List Pid → Machine
  | [] => m
  | [pid] => m.feed pid input
  | pid :: next :: rest =>
    let m := (m.feed pid input).update pid fun c => { c with piped := true }
    m.feedChain cut (if cut then {} else m.supplyOf pid) (next :: rest)

def breakPipe (m : Machine) (writer reader : Pid) : Machine :=
  match m.child? reader with
  | none => m
  | some r =>
    match r.run.ending with
    | none => m
    | some (time, _) =>
      m.update writer fun w =>
        if w.run.ending.isNone && !w.run.chunk.isEmpty then
          { w with run := { w.run with ending := some (time, .signaled 13) } }
        else w

/-- Ends the processes of a pipe that would go on writing, from its end to its start. -/
def breakPipes (m : Machine) : List Pid → Machine
  | writer :: reader :: rest => (m.breakPipes (reader :: rest)).breakPipe writer reader
  | _ => m

/-- How a process has ended, if it has by now. -/
def status? (m : Machine) (pid : Pid) : Option Status :=
  match (m.child? pid).bind Child.ending? with
  | some (time, status) => if time ≤ m.clock then some status else none
  | none => none

/-- Kills a process that is still in the table, and tells whether there is one. -/
def kill (m : Machine) (pid : Pid) : Machine × Bool :=
  match m.child? pid with
  | none => (m, false)
  | some _ =>
    (m.update pid fun c => { c with killed := some (c.killed.getD m.clock) }, true)

/-- Waits for a process, which leaves the table. -/
def reap (m : Machine) (pid : Pid) : Machine :=
  { m with
    children := m.children.filter fun c => c.pid != pid
    waited := m.waited ++ m.children.filter fun c => c.pid == pid }

def destroy (m : Machine) (pid : Pid) : Machine := (m.kill pid).1.reap pid

/-- Lets time pass until `time`. -/
def advance (m : Machine) (time : Nat) : Machine := { m with clock := max m.clock time }

/-- The time at which the last of some processes ends, unless one of them never does. -/
def lastEnding? (m : Machine) : List Pid → Option Nat
  | [] => some m.clock
  | pid :: rest =>
    match (m.child? pid).bind Child.ending?, m.lastEnding? rest with
    | some (time, _), some later => some (max time later)
    | _, _ => none

def maxPid : Nat := 2147483647

/-- Kills any process of the machine by its pid. Zero and numbers that are no pid reach none. -/
def killAny (m : Machine) (pid : Pid) : Machine × Bool :=
  if pid = 0 || maxPid < pid then (m, false) else m.kill pid

end Machine

end CommandShell
