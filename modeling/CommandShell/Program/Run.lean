import CommandShell.Files.Write
import CommandShell.Process.Status

/-!
Programs as functions: how one is called, and everything that comes of it.

A program is given its whole input and answers with its whole run. Time counts in milliseconds from
the start of the run, and what a program does to the files is done at once.
-/
namespace CommandShell

/-- What a program can read: some bytes, then nothing more or one chunk over and over, and the time
at which an input that ends has been closed. -/
structure Supply where
  bytes : Bytes := []
  chunk : Bytes := []
  closed : Nat := 0
deriving DecidableEq, Repr

/-- Whether an input goes on for ever. -/
def Supply.isEndless (s : Supply) : Bool := !s.chunk.isEmpty

/-- The two streams that a program writes. -/
inductive Channel
  | output
  | error
deriving DecidableEq, Repr

/-- Bytes that were written together. -/
structure Written where
  time : Nat
  channel : Channel
  bytes : Bytes
deriving DecidableEq, Repr

/-- The run of a program: what it writes, the chunk it then goes on writing for ever if it does so,
and when and how it ends by itself. -/
structure Run where
  written : List Written := []
  chunk : Bytes := []
  ending : Option (Nat × Status) := none
deriving DecidableEq, Repr

namespace Run

/-- What was written to a channel no later than `time`. -/
def upTo (r : Run) (time : Nat) (channel : Channel) : Bytes :=
  (r.written.filter fun w => w.channel == channel && w.time ≤ time).flatMap Written.bytes

def all (r : Run) (channel : Channel) : Bytes :=
  (r.written.filter fun w => w.channel == channel).flatMap Written.bytes

/-- The time at which a run ends, if it does. -/
def duration? (r : Run) : Option Nat := r.ending.map Prod.fst

def supply (r : Run) : Supply where
  bytes := r.all .output
  chunk := r.chunk
  closed := r.duration?.getD 0

end Run

/-- What a program answers that reads its input, if at all, to the end and then is done. -/
structure Reply where
  output : Bytes := []
  error : Bytes := []
  code : Nat := 0
deriving DecidableEq, Repr

/-- The run of a program that replies at some time. No program takes less than a millisecond. -/
def Reply.at (r : Reply) (time : Nat) : Run where
  written := [⟨time, .output, r.output⟩, ⟨time, .error, r.error⟩]
  ending := some (time + 1, .exited r.code)

/-- How a program is called. -/
structure Call where
  /-- The name it was called by. -/
  name : Text
  arguments : List Text
  vars : List (Text × Text)
  /-- The directory that it works in. -/
  directory : Text
  input : Supply
  pid : Pid
  files : Files
deriving DecidableEq, Repr

/-- The value of a variable, whose name has to be spelled exactly. -/
def Call.valueOf? (c : Call) (name : Text) : Option Text := c.vars.lookup name

/-- The run of a program and the files after it. -/
structure Outcome where
  run : Run
  files : Files
  /-- Whether it used its input up. -/
  drains : Bool := false
deriving DecidableEq, Repr

abbrev Program := Call → Outcome

namespace Program

/-- A program that replies without reading its input. -/
def immediate (reply : Call → Reply) : Program := fun c => ⟨(reply c).at 0, c.files, false⟩

/-- A program that reads its input to the end and then replies; it never does where the input has
no end. -/
def draining (reply : Call → Reply) : Program := fun c =>
  if c.input.isEndless then ⟨{}, c.files, true⟩
  else ⟨(reply c).at c.input.closed, c.files, true⟩

end Program

end CommandShell
