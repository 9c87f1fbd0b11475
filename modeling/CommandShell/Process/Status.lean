import CommandShell.Text.Number

/-!
How a process ended, and the exit code that stands for it.
-/
namespace CommandShell

abbrev Pid := Nat

/-- How a process ended, as the operating system tells its parent. -/
inductive Status
  | exited (code : Nat)
  | signaled (signal : Nat)
  /-- It has only been stopped. -/
  | stopped
deriving DecidableEq, Repr

namespace Status

/-- The status that a status word spells: the low seven bits are a signal, or zero where the second
byte is an exit code. -/
def ofWord (word : Int) : Status :=
  let word := (word % 4294967296).toNat
  if word % 128 = 0 then .exited (word / 256 % 256)
  else if word % 128 = 127 then .stopped
  else .signaled (word % 128)

/-- The exit code of a status. A signal counts as 128 more than its number. -/
def code : Status → Int
  | exited code => code
  | signaled signal => 128 + signal
  | stopped => -1

def killed : Status := .signaled 9

end Status

end CommandShell
