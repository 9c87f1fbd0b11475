import CommandShell.Builtin.Art
import CommandShell.Builtin.Directory
import CommandShell.Builtin.File
import CommandShell.Builtin.Job
import CommandShell.Builtin.Session

/-!
The table of built-in commands. Names are looked up without regard to the case of ASCII letters.
-/
namespace CommandShell

/-- Built-in commands by name. -/
structure BuiltinTable where
  commands : List Builtin := []

namespace BuiltinTable

/-- Whether a name is that of a command up to case. -/
def isNamed (name : Text) (b : Builtin) : Bool :=
  Text.asciiLower b.name == Text.asciiLower name

def lookup (t : BuiltinTable) (name : Text) : Option Builtin := t.commands.find? (isNamed name)

/-- Whether a name is that of a command. -/
def contains (t : BuiltinTable) (name : Text) : Bool := (t.lookup name).isSome

def register (t : BuiltinTable) (b : Builtin) : BuiltinTable :=
  ⟨b :: t.commands.filter fun other => !isNamed b.name other⟩

def sorted (t : BuiltinTable) : List Builtin :=
  t.commands.mergeSort fun a b =>
    Text.precedes (Text.asciiLower a.name) (Text.asciiLower b.name)

def named (command : Text → Builtin) (names : List String) : List Builtin :=
  names.map fun name => command name.toList

def standard : BuiltinTable where
  commands :=
    named Builtin.cd ["cd", "chdir"] ++ named Builtin.dir ["dir", "ls"] ++
    named Builtin.pwd ["pwd"] ++ named Builtin.echo ["echo"] ++ named Builtin.set ["set"] ++
    named Builtin.env ["env"] ++ named Builtin.clear ["cls", "clear"] ++
    named Builtin.exit ["exit"] ++ named Builtin.help ["help"] ++
    named Builtin.history ["history"] ++ named Builtin.pushd ["pushd"] ++
    named Builtin.popd ["popd"] ++ named Builtin.mkdir ["mkdir"] ++
    named Builtin.rmdir ["rmdir"] ++ named Builtin.del ["del", "rm"] ++
    named Builtin.copy ["copy", "cp"] ++ named Builtin.move ["move", "mv"] ++
    named Builtin.type ["type", "cat"] ++ named Builtin.prompt ["prompt"] ++
    named Builtin.jobs ["jobs"] ++ named Builtin.fg ["fg"] ++ named Builtin.bg ["bg"] ++
    named Builtin.kill ["kill"] ++ named (Builtin.art "Display the shell logo") ["logo"] ++
    named (Builtin.art "Display the banner") ["banner"] ++
    named (Builtin.art "Display the splash screen") ["splash"]

end BuiltinTable

end CommandShell
