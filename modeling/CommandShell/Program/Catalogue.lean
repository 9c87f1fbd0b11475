import CommandShell.Program.ByteSets
import CommandShell.Program.Concatenate
import CommandShell.Program.Count
import CommandShell.Program.Extent
import CommandShell.Program.Script.Evaluate
import CommandShell.Program.Sequence
import CommandShell.Program.Sort
import CommandShell.Program.Unique

/-!
The utilities of a machine, and the program files that hold them.

A program file begins with four marker bytes and then names its utility, so a copy of the file is
the same program.
-/
namespace CommandShell.Program

/-- A utility. -/
inductive Utility
  | bracket
  | cat
  | echo
  | env
  | exitFailure
  | exitSuccess
  | head
  | printenv
  | printf
  | seq
  | sh
  | sleep
  | sort
  | tail
  | test
  | tr
  | uniq
  | wc
  | yes
deriving DecidableEq, Repr

namespace Utility

def all : List Utility :=
  [bracket, cat, echo, env, exitFailure, exitSuccess, head, printenv, printf, seq, sh, sleep, sort,
   tail, test, tr, uniq, wc, yes]

def name : Utility → Text
  | bracket => "[".toList
  | cat => "cat".toList
  | echo => "echo".toList
  | env => "env".toList
  | exitFailure => "false".toList
  | exitSuccess => "true".toList
  | head => "head".toList
  | printenv => "printenv".toList
  | printf => "printf".toList
  | seq => "seq".toList
  | sh => "sh".toList
  | sleep => "sleep".toList
  | sort => "sort".toList
  | tail => "tail".toList
  | test => "test".toList
  | tr => "tr".toList
  | uniq => "uniq".toList
  | wc => "wc".toList
  | yes => "yes".toList

def marker : Bytes := [0x7F, 0x45, 0x4C, 0x46]

def image (u : Utility) : Bytes := marker ++ Text.encode u.name

def ofImage? (bytes : Bytes) : Option Utility := all.find? fun u => u.image == bytes

/-- The variables that the options of `env` leave, and the other arguments. -/
def keptVars (vars : List (Text × Text)) : List Text → List (Text × Text) × List Text
  | ['-', 'i'] :: rest | ['-'] :: rest => keptVars [] rest
  | ['-', 'u'] :: name :: rest => keptVars (vars.filter (·.1 != name)) rest
  | ['-', '-'] :: rest => (vars, rest)
  | arguments => (vars, arguments)

/-- Shows variables, or starts a program with some of them set. -/
def envProgram (launch : Script.Launcher) : Program := fun c =>
  let (vars, arguments) := keptVars c.vars c.arguments
  let given := (arguments.takeWhile fun word => word.contains '=').filterMap fun word =>
    Text.cutAt? ['='] word
  let vars := given.foldl (fun vars item => vars.filter (·.1 != item.1) ++ [item]) vars
  let reply (r : Reply) : Outcome := ⟨r.at 0, c.files, false⟩
  match arguments.drop given.length with
  | [] => reply { output := Text.encode (assignments vars) }
  | name :: rest =>
    let state := Script.start { c with vars } name [] c.input
    match (state.candidates name).find? fun path => c.files.isFile (state.resolve path) with
    | none => reply (complaint c (quoteEscaped name ++ ": No such file or directory".toList) 127)
    | some path =>
      match launch path { c with vars, name, arguments := rest } with
      | .ok outcome => outcome
      | .error error =>
        reply (complaint c (quoteEscaped name ++ ": ".toList ++ error.reason) 126)

/-- What a utility does when it is called; `launch` starts other programs. -/
def program (launch : Script.Launcher) : Utility → Program
  | bracket => Program.bracket
  | cat => Program.cat
  | echo => Program.echo
  | env => envProgram launch
  | exitFailure => exiting 1
  | exitSuccess => exiting 0
  | head => Program.head
  | printenv => Program.printenv
  | printf => Program.printf
  | seq => Program.seq
  | sh => Script.program launch
  | sleep => Program.sleep
  | sort => Program.sort
  | tail => Program.tail
  | test => Program.test
  | tr => Program.tr
  | uniq => Program.uniq
  | wc => Program.wc
  | yes => Program.yes

end Utility

end CommandShell.Program
