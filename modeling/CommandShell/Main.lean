import CommandShell.Machine.Standard
import CommandShell.Shell.Console

/-!
The program: a shell on a machine of its own, which reads lines until its input ends.
-/
namespace CommandShell

def homeDirectory : Text := "/home/user".toList

def initialVariables : List (Text × Text) :=
  [("PATH", "/usr/local/bin:/usr/bin:/bin"), ("HOME", "/home/user"), ("USER", "user")].map
    fun (name, value) => (name.toList, value.toList)

def showScreen (screen : Screen) : IO Unit := do
  IO.print (String.ofList screen.output)
  (← IO.getStdout).flush
  IO.eprint (String.ofList screen.error)

/-- Reads and runs lines until the console ends. -/
partial def runLines (s : Session) : IO UInt32 := do
  let input ← (← IO.getStdin).getLine
  let turn : Console.Turn := match Console.inputLines input.toList with
    | line :: _ => Console.readLine s line
    | [] => { session := s, code := some 0 }
  match turn.code with
  | none =>
    showScreen turn.screen
    runLines turn.session
  | some code =>
    showScreen (Console.close turn).screen
    return (Console.exitByte code).toUInt32

end CommandShell

open CommandShell in
def main (args : List String) : IO UInt32 := do
  match Console.readArguments {} false false none (args.map String.toList) with
  | .error error =>
    showScreen (Console.refusal error)
    return 1
  | .ok none =>
    showScreen { output := Text.line Console.usage }
    return 0
  | .ok (some arguments) =>
    let now : Int := 0
    let session := Console.start Machine.programDirectory initialVariables
      (Machine.standard now homeDirectory) arguments
    match arguments.command with
    | some line =>
      let turn := Console.runCommand session line
      showScreen turn.screen
      return (Console.exitByte (turn.code.getD 0)).toUInt32
    | none =>
      showScreen { output := Console.banner }
      runLines session
