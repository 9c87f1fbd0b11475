import CommandShell.Builtin.Basic
import CommandShell.Shell.Display

/-!
Built-in commands on the session: its variables, its prompt, its history and its end.
-/
namespace CommandShell.Builtin

def noNewline : Text := ['-', 'n']

/-- Writes its operands, and a newline unless a switch leaves it out. It is asked for no usage: the
words that ask others for it are operands here. -/
def echoing : Declared (List Text) where
  description := "Display text"
  doc := "write the arguments to standard output, separated by spaces. " ++
    "by default, a trailing newline is printed."
  leading := [noNewline]
  flags := [noNewline, "--no-newline".toList]
  showsUsage := false
  signature := Signature.many "args"
  body switches words s :=
    let text := Text.unwords words
    say s (if switches.isEmpty then Text.line text else text)

def echo (name : Text) : Builtin := echoing.builtin name

/-- It answers every list of words, with all of them but the leading switches. -/
theorem run_echo (name : Text) (words : List Text) (s : State) :
    (echo name).run words s =
      let text := Text.unwords ((words.dropWhile (· == noNewline)).map Line.unquote)
      say s (if (words.takeWhile (· == noNewline)).isEmpty then Text.line text else text) := by
  have leads : echoing.leading.contains = (· == noNewline) := by
    funext word
    exact Bool.or_false _
  rw [← leads]
  exact echoing.runBy_eq separates_readVector name nofun s

/-- The answer to an assignment without a name. -/
def badAssignment : Text := "Invalid syntax. Use: set VARIABLE=VALUE".toList

/-- The name and the value of an assignment, blanks around them left out. -/
def assignment? (text : Text) : Option (Text × Text) :=
  match Text.cutAt? ['='] text with
  | some (name, value) =>
    if (Text.trim name).isEmpty then none else some (Text.trim name, Text.trim value)
  | none => none

/-- Sets a variable, or lists all. -/
def set (name : Text) : Builtin :=
  ofSignature name "Set/display environment variables"
    "list all variables, or set one with NAME=VALUE."
    (Signature.many "assignment") fun words s =>
      if words.isEmpty then say s s.environment.vars.listing
      else
        match assignment? (Text.unwords words) with
        | some (key, value) =>
          say (s.withEnvironment (s.environment.set key value))
            (Text.line ("Set ".toList ++ key ++ '=' :: value))
        | none => refuse s badAssignment

def version : Text := "0.1.0".toList

/-- Shows who and where the session is, and all variables. -/
def env (name : Text) : Builtin :=
  ofSignature name "Display environment info" "show session identity and every variable."
    Signature.none fun _ s =>
      let e := s.environment
      say s ("\n=== Environment ===\n".toList ++
        Text.line ("Current Directory: ".toList ++ e.directory) ++
        Text.line ("User: ".toList ++ e.user) ++
        Text.line ("Machine: ".toList ++ e.machine) ++
        Text.line ("Home: ".toList ++ e.home) ++
        Text.line ("Version: ".toList ++ version) ++
        "\n=== Variables ===\n".toList ++ e.vars.listing)

def clear (name : Text) : Builtin :=
  ofSignature name "Clear screen" "clear the screen." Signature.none fun _ s =>
    say s Display.clearMark

def exit (name : Text) : Builtin :=
  ofSignature name "Exit the shell" "exit the shell process."
    (Signature.optional (.code "exit code, 0 when omitted.")) fun code s =>
      (s, .quits (code.getD 0))

/-- Lines of the history with their numbers, from `number` on. -/
def numberedFrom : (number : Nat) → List Text → Text
  | _, [] => []
  | number, line :: rest =>
    Text.line (Text.padLeft 4 (Text.ofNat number) ++ ": ".toList ++ line) ++
      numberedFrom (number + 1) rest

def history (name : Text) : Builtin :=
  ofSignature name "Show command history" "show the command history, oldest first."
    Signature.none fun _ s => say s (numberedFrom 1 s.environment.history)

def promptHelp : Text := "
Available prompt variables:
  $P - Current directory path
  $G - Greater than symbol (>)
  $D - Current date
  $T - Current time
  $U - Username
  $M - Machine name
  WS - Shell brand (shows as 'WS [folder]>')

Examples:
  prompt WS$G        - WS [folder]> (default)
  prompt $P$G        - Full path>
  prompt $U@$M$G     - user@machine>
  prompt [$T] $G     - [time] >
".toList

/-- Sets the template of the prompt, or explains it. -/
def prompt (name : Text) : Builtin :=
  ofSignature name "Set prompt template" "show or set the prompt template."
    (Signature.many "template") fun words s =>
      if words.isEmpty then
        say s (Text.line ("Current prompt template: ".toList ++ s.environment.promptTemplate) ++
          promptHelp)
      else
        let template := Text.unwords words
        say (s.withEnvironment (s.environment.set Environment.promptName template))
          (Text.line ("Prompt updated to: ".toList ++ template))

def helpText : Text := "
=== Built-in Commands ===

File & Directory:
  cd/chdir [path]     - Change directory
  dir/ls [path]       - List directory contents
  pwd                 - Print working directory
  mkdir [path]        - Create directory
  rmdir [path]        - Remove directory
  del/rm [file...]    - Delete files
  copy/cp [src] [dst] - Copy file
  move/mv [src] [dst] - Move file
  type/cat [file]     - Display file contents

Environment & Display:
  echo [text]         - Display text
  set [var=value]     - Set/display environment variables
  env                 - Display environment info
  cls/clear           - Clear screen
  prompt [template]   - Set prompt template (WS$G, $P$G, etc.)

Navigation & History:
  pushd [path]        - Push directory to stack
  popd                - Pop directory from stack
  history             - Show command history

Process Management:
  jobs                - List background jobs
  fg [pid]            - Bring background job to foreground
  bg [pid]            - Report a background job
  kill [pid...]       - Terminate processes by PID

Operators:
  command | command   - Pipe output between commands
  command > file      - Redirect output to file (overwrite)
  command >> file     - Redirect output to file (append)
  command < file      - Input redirection (parsed, not wired)
  command &           - Run command in background

ASCII Art:
  logo                - Display the shell logo
  banner              - Display the banner
  splash              - Display the splash screen

System:
  help                - Show this help
  exit [code]         - Exit the shell
".toList

def help (name : Text) : Builtin :=
  ofSignature name "Show this help" "show the list of built-in commands and operators."
    Signature.none fun _ s => say s helpText

end CommandShell.Builtin
