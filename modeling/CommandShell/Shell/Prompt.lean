import CommandShell.Shell.Environment
import CommandShell.Text.Date

/-!
The prompt: a template with tokens for the directory, the time and the like.

Tokens are replaced one kind after the other, so a value can bring in a token of a later kind.
-/
namespace CommandShell.Environment

/-- The tokens of a template with their values, in the order in which they are replaced. -/
def promptTokens (e : Environment) (now : Moment) : List (Text × Text) :=
  [(['$', 'P'], e.directory), (['$', 'G'], ['>']), (['$', 'D'], now.date), (['$', 'T'], now.time),
   (['$', 'U'], e.user), (['$', 'M'], e.machine)]

def expandPrompt (e : Environment) (now : Moment) : Text :=
  (e.promptTokens now).foldl (fun text token => Text.replace token.1 token.2 text)
    e.promptTemplate

/-- The name of the current directory in its parent; that of the root is its path. -/
def leafName (e : Environment) : Text :=
  match Path.fileName? e.directory with
  | some name => name
  | none =>
    match Text.dropEndWhile (fun c => c == '\\' || c == '/') e.directory with
    | [] => e.directory
    | name => name

/-- The prompt. The bare brand shows the name of the current directory. -/
def prompt (e : Environment) (now : Moment) : Text :=
  let expanded := e.expandPrompt now
  if expanded == "WS>".toList then "WS [".toList ++ e.leafName ++ "]> ".toList
  else expanded ++ [' ']

end CommandShell.Environment
