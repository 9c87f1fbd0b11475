import CommandShell.Program.Catalogue

/-!
Finding the program in a file, and running it.

A file can be started if it may be executed and is a program file, or begins with `#!` and the path
of another program that reads it. Finding a program changes nothing; what is found is an `Image`,
which can then be run with an input. Programs start programs, to a depth that no chain of scripts
needs.
-/
namespace CommandShell.Program

/-- The line after `#!`: the path of a program, and one argument for it. -/
def interpreter? (bytes : Bytes) : Option (Text × Option Text) :=
  match bytes with
  | 35 :: 33 :: rest =>
    let line := Text.decode (rest.takeWhile (· != Drain.newline))
    let isGap (c : Char) : Bool := c == ' ' || c == '\t'
    let line := Text.dropEndWhile isGap (line.dropWhile isGap)
    let path := line.takeWhile fun c => !isGap c
    let argument := (line.drop path.length).dropWhile isGap
    if path.isEmpty then none
    else some (path, if argument.isEmpty then none else some argument)
  | _ => none

/-- A program that has been found: its utility, the name it is called by, and its arguments. -/
structure Image where
  utility : Utility
  name : Text
  arguments : List Text
deriving DecidableEq, Repr

/-- How many scripts may be read by one another. -/
def maxScripts : Nat := 5

/-- Finds the program at a path, which is seen from a directory. -/
def findAt (files : Files) (directory : Text) :
    (scripts : Nat) → (path name : Text) → (arguments : List Text) → Except IoError Image
  | 0, _, _, _ => .error .linkLoop
  | scripts + 1, path, name, arguments =>
    match files.locate true (Path.join directory path) with
    | .error error => .error error
    | .ok place =>
      match files.nodes[place.id]? with
      | some ⟨.file bytes, mode, _⟩ =>
        if mode &&& 0o111 = 0 then .error .denied
        else
          match interpreter? bytes with
          | some (interpreter, argument) =>
            findAt files directory scripts interpreter interpreter
              (argument.toList ++ path :: arguments)
          | none =>
            match Utility.ofImage? bytes with
            | some utility => .ok ⟨utility, name, arguments⟩
            | none => .error .notRunnable
      | _ => .error .denied

/-- The directories that are searched for a bare name where no path is set. -/
def defaultSearch : Text := "/bin:/usr/bin".toList

/-- Finds the first of some candidates that can be started. A candidate that is not there is passed
over, and so is one that must not be executed, but then that is the failure if none can be. -/
def findFirst (find : Text → Except IoError Image) : (denied : Bool) → List Text →
    Except IoError Image
  | denied, [] => .error (if denied then .denied else .notFound)
  | denied, path :: rest =>
    match find path with
    | .error .denied => findFirst find true rest
    | .error .notFound | .error .notDirectory => findFirst find denied rest
    | answer => answer

/-- Finds a program for a call: a bare name is searched for in the directories of the variable
`PATH` of the call, and any other path is taken as it is. -/
def find (path : Text) (c : Call) : Except IoError Image :=
  let at? (candidate : Text) : Except IoError Image :=
    findAt c.files c.directory maxScripts candidate path c.arguments
  if path.contains '/' then at? path
  else
    let search := (c.valueOf? "PATH".toList).getD defaultSearch
    findFirst at? false ((Text.pieces [':'] search).map fun directory =>
      if directory.isEmpty then path else Path.join directory path)

/-- How deep programs may start one another. -/
def maxDepth : Nat := 64

/-- Runs a program that has been found; `launch` starts other programs. -/
def Image.runWith (launch : Script.Launcher) (image : Image) : Program := fun c =>
  image.utility.program launch { c with name := image.name, arguments := image.arguments }

def launch : (depth : Nat) → Script.Launcher
  | 0, _, _ => .error .linkLoop
  | depth + 1, path, c =>
    (findAt c.files c.directory maxScripts path c.name c.arguments).map fun image =>
      image.runWith (launch depth) c

def Image.run (image : Image) : Program := image.runWith (launch maxDepth)

end CommandShell.Program
