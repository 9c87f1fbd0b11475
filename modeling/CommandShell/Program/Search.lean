import CommandShell.Files.Path

/-!
Which file a command name stands for. It is looked for as it is spelled and in the current
directory, then so with each extension, then in the directories of the search path, bare and with
each extension; the first regular file is taken. `candidates` lists what is tried, in this order.
-/
namespace CommandShell.Program

/-- What is tried after a name, in this order. -/
def extensions : List Text := [".exe", ".bat", ".cmd", ".com"].map String.toList

section Find
variable (isFile : Text → Bool)

/-- A path, if it leads to a regular file. -/
def existing? (path : Text) : Option Text := Option.guard isFile path

/-- The file of a name as it is spelled or, if the name is relative, in a directory. -/
def findBeside (directory name : Text) : Option Text :=
  (existing? isFile name).or
    (if Path.isAbsolute name then none else existing? isFile (Path.join directory name))

/-- The file of a command in one directory of the search path. -/
def findIn (command searched : Text) : Option Text :=
  (existing? isFile (Path.join searched command)).or
    (extensions.findSome? fun extension =>
      existing? isFile (Path.join searched (command ++ extension)))

/-- The file of a command in a search path, whose empty directories are passed over. -/
def findInPath (command searchPath : Text) : Option Text :=
  (Text.pieces [':'] searchPath).findSome? fun searched =>
    if searched.isEmpty then none else findIn isFile command searched

/-- The file that a command name stands for. An empty name stands for none. -/
def resolve (command directory : Text) (searchPath : Option Text) : Option Text :=
  if command.isEmpty then none
  else
    (findBeside isFile directory command).or
      ((extensions.findSome? fun extension => findBeside isFile directory (command ++ extension)).or
        (searchPath.bind (findInPath isFile command)))

end Find

/-- A name as it is, and then with each extension. -/
def spellings (name : Text) : List Text := name :: extensions.map (name ++ ·)

/-- A name as it is and, if it is relative, in the current directory. -/
def beside (directory name : Text) : List Text :=
  if Path.isAbsolute name then [name] else [name, Path.join directory name]

/-- The directories of a search path that are not empty. -/
def searchDirectories (searchPath : Text) : List Text :=
  (Text.pieces [':'] searchPath).filter fun directory => !directory.isEmpty

/-- The candidates for a command name: each spelling as it is and in the current directory, then
each spelling in each directory of the search path. -/
def candidates (command directory : Text) (searchPath : Option Text) : List Text :=
  (spellings command).flatMap (beside directory) ++
    (searchPath.elim [] searchDirectories).flatMap fun searched =>
      (spellings command).map (Path.join searched)

section Candidates
variable (isFile : Text → Bool)

theorem findSome?_cons_eq_or (attempt : Text → Option Text) (name : Text) (rest : List Text) :
    (name :: rest).findSome? attempt = (attempt name).or (rest.findSome? attempt) := by
  rw [List.findSome?_cons]
  cases attempt name <;> rfl

theorem find?_eq_findSome?_existing? (paths : List Text) :
    paths.find? isFile = paths.findSome? (existing? isFile) := List.find?_eq_findSome?_guard

theorem find?_beside (directory name : Text) :
    (beside directory name).find? isFile = findBeside isFile directory name := by
  rw [find?_eq_findSome?_existing?, beside, findBeside]
  split
  · rw [findSome?_cons_eq_or, List.findSome?_nil]
  · rw [findSome?_cons_eq_or, findSome?_cons_eq_or, List.findSome?_nil, Option.or_none]

/-- Trying every spelling comes to trying the name and then each extension. -/
theorem findSome?_spellings (attempt : Text → Option Text) (command : Text) :
    (spellings command).findSome? attempt =
      (attempt command).or
        (extensions.findSome? fun extension => attempt (command ++ extension)) := by
  rw [spellings, findSome?_cons_eq_or, List.findSome?_map]
  rfl

theorem find?_map_join (command searched : Text) :
    ((spellings command).map (Path.join searched)).find? isFile =
      findIn isFile command searched := by
  rw [find?_eq_findSome?_existing?, List.findSome?_map, findSome?_spellings]
  rfl

theorem find?_searchDirectories (command searchPath : Text) :
    ((searchDirectories searchPath).flatMap fun searched =>
        (spellings command).map (Path.join searched)).find? isFile =
      findInPath isFile command searchPath := by
  rw [searchDirectories, findInPath]
  induction Text.pieces [':'] searchPath with
  | nil => rfl
  | cons searched rest ih =>
      rw [List.filter_cons, List.findSome?_cons]
      cases searched.isEmpty with
      | true => exact ih
      | false =>
          simp only [Bool.not_false, if_true, List.flatMap_cons, List.find?_append,
            find?_map_join, ih]
          cases findIn isFile command searched <;> rfl

/-- A name is resolved to the first candidate that is a regular file. -/
theorem resolve_eq_find? (command directory : Text) (searchPath : Option Text) :
    resolve isFile command directory searchPath =
      if command.isEmpty then none
      else (candidates command directory searchPath).find? isFile := by
  rw [resolve, candidates, List.find?_append, List.find?_flatMap]
  simp only [find?_beside, findSome?_spellings, Option.or_assoc]
  cases searchPath with
  | none => rfl
  | some searchPath => simp only [Option.elim_some, Option.bind_some, find?_searchDirectories]

end Candidates

end CommandShell.Program
