import CommandShell.Machine.Basic

/-!
The machine that a shell finds itself on: the utilities in their usual directories, beside others
that are empty.
-/
namespace CommandShell.Machine

def programDirectory : Text := "/usr/bin".toList

def programMode : Nat := 0o755

def standardDirectories : List Text :=
  ["/usr/bin", "/usr/lib", "/usr/local/bin", "/usr/sbin", "/usr/share", "/dev", "/etc", "/home",
   "/mnt", "/opt", "/proc", "/root", "/run", "/srv", "/sys", "/tmp", "/var"].map String.toList

/-- The files of the machine. The usual short path of the program directory is a link. -/
def standardFiles (now : Int) : Files :=
  let base := standardDirectories.foldl Files.layDirectory (Files.empty now)
  let programs := Program.Utility.all.foldl
    (fun f u => f.layFile (Path.join programDirectory u.name) u.image programMode) base
  let linked := programs.layLink "/bin".toList "usr/bin".toList
  match linked.locate true "/dev".toList with
  | .ok device => linked.create device.id "null".toList .void 0o666
  | .error _ => linked

/-- The machine at the second `now`, with a shell started in `directory`. -/
def standard (now : Int) (directory : Text) : Machine where
  files := (standardFiles now).layDirectory directory
  clock := 0
  nextPid := 400001
  children := []
  directory
  host := "workstation".toList

end CommandShell.Machine
