import CommandShell.Program.Sort

/-!
The filter `uniq`: one line for each run of equal lines.
-/
namespace CommandShell.Program

/-- Adjacent equal lines counted; `same` decides which are equal, and the first of them is kept. -/
def lineRuns (same : Bytes → Bytes → Bool) : List Bytes → List (Nat × Bytes)
  | [] => []
  | line :: rest =>
    match lineRuns same rest with
    | (count, other) :: runs =>
      if same line other then (count + 1, line) :: runs else (1, line) :: (count, other) :: runs
    | [] => [(1, line)]

def uniqOutput (o : Options) (bytes : Bytes) : Bytes :=
  let same (a b : Bytes) : Bool := if o.has 'i' then foldLine a == foldLine b else a == b
  let runs := (lineRuns same (byteLines bytes)).filter fun run =>
    (!o.has 'd' || 1 < run.1) && (!o.has 'u' || run.1 == 1)
  unlines (runs.map fun run =>
    if o.has 'c' then Text.encode (Text.padLeft 7 (Text.ofNat run.1) ++ [' ']) ++ run.2 else run.2)

def uniqWording (name : Text) (error : IoError) : Text :=
  if error = .isDirectory then openOrRead name error else nameAndReason name error

/-- Writes one line for each run of equal lines: to a second operand if there is one. -/
def uniq : Program :=
  withOptions ['c', 'd', 'u', 'i'] [] 1 fun o =>
    let write := replyTo uniqWording fun sources => uniqOutput o (sources.flatMap Source.bytes)
    match o.operands with
    | [] | [_] => overSources o.operands write
    | [input, target] => fun c =>
      let outcome := overSources [input] write c
      if target == inputOperand then outcome
      else
        match source c input, outcome.files.write (Path.join c.directory target) false
            (outcome.run.all .output) with
        | .readable _ _, .ok files =>
          { outcome with
            files
            run :=
              { outcome.run with written := outcome.run.written.filter (·.channel == .error) } }
        | .readable _ _, .error ⟨files, cause⟩ =>
          ⟨(complaint c (nameAndReason target cause) 1).at 0, files, false⟩
        | .unreadable _ _, _ => outcome
    | _ :: _ :: extra :: _ => Program.immediate fun c =>
      usageComplaint c ("extra operand ".toList ++ quoteEscaped extra) 1

end CommandShell.Program
