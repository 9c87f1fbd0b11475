import CommandShell.Proofs.Line.Stretches

/-!
The structure of a line: its commands, where each of them begins, and which of their streams are
redirected. It is read off the operators of the line as it was typed. Variables are looked up only
in what stands between two operators, so no value brings in an operator or takes one away.
-/
namespace CommandShell.Line

/-- What a command is apart from its words and the spelling of its targets. -/
structure Shape where
  raw : Text
  readsFile : Bool
  writesFile : Bool
  append : Bool
deriving DecidableEq, Repr

def Command.shape (c : Command) : Shape where
  raw := c.raw
  readsFile := c.redirects.input.isSome
  writesFile := c.redirects.output.isSome
  append := c.redirects.append

/-- The shape that the operators of a stretch give its command. -/
def Stretch.shape (x : Stretch) : Shape where
  raw := x.rest
  readsFile := (x.redirections.filter Part.isInput).getLast?.any Part.isNamed
  writesFile := (x.redirections.filter Part.isOutput).getLast?.any Part.isNamed
  append := (x.redirections.filter Part.isOutput).getLast?.any (·.op == .append)

variable {value? : Text → Option Text}

theorem Stretch.Describes.shape {x : Stretch} {c : Command} (h : x.Describes value? c) :
    c.shape = x.shape := by
  have input : c.redirects.input.isSome = x.shape.readsFile := by
    rw [h.input, isSome_bind_target?]
    rfl
  have output : c.redirects.output.isSome = x.shape.writesFile := by
    rw [h.output, isSome_bind_target?]
    rfl
  rw [Command.shape, h.raw, input, output, h.append]
  rfl

theorem shape_parse {cut : Cut} {line : Text} (h : cut.Of line) :
    (parse value? line).map Command.shape = (chain cut.stretches).map Stretch.shape := by
  rw [parse_eq_chain value? h, List.map_map]
  refine List.map_congr_left fun x member => ?_
  have stretch := (prefix_chain cut.stretches).subset member
  exact (x.describes_command value? (not_isPipe_of_mem_stretches stretch)).shape

/-- Two environments find as many commands on a line, beginning at the same places, each with the
same streams redirected and with output put behind or over the target alike. They are those of the
cut of the line, whatever the values of its variables are. -/
theorem parse_shape_eq (value? other? : Text → Option Text) (line : Text) :
    (parse value? line).map Command.shape = (parse other? line).map Command.shape ∧
      (parse value? line).map Command.shape =
        (chain (Cut.ofSegments (segments line)).stretches).map Stretch.shape := by
  have cut := Cut.of_ofSegments line
  exact ⟨(shape_parse cut).trans (shape_parse cut).symm, shape_parse cut⟩

/-- Values that spell operators and quotes. -/
example :
    let line := "echo $A >$A| sort<$B".toList
    let value? : Text → Option Text := fun name => some (if name = ['A'] then "x|\"".toList else [])
    (parse value? line).map Command.shape =
        [⟨line, false, true, false⟩, ⟨" sort<$B".toList, true, false, false⟩] ∧
      (parse value? line).map Command.arguments = [["x|\" ".toList], []] := by
  decide

end CommandShell.Line
