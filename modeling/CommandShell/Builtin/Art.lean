import CommandShell.Builtin.Basic
import CommandShell.Shell.Display

/-!
Built-in commands that show pictures of the asset directory.

A picture is a text, and there may be an image to draw in its place.
-/
namespace CommandShell.Builtin

/-- The file in the asset directory that holds the text of a picture. -/
def artFile (name : Text) : Text := name ++ ".txt".toList

def artOutput (s : State) (name : Text) : Except Text Text :=
  let pictures := Path.join s.config.assets "ascii".toList
  let textPath := Path.join pictures (artFile name)
  if !s.machine.isFile textPath then
    .error ("ASCII art file not found: ".toList ++ artFile name)
  else
    let content : Except IoError Text := (s.files.read (s.machine.absolute textPath)).bind
      fun bytes => (Text.decode? bytes).elim (.error .notText) .ok
    match content with
    | .error _ => .error ("Error loading ASCII art: ".toList ++ textPath)
    | .ok text =>
      let image := Path.join (Path.join pictures "gui_pics".toList) (name ++ ".png".toList)
      if s.machine.isFile image then
        match s.files.canonical (s.machine.absolute image) with
        | .ok image => .ok (Display.artMarker image text)
        | .error _ => .ok (Display.artMarker image text)
      else .ok text

/-- Shows a picture. It takes no words. -/
def art (description : String) (name : Text) : Builtin where
  name
  description := description.toList
  run words s :=
    match words with
    | word :: _ => refuse s (OperandError.unrecognized word).message
    | [] =>
      match artOutput s name with
      | .ok output => say s output
      | .error error => refuse s error

end CommandShell.Builtin
