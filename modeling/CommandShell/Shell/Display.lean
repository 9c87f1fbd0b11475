import CommandShell.Text.Basic

/-!
Directives in the output of a command: what a front end shows instead of the text itself.

Output that equals `clearMark` asks for an empty screen. Output that begins with `imageMark` names
an image, and holds the text for front ends that cannot draw one.
-/
namespace CommandShell

/-- What a front end shows. -/
inductive Display
  | clearScreen
  | art (image text : Text)
  | text (text : Text)
deriving DecidableEq, Repr

namespace Display

def clearMark : Text := "[CLEAR_SCREEN]".toList

def imageMark : Text := "[ASCII_ART_IMAGE:".toList

def artMarker (image text : Text) : Text := imageMark ++ image ++ ']' :: '\n' :: text

/-- A text without one newline at its start. -/
def dropNewline : Text → Text
  | '\n' :: rest => rest
  | shown => shown

/-- What some output shows. The name of an image ends at the first closing bracket. -/
def ofOutput (output : Text) : Display :=
  if output == clearMark then .clearScreen
  else
    match Text.after? imageMark output with
    | some rest =>
      match Text.cutAt? [']'] rest with
      | some (image, shown) => .art image (dropNewline shown)
      | none => .text output
    | none => .text output

end Display

end CommandShell
