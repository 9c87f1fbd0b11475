import CommandShell.Process.Event
import CommandShell.Text.Utf8

/-!
Draining a stream: the bytes that a process writes, read line by line.

A line is decoded by itself, and loses the carriage returns and the newline at its end. What is
kept of the stream is each line followed by one newline.
-/
namespace CommandShell.Drain

/-- Puts a byte on the first of a list of pieces. -/
def onFirst (b : UInt8) : List Bytes → List Bytes
  | [] => [[b]]
  | piece :: rest => (b :: piece) :: rest

def newline : UInt8 := 10

/-- The pieces of a stream, each with the newline that ends it; the last piece may have none. -/
def pieces : Bytes → List Bytes
  | [] => []
  | b :: rest => if b = newline then [b] :: pieces rest else onFirst b (pieces rest)

/-- Whether a character belongs to the end of a line. -/
def isLineEnd (c : Char) : Bool := c == '\n' || c == '\r'

/-- The text of a piece without its line end. -/
def lineText (piece : Bytes) : Text := Text.dropEndWhile isLineEnd (Text.decode piece)

def lines (stream : Bytes) : List Text := (pieces stream).map lineText

def joined (lines : List Text) : Text := lines.flatMap Text.line

def captured (stream : Bytes) : Text := joined (lines stream)

end CommandShell.Drain
