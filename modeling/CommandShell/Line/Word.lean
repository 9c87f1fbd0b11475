import CommandShell.Line.Quote
import CommandShell.Text.Blank

/-!
Words: the runs of a text between blanks that stand outside quotes. Quote characters stay in the
words, so a word still says which of its characters were quoted.
-/
namespace CommandShell.Line

/-- Puts a word before others unless it is empty. -/
def consWord (word : Text) (words : List Text) : List Text :=
  if word.isEmpty then words else word :: words

/-- Reads on from the scan `s`: the rest of the word being read, and the words after it. -/
def wordsFrom (s : Scan) : Text → Text × List Text
  | [] => ([], [])
  | c :: rest =>
    let next := s.read c
    let (word, words) := wordsFrom next rest
    if Text.isBlank c && !next.inside then ([], consWord word words) else (c :: word, words)

/-- The words of a text, in order. -/
def words (text : Text) : List Text :=
  let (word, rest) := wordsFrom {} text
  consWord word rest

end CommandShell.Line
