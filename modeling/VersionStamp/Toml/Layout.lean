import VersionStamp.Text

namespace VersionStamp.Toml

/-!
# The layout of a document

Spaces, comments and line ends stand between the parts of a document. A stretch of a document is
known by what the document still holds at its two ends, so a reader that returns what it has not
read also tells where something stands.
-/

/-- A stretch of a document: what is left at its start, and what is left behind it. -/
structure Span where
  start : Text
  stop : Text

def Span.upTo (s t : Span) : Span :=
  ⟨s.start, t.stop⟩

def Span.byteLength (s : Span) : Nat :=
  Text.byteLength s.start - Text.byteLength s.stop

def isSpace (c : Char) : Bool :=
  c == ' ' || c == '\t'

/-- The characters that may stand for themselves: all but the control characters of ASCII, of which
only the tab may. -/
def isPlain (c : Char) : Bool :=
  c == '\t' || (0x20 ≤ c.toNat && c.toNat != 0x7F)

def skipSpaces (t : Text) : Text :=
  t.dropWhile isSpace

def beginsBreak (c : Char) (rest : Text) : Bool :=
  c == '\r' && rest.head? == some '\n'

def skipBreak : Text → Text
  | '\n' :: rest => rest
  | '\r' :: '\n' :: rest => rest
  | t => t

/-- What follows the line end at the front of the text. The end of the document ends a line. -/
def readLineEnd? : Text → Option Text
  | [] => some []
  | '\n' :: rest => some rest
  | '\r' :: '\n' :: rest => some rest
  | _ => none

/-- What follows the rest of a line on which there is at most a comment. -/
def readTrailer? (t : Text) : Option Text :=
  match skipSpaces t with
  | '#' :: rest => readLineEnd? (rest.dropWhile isPlain)
  | rest => readLineEnd? rest

def skipLayout (inComment : Bool) : Text → Text
  | [] => []
  | c :: rest =>
      if c == '\n' then skipLayout false rest
      else if beginsBreak c rest then skipLayout inComment rest
      else if inComment then
        if isPlain c then skipLayout true rest else c :: rest
      else if isSpace c then skipLayout false rest
      else if c == '#' then skipLayout true rest
      else c :: rest

example : skipLayout false " # é\r\n\t\n x" = ['x'] := by decide

example : readTrailer? " # a\r\nb" = some ['b'] := by decide

example : readTrailer? "\rb" = none := by decide

end VersionStamp.Toml
