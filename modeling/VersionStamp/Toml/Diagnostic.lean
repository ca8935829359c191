import VersionStamp.Text.Lines
import VersionStamp.Toml.Layout

namespace VersionStamp.Toml

/-!
# Diagnostics

A diagnostic shows the line on which a stretch of the document begins, with carets below the
stretch as far as it goes on that line.
-/

/-- The place of a stretch: its line and column, counted from one, the text of the line, and the
number of carets. The column counts characters, the carets count bytes. -/
structure Place where
  line : Nat
  column : Nat
  source : Text
  carets : Nat

def isLineFeed (c : Char) : Bool :=
  c == '\n'

def Span.place (s : Span) (document : Text) : Place :=
  let before := document.take (document.length - s.start.length)
  let begun := (before.reverse.takeWhile (!isLineFeed ·)).reverse
  let source := begun ++ s.start.takeWhile (!isLineFeed ·)
  { line := before.countP isLineFeed + 1
    column := begun.length + 1
    source
    carets := max 1 (min s.byteLength (Text.byteLength source - begun.length)) }

def diagnostic (document : Text) (span : Option Span) (message : Text) : Text :=
  match span with
  | none => "TOML parse error\n" ++ message ++ "\n"
  | some s =>
      let place := s.place document
      let number := Text.ofNat place.line
      let gutter := List.replicate number.length ' ' ++ " |"
      "TOML parse error at line " ++ number ++ ", column " ++ Text.ofNat place.column ++ "\n" ++
        gutter ++ "\n" ++
        number ++ " | " ++ place.source ++ "\n" ++
        gutter ++ List.replicate place.column ' ' ++ List.replicate place.carets '^' ++ "\n" ++
        message ++ "\n"

example :
    diagnostic "a\nkey = 1\n" (some ⟨"key = 1\n", " = 1\n"⟩) "unknown" =
      "TOML parse error at line 2, column 1\n  |\n2 | key = 1\n  | ^^^\nunknown\n" := by
  decide

end VersionStamp.Toml
