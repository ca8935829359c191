import VersionStamp.Text.Lines

namespace VersionStamp

/-!
# Line ends

A line ends in a line feed, a carriage return, or both in this order. Cut at every break, a text of
complete lines gives these lines, and an empty piece behind each that ends in both.
-/

inductive LineEnd where
  | lf
  | crlf
  | cr
  deriving DecidableEq

def LineEnd.text : LineEnd → Text
  | .lf => "\n"
  | .crlf => "\r\n"
  | .cr => "\r"

namespace Text

def IsLine (t : Text) : Prop :=
  ∀ c ∈ t, isLineBreak c = false

instance (t : Text) : Decidable (IsLine t) :=
  decidable_of_iff (t.all fun c => !isLineBreak c) (by simp [IsLine])

theorem IsLine.of_infix {line part : Text} (h : IsLine line) (hpart : part <:+: line) :
    IsLine part :=
  fun c hc => h c (hpart.subset hc)

/-- Lines, each with its end behind it. -/
def ofLines (lines : List (Text × LineEnd)) : Text :=
  lines.flatMap fun (line, ending) => line ++ ending.text

def linePieces (lines : List (Text × LineEnd)) : List Text :=
  lines.flatMap fun (line, ending) => if ending = .crlf then [line, []] else [line]

theorem mem_linePieces {lines : List (Text × LineEnd)} {piece : Text}
    (h : piece ∈ linePieces lines) : piece = [] ∨ ∃ l ∈ lines, piece = l.1 := by
  obtain ⟨⟨line, ending⟩, hmem, hpiece⟩ := List.mem_flatMap.mp h
  cases ending with
  | crlf =>
      have hpieces : piece = line ∨ piece = [] := by simpa using hpiece
      exact hpieces.symm.imp_right fun heq => ⟨_, hmem, heq⟩
  | lf => exact .inr ⟨_, hmem, by simpa using hpiece⟩
  | cr => exact .inr ⟨_, hmem, by simpa using hpiece⟩

theorem split_line_append {line : Text} (hline : IsLine line) (ending : LineEnd) (t : Text) :
    split isLineBreak (line ++ ending.text ++ t) =
      linePieces [(line, ending)] ++ split isLineBreak t := by
  rw [List.append_assoc]
  cases ending with
  | lf => exact split_append_cons hline rfl
  | cr => exact split_append_cons hline rfl
  | crlf =>
      calc
        split isLineBreak (line ++ '\r' :: '\n' :: t) = line :: split isLineBreak ('\n' :: t) :=
          split_append_cons hline rfl
        _ = line :: [] :: split isLineBreak t := rfl

/-- Complete lines in front of a text are split off as their pieces. -/
theorem split_ofLines_append {lines : List (Text × LineEnd)} (h : ∀ l ∈ lines, IsLine l.1)
    (t : Text) :
    split isLineBreak (ofLines lines ++ t) = linePieces lines ++ split isLineBreak t := by
  induction lines with
  | nil => rfl
  | cons first rest ih =>
      have hfirst := split_line_append (h first List.mem_cons_self) first.2 (ofLines rest ++ t)
      rw [ih fun l hl => h l (List.mem_cons_of_mem _ hl)] at hfirst
      simpa [ofLines, linePieces] using hfirst

/-- A line is the first piece of a text that goes on with a line end or not at all. -/
theorem split_line {line rest : Text} (hline : IsLine line)
    (hrest : rest = [] ∨ ∃ (ending : LineEnd) (more : Text), rest = ending.text ++ more) :
    ∃ after, split isLineBreak (line ++ rest) = line :: after := by
  rcases hrest with rfl | ⟨ending, more, rfl⟩
  · exact ⟨[], by rw [List.append_nil, split_of_all_not hline]⟩
  · rw [← List.append_assoc, split_line_append hline]
    cases ending <;> exact ⟨_, rfl⟩

end Text

end VersionStamp
