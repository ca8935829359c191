import VersionStamp.Proofs.Declaration.Reading
import VersionStamp.Proofs.Text.FilledLines

namespace VersionStamp.Declaration

/-!
# Reading line by line

A declaration is read from the pieces between all line breaks. Since no empty piece matches, unless
both the marker and the suffix are empty, this is the same as to read the lines one after the other,
and the line ends can be of any kind.
-/

variable {d : Declaration}

/-- The base version that some lines declare. The first line that matches decides. -/
def readLines (d : Declaration) : List Text → Except Failure BaseVersion
  | [] => .error (.noDeclaration d.file)
  | line :: rest =>
      match value? d.marker d.suffix line with
      | some value => BaseVersion.ofText value
      | none => d.readLines rest

theorem readLines_cons_of_not_matches {line : Text} (h : ¬ d.Matches line) (rest : List Text) :
    d.readLines (line :: rest) = d.readLines rest := by
  rw [readLines, value?_eq_none_iff.mpr h]

/-- Reading goes through the pieces of the text one by one. -/
theorem read_eq_readLines_split (d : Declaration) (text : Text) :
    d.read text = d.readLines (text.split Text.isLineBreak) := by
  rw [read]
  induction text.split Text.isLineBreak with
  | nil => rfl
  | cons line rest ih =>
      rw [List.findSome?_cons, readLines]
      cases value? d.marker d.suffix line with
      | some value => rfl
      | none => exact ih

/-- Empty lines make no difference where they do not match. -/
theorem readLines_filled (hempty : ¬ d.Matches []) (lines : List Text) :
    d.readLines (Text.filled lines) = d.readLines lines := by
  induction lines with
  | nil => rfl
  | cons line rest ih =>
      cases line with
      | nil =>
          calc
            d.readLines (Text.filled ([] :: rest)) = d.readLines (Text.filled rest) := by
              rw [Text.filled_nil_cons]
            _ = d.readLines rest := ih
            _ = d.readLines ([] :: rest) := (readLines_cons_of_not_matches hempty rest).symm
      | cons c line =>
          have hfilled : Text.filled ((c :: line) :: rest) = (c :: line) :: Text.filled rest := rfl
          rw [hfilled, readLines, readLines, ih]

theorem readLines_of_sameFilled (hempty : ¬ d.Matches []) {xs ys : List Text}
    (h : Text.SameFilled xs ys) : d.readLines xs = d.readLines ys := by
  calc
    d.readLines xs = d.readLines (Text.filled xs) := (readLines_filled hempty xs).symm
    _ = d.readLines (Text.filled ys) := by rw [h.filled_eq]
    _ = d.readLines ys := readLines_filled hempty ys

/-- Unless the marker and the suffix are both empty, a text is read as its lines one after the
other, and as any text that has line ends of other kinds. -/
theorem read_line_by_line (h : d.marker ≠ [] ∨ d.suffix ≠ []) :
    (∀ text, d.read text = d.readLines text.lines) ∧
      ∀ text text', Text.EndsRewritten text text' → d.read text = d.read text' := by
  have hempty := not_matches_nil h
  constructor
  · intro text
    rw [read_eq_readLines_split]
    exact readLines_of_sameFilled hempty (Text.sameFilled_split_lines text)
  · intro text text' hrewritten
    rw [read_eq_readLines_split, read_eq_readLines_split]
    exact readLines_of_sameFilled hempty hrewritten.sameFilled

/-- The value of the first line that matches is no version, whatever the line ends are and although
the next line would declare one. -/
theorem read_line_by_line_rejected :
    let undotted : Text := "VERSION \"14.${BUILD_NUMBER}\""
    let dotted : Text := "VERSION \"1.4.${BUILD_NUMBER}\""
    ({} : Declaration).marker ≠ [] ∧
      ({} : Declaration).read ("\r" ++ ("\r\n" ++ (undotted ++ ("\r" ++ dotted)))) =
        .error (.badVersion "14") ∧
      ({} : Declaration).read ("\n" ++ ("\r" ++ (undotted ++ ("\r\n" ++ dotted)))) =
        .error (.badVersion "14") := by
  intro undotted dotted
  have hmarker : ({} : Declaration).marker ≠ [] := by decide
  obtain ⟨hlines, hrewrite⟩ := read_line_by_line (.inl hmarker)
  have hread : ({} : Declaration).read
      ("\r" ++ ("\r\n" ++ (undotted ++ ("\r" ++ dotted)))) = .error (.badVersion "14") := by
    rw [hlines]
    rfl
  refine ⟨hmarker, hread, ?_⟩
  rw [← hread]
  apply hrewrite
  apply Text.EndsRewritten.lineEnd .lf .cr
  apply Text.EndsRewritten.lineEnd .cr .crlf
  apply Text.EndsRewritten.line_append (by decide)
  apply Text.EndsRewritten.lineEnd .crlf .cr
  rw [← List.append_nil dotted]
  exact Text.EndsRewritten.line_append (by decide) .nil

end VersionStamp.Declaration
