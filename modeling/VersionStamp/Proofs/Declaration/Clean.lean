import VersionStamp.Proofs.Declaration.LineByLine
import VersionStamp.Proofs.Declaration.Value
import VersionStamp.Proofs.Text.Occurrence
import VersionStamp.Proofs.Text.Trim

namespace VersionStamp.Declaration

/-!
# Base versions are clean

Whatever stands in the file, and however the marker and the suffix overlap each other or the blanks
around a value, a base version that is read has nothing of the declaration left in it: it is
trimmed, it holds no line break and no suffix, and its characters come from the first line that
matches.
-/

variable {d : Declaration} {text line value : Text}

/-- The first line that holds both the marker and the suffix. -/
def firstMatch? (d : Declaration) (text : Text) : Option Text :=
  text.lines.find? fun line => d.Matches line

/-- What a value is that has been cut cleanly out of a line. -/
structure IsClean (d : Declaration) (line value : Text) : Prop where
  ne_nil : value ≠ []
  dot_mem : '.' ∈ value
  isTrimmed : Text.IsTrimmed value
  isLine : Text.IsLine value
  not_suffix : ¬ d.suffix <:+: value
  sublist : value.Sublist line

/-- Line ends of two breaks make no difference to the line that matches first, since the piece
within them matches nothing. -/
theorem firstMatch?_of_split (hempty : ¬ d.Matches [])
    (h : (text.split Text.isLineBreak).find? (fun line => d.Matches line) = some line) :
    d.firstMatch? text = some line := by
  have hnil : decide (d.Matches []) = false := decide_eq_false hempty
  calc
    d.firstMatch? text = (Text.filled text.lines).find? fun line => d.Matches line :=
      (Text.find?_filled hnil _).symm
    _ = (Text.filled (text.split Text.isLineBreak)).find? fun line => d.Matches line := by
      rw [(Text.sameFilled_split_lines text).filled_eq]
    _ = (text.split Text.isLineBreak).find? fun line => d.Matches line := Text.find?_filled hnil _
    _ = some line := h

theorem firstMatch?_of_declares (hempty : ¬ d.Matches []) (h : d.Declares text value) :
    ∃ line, d.firstMatch? text = some line ∧ value? d.marker d.suffix line = some value := by
  obtain ⟨before, line, after, hsplit, hbefore, hvalue⟩ := h
  refine ⟨line, firstMatch?_of_split hempty ?_, hvalue⟩
  rw [List.find?_eq_some_iff_append]
  refine ⟨decide_eq_true (value?_eq_some_iff.mp hvalue).1, before, after, hsplit, fun l hl => ?_⟩
  simpa using hbefore l hl

theorem isTrimmed_of_value? (h : value? d.marker d.suffix line = some value) :
    Text.IsTrimmed value := by
  obtain ⟨-, rfl⟩ := value?_eq_some_iff.mp h
  exact Text.isTrimmed_trim _

/-- A value is cut in front of the first suffix, so that it has none. -/
theorem not_suffix_of_value? (hsuffix : d.suffix ≠ [])
    (h : value? d.marker d.suffix line = some value) : ¬ d.suffix <:+: value := by
  obtain ⟨-, rfl⟩ := value?_eq_some_iff.mp h
  intro hoccurs
  exact Text.not_isInfix_getD_before? hsuffix _ (hoccurs.trans (Text.trim_isInfix _))

/-- With the empty suffix nothing is left of a line. -/
theorem suffix_ne_nil_of_value? (h : value? d.marker d.suffix line = some value)
    (hvalue : value ≠ []) : d.suffix ≠ [] := by
  obtain ⟨-, rfl⟩ := value?_eq_some_iff.mp h
  intro hnil
  rw [hnil, Text.before?_of_prefix List.nil_prefix] at hvalue
  exact hvalue rfl

/-- A base version that is read from a text is clean. -/
theorem isClean_of_read {b : BaseVersion} (h : d.read text = .ok b) :
    ∃ line, d.firstMatch? text = some line ∧ d.IsClean line b.text := by
  have hdeclares := read_eq_ok_iff.mp h
  obtain ⟨_, -, hsome⟩ := exists_line_of_declares hdeclares
  have hsuffix := suffix_ne_nil_of_value? hsome b.isBase.1
  obtain ⟨line, hfirst, hvalue⟩ :=
    firstMatch?_of_declares (not_matches_nil (.inr hsuffix)) hdeclares
  refine ⟨line, hfirst, ?_⟩
  exact {
    ne_nil := b.isBase.1
    dot_mem := b.isBase.2
    isTrimmed := isTrimmed_of_value? hvalue
    isLine := isLine_of_declares hdeclares
    not_suffix := not_suffix_of_value? hsuffix hvalue
    sublist := sublist_of_value? hvalue }

/-- The suffix at which the value ends is put together by the removal of a marker from within it. -/
theorem isClean_of_read_joined :
    let d : Declaration := { marker := "x ", suffix := " ab" }
    let text : Text := "ab\r\n\t1.2 ax b 3.4x  ab\rx 5.6 ab"
    ∃ b, d.read text = .ok b ∧ b.text = "1.2" ∧
      d.firstMatch? text = some ("\t1.2 ax b 3.4x  ab" : Text) ∧
      d.IsClean "\t1.2 ax b 3.4x  ab" b.text := by
  intro d text
  have hread : d.read text = .ok ⟨"1.2", by decide⟩ := rfl
  have hline : d.firstMatch? text = some ("\t1.2 ax b 3.4x  ab" : Text) := by decide
  obtain ⟨line, hfirst, hclean⟩ := isClean_of_read hread
  obtain rfl := Option.some.inj (hline.symm.trans hfirst)
  exact ⟨_, hread, rfl, hline, hclean⟩

end VersionStamp.Declaration
