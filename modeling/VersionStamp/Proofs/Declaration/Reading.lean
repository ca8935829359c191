import VersionStamp.Version.Declaration

namespace VersionStamp.Declaration

/-!
# What a text declares

A text declares the value of its first line that holds both the marker and the suffix. Reading the
text gives that value as a base version, or the reason why there is none.
-/

variable {d : Declaration} {text value : Text}

/-- A line that holds both the marker and the suffix. -/
def Matches (d : Declaration) (line : Text) : Prop :=
  d.marker <:+: line ∧ d.suffix <:+: line

instance (d : Declaration) (line : Text) : Decidable (d.Matches line) :=
  decidable_of_iff (Text.occurs d.marker line ∧ Text.occurs d.suffix line)
    (and_congr Text.occurs_iff Text.occurs_iff)

theorem not_matches_nil (h : d.marker ≠ [] ∨ d.suffix ≠ []) : ¬ d.Matches [] := by
  rintro ⟨hmarker, hsuffix⟩
  rcases h with h | h
  · exact h (List.infix_nil.mp hmarker)
  · exact h (List.infix_nil.mp hsuffix)

/-- The value of the first line that matches, with no regard to what follows it. -/
def Declares (d : Declaration) (text value : Text) : Prop :=
  ∃ before line after, text.split Text.isLineBreak = before ++ line :: after ∧
    (∀ l ∈ before, ¬ d.Matches l) ∧ value? d.marker d.suffix line = some value

/-- Only a line that does not match has no value. -/
theorem value?_eq_none_iff {line : Text} :
    value? d.marker d.suffix line = none ↔ ¬ d.Matches line := by
  simp [value?, Matches, ← Text.occurs_iff]

theorem value?_of_matches {line : Text} (h : d.Matches line) :
    value? d.marker d.suffix line = some (Text.trim
      ((Text.before? d.suffix (Text.removeAll d.marker line)).getD
        (Text.removeAll d.marker line))) := by
  have hmarker := Text.occurs_iff.mpr h.1
  have hsuffix := Text.occurs_iff.mpr h.2
  simp [value?, hmarker, hsuffix]

theorem value?_eq_some_iff {line : Text} :
    value? d.marker d.suffix line = some value ↔
      d.Matches line ∧ Text.trim ((Text.before? d.suffix (Text.removeAll d.marker line)).getD
        (Text.removeAll d.marker line)) = value := by
  by_cases hline : d.Matches line
  · simp [value?_of_matches hline, hline]
  · simp [value?_eq_none_iff.mpr hline, hline]

theorem declares_iff :
    d.Declares text value ↔
      (text.split Text.isLineBreak).findSome? (value? d.marker d.suffix) = some value := by
  rw [List.findSome?_eq_some_iff]
  constructor
  · rintro ⟨before, line, after, hsplit, hbefore, hline⟩
    exact ⟨before, line, after, hsplit, hline, fun l hl => value?_eq_none_iff.mpr (hbefore l hl)⟩
  · rintro ⟨before, line, after, hsplit, hline, hbefore⟩
    exact ⟨before, line, after, hsplit, fun l hl => value?_eq_none_iff.mp (hbefore l hl), hline⟩

/-- A declared value is the base version if it can be one. -/
theorem read_of_declares (h : d.Declares text value) : d.read text = BaseVersion.ofText value := by
  rw [read, declares_iff.mp h]

/-- Reading succeeds exactly with a declared value that is a base version. -/
theorem read_eq_ok_iff {b : BaseVersion} : d.read text = .ok b ↔ d.Declares text b.text := by
  constructor
  · intro h
    rw [read] at h
    split at h
    next value hvalue =>
      have htext := BaseVersion.ofText_eq_ok_iff.mp h
      exact declares_iff.mpr (htext ▸ hvalue)
    next => cases h
  · intro h
    rw [read_of_declares h, BaseVersion.ofText_text]

end VersionStamp.Declaration
