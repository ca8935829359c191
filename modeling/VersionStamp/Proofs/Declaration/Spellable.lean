import Mathlib.Data.List.Infix
import VersionStamp.Proofs.Declaration.Value
import VersionStamp.Proofs.Text.Occurrence
import VersionStamp.Proofs.Text.Trim

namespace VersionStamp

/-!
# Declarations that can be spelled

With some markers and suffixes no text declares a version: the value is cut at the suffix, so
neither the empty suffix nor a dot leaves a dot in it, and a dot as the marker is removed everywhere;
a line break in one of the two is found in no line. With all others a line can be written, if one
character is left that keeps a dot at the front of the line apart from them.
-/

theorem Text.isLineBreak_of_not_isBlank {c : Char} (h : isBlank c = false) :
    isLineBreak c = false := by
  rw [isLineBreak, Bool.or_eq_false_iff, beq_eq_false_iff_ne, beq_eq_false_iff_ne]
  constructor
  · rintro rfl
    exact absurd h (by decide)
  · rintro rfl
    exact absurd h (by decide)

namespace Declaration

variable {d : Declaration} {text value : Text}

/-- What a marker and a suffix have to be for a version to be declared with them. -/
structure IsSpellable (d : Declaration) : Prop where
  suffix_ne_nil : d.suffix ≠ []
  suffix_ne_dot : d.suffix ≠ ['.']
  marker_ne_dot : d.marker ≠ ['.']
  isLine_marker : Text.IsLine d.marker
  isLine_suffix : Text.IsLine d.suffix

/-- A marker and a suffix with which some text declares a version. -/
theorem isSpellable_of_declares (h : d.Declares text value) (hdot : '.' ∈ value) :
    d.IsSpellable := by
  obtain ⟨line, hline, hvalue⟩ := exists_line_of_declares h
  obtain ⟨⟨hmarker, hsuffix⟩, rfl⟩ := value?_eq_some_iff.mp hvalue
  have hkept := (Text.trim_isInfix _).subset hdot
  refine ⟨?_, ?_, ?_, hline.of_infix hmarker, hline.of_infix hsuffix⟩
  · intro hnil
    rw [hnil, Text.before?_of_prefix List.nil_prefix] at hkept
    exact absurd hkept List.not_mem_nil
  · intro hsuffixDot
    rw [hsuffixDot] at hkept
    exact Text.not_mem_getD_before?_singleton '.' _ hkept
  · intro hmarkerDot
    have hunmarked := (Text.getD_before?_isPrefix d.suffix _).subset hkept
    rw [hmarkerDot] at hunmarked
    exact Text.not_mem_removeAll_singleton '.' line hunmarked

/-! ## A line that declares a version -/

/-- A dot, a character to keep it apart, the marker and the suffix. -/
def guardedLine (d : Declaration) (c : Char) : Text :=
  ['.'] ++ [c] ++ (d.marker ++ d.suffix)

theorem matches_guardedLine (d : Declaration) (c : Char) : d.Matches (d.guardedLine c) :=
  ⟨⟨['.'] ++ [c], d.suffix, by simp [guardedLine]⟩,
    ⟨['.'] ++ [c] ++ d.marker, [], by simp [guardedLine]⟩⟩

variable {c : Char}

theorem isLine_guardedLine (h : d.IsSpellable) (hc : Text.isLineBreak c = false) :
    Text.IsLine (d.guardedLine c) := by
  intro e he
  simp only [guardedLine, List.mem_append, List.mem_singleton] at he
  rcases he with (rfl | rfl) | hmarker | hsuffix
  · rfl
  · exact hc
  · exact h.isLine_marker e hmarker
  · exact h.isLine_suffix e hsuffix

/-- A part of more than a dot does not begin at a dot with a character behind it that it lacks. -/
theorem avoids_guard {part : Text} (hc : c ∉ part) (hnil : part ≠ []) (hdot : part ≠ ['.'])
    (t : Text) : Text.Avoids part (['.'] ++ [c]) t := by
  apply Text.avoids_concat_of_not_mem hc
  rw [List.infix_singleton_iff]
  exact not_or_intro hnil hdot

theorem exists_removeAll_guardedLine (h : d.IsSpellable) (hc : c ∉ d.marker) :
    ∃ rest, Text.removeAll d.marker (d.guardedLine c) = ['.'] ++ [c] ++ rest := by
  by_cases hnil : d.marker = []
  · exact ⟨d.marker ++ d.suffix, by simp [hnil, Text.removeAll, guardedLine]⟩
  · exact ⟨_, Text.removeAll_append (avoids_guard hc hnil h.marker_ne_dot _)⟩

theorem dot_mem_getD_before? (h : d.IsSpellable) (hc : c ∉ d.suffix) (rest : Text) :
    '.' ∈ (Text.before? d.suffix (['.'] ++ [c] ++ rest)).getD (['.'] ++ [c] ++ rest) := by
  rw [Text.before?_append (avoids_guard hc h.suffix_ne_nil h.suffix_ne_dot rest)]
  cases Text.before? d.suffix rest <;> simp

/-- The line declares a version. -/
theorem exists_read_guardedLine (h : d.IsSpellable) (hc : Text.isLineBreak c = false)
    (hmarker : c ∉ d.marker) (hsuffix : c ∉ d.suffix) :
    ∃ b, d.read (d.guardedLine c) = .ok b := by
  have hvalue := value?_of_matches (matches_guardedLine d c)
  obtain ⟨rest, hrest⟩ := exists_removeAll_guardedLine h hmarker
  rw [hrest] at hvalue
  have hdot := Text.mem_trim (dot_mem_getD_before? h hsuffix rest) (by decide)
  have hdeclares : d.Declares (d.guardedLine c) _ :=
    ⟨[], d.guardedLine c, [], Text.split_of_all_not (isLine_guardedLine h hc), nofun, hvalue⟩
  exact ⟨⟨_, List.ne_nil_of_mem hdot, hdot⟩, read_eq_ok_iff.mpr hdeclares⟩

/-- Whatever text declares a version, the marker and the suffix can be spelled. If they can, and
there is a character besides blanks and the dot that neither of them has, some text declares one. -/
theorem isSpellable_and_exists_read (d : Declaration) :
    (∀ text b, d.read text = .ok b → d.IsSpellable) ∧
    (d.IsSpellable → (∃ c, Text.isBlank c = false ∧ c ≠ '.' ∧ c ∉ d.marker ∧ c ∉ d.suffix) →
      ∃ text b, d.read text = .ok b) := by
  constructor
  · intro text b hread
    exact isSpellable_of_declares (read_eq_ok_iff.mp hread) b.isBase.2
  · rintro hspellable ⟨c, hblank, -, hmarker, hsuffix⟩
    have hbreak := Text.isLineBreak_of_not_isBlank hblank
    exact ⟨_, exists_read_guardedLine hspellable hbreak hmarker hsuffix⟩

/-- A marker and a suffix that overlap, and a suffix with which no text declares a version. -/
theorem isSpellable_and_exists_read_overlapping :
    (∃ text b, ({ marker := ".$", suffix := "$." } : Declaration).read text = .ok b) ∧
      ∀ text b, ({ suffix := "." } : Declaration).read text ≠ .ok b := by
  constructor
  · apply (isSpellable_and_exists_read _).2
    · exact ⟨by decide, by decide, by decide, by decide, by decide⟩
    · exact ⟨'x', by decide, by decide, by decide, by decide⟩
  · intro text b hread
    exact ((isSpellable_and_exists_read _).1 text b hread).suffix_ne_dot rfl

end Declaration

end VersionStamp
