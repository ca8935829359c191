import VersionStamp.Proofs.Declaration.Reading
import VersionStamp.Proofs.Text.Overlap

namespace VersionStamp.Declaration

/-!
# Markers and suffixes that cannot overlap

If the marker and the suffix are separate, the removal of the markers loses no suffix of a line. The
value is then cut out of what stands in front of the line's first suffix, and what stands behind
that place makes no difference.
-/

variable {d : Declaration} {line front back : Text}

/-- The search for the suffix in a line without markers ends in front of the first suffix that the
line has had before. -/
theorem before?_removeAll_of_separate (h : Text.Separate d.marker d.suffix)
    (hfront : Text.before? d.suffix line = some front) :
    ∃ kept, Text.before? d.suffix (Text.removeAll d.marker line) = some kept ∧
      kept <+: Text.removeAll d.marker front ∧
      Text.before? d.suffix (Text.removeAll d.marker front ++ d.suffix) = some kept := by
  obtain ⟨back, rfl, -⟩ := Text.before?_eq_some_iff.mp hfront
  rw [h.removeAll_append]
  exact Text.before?_append_self d.suffix _ _

theorem value?_of_before?_removeAll (hline : d.Matches line) {kept : Text}
    (h : Text.before? d.suffix (Text.removeAll d.marker line) = some kept) :
    value? d.marker d.suffix line = some (Text.trim kept) := by
  rw [value?_of_matches hline, h]
  rfl

/-- The default marker and suffix are separate. With separate ones, a line that matches still holds
the suffix when it has lost its markers. Its value is the trimmed beginning of what stands in front
of its first suffix, rid of the markers, and it is the value of every line that matches with the
same text in that place. -/
theorem value?_of_separate :
    Text.Separate ({} : Declaration).marker ({} : Declaration).suffix ∧
    ∀ (d : Declaration) (line : Text), Text.Separate d.marker d.suffix → d.Matches line →
      d.suffix <:+: Text.removeAll d.marker line ∧
      ∃ front kept, Text.before? d.suffix line = some front ∧
        Text.before? d.suffix (Text.removeAll d.marker line) = some kept ∧
        kept <+: Text.removeAll d.marker front ∧
        value? d.marker d.suffix line = some (Text.trim kept) ∧
        ∀ other, d.Matches other → Text.before? d.suffix other = some front →
          value? d.marker d.suffix other = some (Text.trim kept) := by
  refine ⟨by decide, fun d line hsep hline => ?_⟩
  cases hfront : Text.before? d.suffix line with
  | none => exact absurd hline.2 (Text.before?_eq_none_iff.mp hfront)
  | some front =>
      obtain ⟨kept, hkept, hprefix, hsearch⟩ := before?_removeAll_of_separate hsep hfront
      refine ⟨?_, front, kept, rfl, hkept, hprefix, value?_of_before?_removeAll hline hkept, ?_⟩
      · obtain ⟨back, hback, -⟩ := Text.before?_eq_some_iff.mp hkept
        exact ⟨kept, back, by rw [hback, List.append_assoc]⟩
      · intro other hother hsame
        obtain ⟨kept', hkept', -, hsearch'⟩ := before?_removeAll_of_separate hsep hsame
        obtain rfl : kept = kept' := Option.some.inj (hsearch.symm.trans hsearch')
        exact value?_of_before?_removeAll hother hkept'

/-- A marker within the value and a second declaration behind it: the value is cut out of `1.4`. -/
theorem value?_of_separate_repeated :
    let line : Text :=
      "VERSION \"1.VERSION \"4.${BUILD_NUMBER}\" VERSION \"9.0.${BUILD_NUMBER}\""
    ({} : Declaration).Matches line ∧
      ({} : Declaration).suffix <:+: Text.removeAll ({} : Declaration).marker line ∧
      ∃ kept, kept <+: ("1.4" : Text) ∧
        value? ({} : Declaration).marker ({} : Declaration).suffix line =
          some (Text.trim kept) := by
  intro line
  obtain ⟨hseparate, hall⟩ := value?_of_separate
  have hline : ({} : Declaration).Matches line := by decide
  obtain ⟨hkeeps, front, kept, hfront, -, hprefix, hvalue, -⟩ := hall {} line hseparate hline
  have hfirst : Text.before? ({} : Declaration).suffix line =
      some ("VERSION \"1.VERSION \"4" : Text) := by
    decide
  obtain rfl := Option.some.inj (hfirst.symm.trans hfront)
  have hrid : Text.removeAll ({} : Declaration).marker "VERSION \"1.VERSION \"4" = "1.4" := by
    decide
  exact ⟨hline, hkeeps, kept, hrid ▸ hprefix, hvalue⟩

end VersionStamp.Declaration
