import VersionStamp.Proofs.Declaration.Reading
import VersionStamp.Proofs.Text.LineEnd
import VersionStamp.Proofs.Text.Occurrence
import VersionStamp.Proofs.Text.Trim

namespace VersionStamp.Declaration

/-!
# Reading what is spelled in the usual way

The default marker and the default suffix end in a quote and have no other. So a line without
quotes in front of the marker and in front of the suffix is cut exactly where these are spelled,
whatever stands behind the suffix.
-/

/-- A line with a marker, a value and a suffix, in a context. -/
def spelled (d : Declaration) (pre v post : Text) : Text :=
  pre ++ d.marker ++ v ++ d.suffix ++ post

theorem matches_spelled (d : Declaration) (pre v post : Text) :
    d.Matches (d.spelled pre v post) := by
  refine ⟨⟨pre, v ++ d.suffix ++ post, ?_⟩, ⟨pre ++ d.marker ++ v, post, rfl⟩⟩
  simp [spelled]

section EndMark

variable {d : Declaration} {q : Char} {marker suffix pre v : Text}

theorem removeAll_spelled (hm : d.marker = marker ++ [q]) (hs : d.suffix = suffix ++ [q])
    (hmarker : q ∉ marker) (hsuffix : q ∉ suffix) (hpre : q ∉ pre) (hv : q ∉ v)
    (hseam : ¬ marker <:+ v ++ suffix) (post : Text) :
    Text.removeAll d.marker (d.spelled pre v post) =
      pre ++ v ++ d.suffix ++ Text.removeAll d.marker post := by
  have hfront : Text.Avoids d.marker pre (d.marker ++ (v ++ suffix ++ [q] ++ post)) := by
    rw [hm]
    exact Text.avoids_append_self hpre hmarker
  have hback : Text.Avoids d.marker (v ++ suffix ++ [q]) post := by
    rw [hm]
    exact Text.avoids_of_not_suffix (by simp [hv, hsuffix]) hmarker hseam
  calc
    Text.removeAll d.marker (d.spelled pre v post) =
        Text.removeAll d.marker (pre ++ (d.marker ++ (v ++ suffix ++ [q] ++ post))) := by
      simp [spelled, hs]
    _ = pre ++ Text.removeAll d.marker (v ++ suffix ++ [q] ++ post) := by
      rw [Text.removeAll_append hfront, Text.removeAll_append_self]
    _ = pre ++ (v ++ suffix ++ [q] ++ Text.removeAll d.marker post) := by
      rw [Text.removeAll_append hback]
    _ = _ := by simp [hs]

/-- If marker and suffix have one end mark, the value is what stands around the marker up to the
suffix, provided that neither part of it has the mark and no marker ends in the suffix. -/
theorem value?_spelled (hm : d.marker = marker ++ [q]) (hs : d.suffix = suffix ++ [q])
    (hmarker : q ∉ marker) (hsuffix : q ∉ suffix) (hpre : q ∉ pre) (hv : q ∉ v)
    (hseam : ¬ marker <:+ v ++ suffix) (post : Text) :
    value? d.marker d.suffix (d.spelled pre v post) = some (Text.trim (pre ++ v)) := by
  have havoids : Text.Avoids d.suffix (pre ++ v)
      (d.suffix ++ Text.removeAll d.marker post) := by
    rw [hs]
    exact Text.avoids_append_self (by simp [hpre, hv]) hsuffix
  have hbefore : Text.before? d.suffix (Text.removeAll d.marker (d.spelled pre v post)) =
      some (pre ++ v) := by
    calc
      Text.before? d.suffix (Text.removeAll d.marker (d.spelled pre v post)) =
          Text.before? d.suffix (pre ++ v ++ (d.suffix ++ Text.removeAll d.marker post)) := by
        rw [removeAll_spelled hm hs hmarker hsuffix hpre hv hseam, List.append_assoc]
      _ = (Text.before? d.suffix (d.suffix ++ Text.removeAll d.marker post)).map (pre ++ v ++ ·) :=
        Text.before?_append havoids
      _ = some (pre ++ v) := by
        rw [Text.before?_of_prefix (List.prefix_append _ _), Option.map_some, List.append_nil]
  rw [value?_of_matches (matches_spelled d pre v post), hbefore]
  rfl

end EndMark

theorem value?_spelled_default {pre v : Text} (hpre : '"' ∉ pre) (hv : '"' ∉ v) (post : Text) :
    value? ({} : Declaration).marker ({} : Declaration).suffix
      (({} : Declaration).spelled pre v post) = some (Text.trim (pre ++ v)) := by
  have hm : ({} : Declaration).marker = "VERSION ".toList ++ ['"'] := rfl
  have hs : ({} : Declaration).suffix = ".${BUILD_NUMBER}".toList ++ ['"'] := rfl
  refine value?_spelled hm hs (by decide) (by decide) hpre hv ?_ post
  rintro ⟨front, hfront⟩
  have hlast := congrArg List.getLast? hfront
  simp at hlast

/-! ## Texts -/

section Reading

variable {d : Declaration} {lines : List (Text × LineEnd)} {line rest value : Text}

/-- Behind complete lines that do not match, the first line that does is the one that declares. -/
theorem declares_of_value? (hlines : ∀ l ∈ lines, Text.IsLine l.1 ∧ ¬ d.Matches l.1)
    (hempty : ¬ d.Matches []) (hline : Text.IsLine line)
    (hrest : rest = [] ∨ ∃ (ending : LineEnd) (more : Text), rest = ending.text ++ more)
    (hvalue : value? d.marker d.suffix line = some value) :
    d.Declares (Text.ofLines lines ++ line ++ rest) value := by
  obtain ⟨after, hafter⟩ := Text.split_line hline hrest
  refine ⟨Text.linePieces lines, line, after, ?_, fun piece hpiece => ?_, hvalue⟩
  · calc
      Text.split Text.isLineBreak (Text.ofLines lines ++ line ++ rest) =
          Text.linePieces lines ++ Text.split Text.isLineBreak (line ++ rest) := by
        rw [List.append_assoc, Text.split_ofLines_append fun l hl => (hlines l hl).1]
      _ = Text.linePieces lines ++ line :: after := by rw [hafter]
  · rcases Text.mem_linePieces hpiece with rfl | ⟨l, hl, rfl⟩
    · exact hempty
    · exact (hlines l hl).2

end Reading

theorem not_matches_nil_default : ¬ ({} : Declaration).Matches [] :=
  not_matches_nil (.inl (by decide))

theorem isLine_spelled_default {pre v post : Text} (hpre : Text.IsLine pre)
    (hv : Text.IsLine v) (hpost : Text.IsLine post) :
    Text.IsLine (({} : Declaration).spelled pre v post) := by
  have hmarker : Text.IsLine ({} : Declaration).marker := by decide
  have hsuffix : Text.IsLine ({} : Declaration).suffix := by decide
  intro c hc
  simp only [spelled, List.mem_append] at hc
  rcases hc with (((hc | hc) | hc) | hc) | hc
  · exact hpre c hc
  · exact hmarker c hc
  · exact hv c hc
  · exact hsuffix c hc
  · exact hpost c hc

/-- With the default marker and suffix, the first line that is spelled as a declaration gives what
it spells: a version if there is a dot, and else the complaint that quotes it. -/
theorem read_spelled_default (lines : List (Text × LineEnd)) (pre v post rest : Text)
    (hlines : ∀ l ∈ lines, Text.IsLine l.1 ∧ ¬ ({} : Declaration).Matches l.1)
    (hpre : '"' ∉ pre ∧ Text.IsLine pre) (hv : '"' ∉ v ∧ Text.IsLine v)
    (hpost : Text.IsLine post)
    (hrest : rest = [] ∨ ∃ (ending : LineEnd) (more : Text), rest = ending.text ++ more) :
    ('.' ∈ Text.trim (pre ++ v) → ∃ b,
      ({} : Declaration).read (Text.ofLines lines ++ spelled {} pre v post ++ rest) = .ok b ∧
        b.text = Text.trim (pre ++ v)) ∧
    ('.' ∉ Text.trim (pre ++ v) →
      ({} : Declaration).read (Text.ofLines lines ++ spelled {} pre v post ++ rest) =
        .error (.declaration ("Bad version: \"" ++ Text.trim (pre ++ v) ++ "\""))) ∧
    ((∀ c ∈ pre, Text.isBlank c) → Text.trim v = v → '.' ∈ v → ∃ b,
      ({} : Declaration).read (Text.ofLines lines ++ spelled {} pre v post ++ rest) = .ok b ∧
        b.text = v) := by
  have hdeclares : ({} : Declaration).Declares
      (Text.ofLines lines ++ spelled {} pre v post ++ rest) (Text.trim (pre ++ v)) :=
    declares_of_value? hlines not_matches_nil_default
      (isLine_spelled_default hpre.2 hv.2 hpost) hrest (value?_spelled_default hpre.1 hv.1 post)
  have hdotted : '.' ∈ Text.trim (pre ++ v) → ∃ b,
      ({} : Declaration).read (Text.ofLines lines ++ spelled {} pre v post ++ rest) = .ok b ∧
        b.text = Text.trim (pre ++ v) := by
    intro hdot
    have hbase : IsBase (Text.trim (pre ++ v)) := ⟨List.ne_nil_of_mem hdot, hdot⟩
    exact ⟨⟨_, hbase⟩, read_eq_ok_iff.mpr hdeclares, rfl⟩
  refine ⟨hdotted, fun hdot => ?_, fun hblank htrim hdot => ?_⟩
  · have hbase : ¬ IsBase (Text.trim (pre ++ v)) := fun h => hdot h.2
    rw [read_of_declares hdeclares, BaseVersion.ofText, dif_neg hbase]
    rfl
  · have hvalue : Text.trim (pre ++ v) = v := by rw [Text.trim_blank_append hblank, htrim]
    rw [hvalue] at hdotted
    exact hdotted hdot

/-- Behind a line that has only the marker, and in front of a second declaration on its own line. -/
theorem read_spelled_default_indented :
    ∃ b, ({} : Declaration).read
        (Text.ofLines [("cmake(VERSION \"3.15\")", .crlf)] ++
          spelled {} "\t" "1.4.0" " VERSION \".${BUILD_NUMBER}\"" ++ "\r") = .ok b ∧
      b.text = "1.4.0" := by
  have hblank : ("\t" : Text).all Text.isBlank = true := by decide
  exact (read_spelled_default [("cmake(VERSION \"3.15\")", .crlf)] "\t" "1.4.0"
    " VERSION \".${BUILD_NUMBER}\"" "\r" (by decide) (by decide) (by decide) (by decide)
    (.inr ⟨.cr, [], rfl⟩)).2.2 (List.all_eq_true.mp hblank) (by decide) (by decide)

end VersionStamp.Declaration
