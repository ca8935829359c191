import VersionStamp.Proofs.Settings.Acceptance
import VersionStamp.Proofs.Toml.Arrangement

namespace VersionStamp.Settings

/-!
# Loading settings that have been written

Settings are written as a document that gives each field as a string: in any order, in any of the
notations of a table, and without the fields that have their default. Whatever the strings are and
however they are spelled, loading the document gives the settings back.
-/

open Toml (Content Entries lookup? WrittenField Arrangement)

/-- The fields of a section with the strings that stand for their values. -/
def values (s : Settings) : Section → List (Text × Text)
  | .project =>
      [("file", s.project.file), ("marker", s.project.marker), ("suffix", s.project.suffix)]
  | .git => [("program", s.git.program), ("backend", s.git.backend.name)]

/-- The arrangement has only sections, gives fields of the settings, and leaves out only fields with
their default. -/
structure IsWrittenAs (s : Settings) (A : Arrangement) : Prop where
  consistent : A.IsConsistent
  sections : ∀ table ∈ A.tables, ∃ sec : Section, table = sec.name
  given : ∀ (sec : Section), ∀ f ∈ A.fields sec.name, (f.name, f.value) ∈ s.values sec
  omitted : ∀ (sec : Section), ∀ v ∈ s.values sec,
    (∀ f ∈ A.fields sec.name, f.name ≠ v.1) → v ∈ ({} : Settings).values sec

section Values

variable {s : Settings} {sec : Section}

theorem map_fst_values (s : Settings) (sec : Section) : (s.values sec).map Prod.fst = sec.fields := by
  cases sec <;> rfl

theorem nodup_fields (sec : Section) : sec.fields.Nodup := by
  cases sec <;> decide

theorem mem_fields_of_mem_values {v : Text × Text} (h : v ∈ s.values sec) : v.1 ∈ sec.fields := by
  rw [← map_fst_values s sec]
  exact List.mem_map_of_mem h

theorem eq_of_mem_values {field value value' : Text} (h : (field, value) ∈ s.values sec)
    (h' : (field, value') ∈ s.values sec) : value = value' := by
  have hnames : ((s.values sec).map Prod.fst).Nodup := by
    rw [map_fst_values]
    exact nodup_fields sec
  have hfind := Toml.find?_of_nodup hnames h
  have hfind' := Toml.find?_of_nodup hnames h'
  rw [hfind] at hfind'
  exact congrArg Prod.snd (Option.some.inj hfind')

end Values

section Document

variable {s : Settings} {A : Arrangement} {entries : Entries} {sec : Section}

theorem lookup?_of_shows (hshows : entries.Shows A.groups) (table : Text) :
    lookup? table entries.content = Toml.said? A.groups table := by
  rw [Toml.lookup?_content]
  exact hshows table

/-- What a written document gives for a field is what is written for it. -/
theorem given?_of_shows (hshows : entries.Shows A.groups) (sec : Section) (field : Text) :
    given? entries.content sec field =
      lookup? field ((A.fields sec.name).map WrittenField.content) := by
  rw [given?, lookup?_of_shows hshows, Toml.said?]
  split
  next => rfl
  next hnew =>
    rw [Arrangement.fields, Toml.fieldsOf_eq_nil hnew]
    rfl

/-- A value is given as it is written, or else left out as the default. -/
theorem given?_of_mem_values (hA : s.IsWrittenAs A) (hshows : entries.Shows A.groups)
    {field value : Text} (hv : (field, value) ∈ s.values sec) :
    given? entries.content sec field = some (.scalar (.string value)) ∨
      given? entries.content sec field = none ∧ (field, value) ∈ ({} : Settings).values sec := by
  have hnames : (((A.fields sec.name).map WrittenField.content).map Prod.fst).Nodup := by
    rw [List.map_map]
    exact hA.consistent.nodup_fields sec.name
  rw [given?_of_shows hshows]
  by_cases hgiven : ∃ f ∈ A.fields sec.name, f.name = field
  · obtain ⟨f, hf, rfl⟩ := hgiven
    obtain rfl := eq_of_mem_values hv (hA.given sec f hf)
    have hfind := Toml.find?_of_nodup hnames (List.mem_map_of_mem hf)
    have hfind : ((A.fields sec.name).map WrittenField.content).find? (fun e => e.1 == f.name) =
      some f.content := hfind
    left
    rw [lookup?, hfind]
    rfl
  · have hfresh : ∀ f ∈ A.fields sec.name, f.name ≠ field := by
      intro f hf heq
      exact hgiven ⟨f, hf, heq⟩
    -- a field that is not written has its default
    right
    refine ⟨?_, hA.omitted sec _ hv hfresh⟩
    rw [lookup?, Option.map_eq_none_iff, List.find?_eq_none]
    intro e he
    obtain ⟨f, hf, rfl⟩ := List.mem_map.mp he
    simpa [WrittenField.content] using hfresh f hf

theorem takes_of_mem_values (sec : Section) (hA : s.IsWrittenAs A) (hshows : entries.Shows A.groups)
    {field value default : Text} (hv : (field, value) ∈ s.values sec)
    (hdefault : (field, default) ∈ ({} : Settings).values sec) :
    Takes (given? entries.content sec field) Content.IsText default value := by
  rcases given?_of_mem_values hA hshows hv with h | ⟨h, hvalue⟩
  · rw [h]
    exact ⟨fun c hc => (Option.some.inj hc).symm, fun hc => by cases hc⟩
  · rw [h]
    exact ⟨fun c hc => (by cases hc), fun _ => eq_of_mem_values hvalue hdefault⟩

/-- A document in which settings are written gives these settings. -/
theorem isGivenBy_of_isWrittenAs (hA : s.IsWrittenAs A) (hshows : entries.Shows A.groups) :
    s.IsGivenBy entries.content where
  file := takes_of_mem_values .project hA hshows (by simp [values]) (by simp [values])
  marker := takes_of_mem_values .project hA hshows (by simp [values]) (by simp [values])
  suffix := takes_of_mem_values .project hA hshows (by simp [values]) (by simp [values])
  program := takes_of_mem_values .git hA hshows (by simp [values]) (by simp [values])
  backend := by
    have hv : (("backend" : Text), s.git.backend.name) ∈ s.values .git := by simp [values]
    rcases given?_of_mem_values hA hshows hv with h | ⟨h, hvalue⟩
    · rw [h]
      refine ⟨fun c hc => ?_, fun hc => by cases hc⟩
      obtain rfl := Option.some.inj hc
      exact .string s.git.backend
    · rw [h]
      have hdefault : s.git.backend.name = ({} : Settings).git.backend.name :=
        eq_of_mem_values hvalue (by simp [values])
      have hname := Content.Names.string s.git.backend
      rw [hdefault] at hname
      exact ⟨fun c hc => (by cases hc), fun _ => hname.unique (.string _)⟩

theorem admits_of_mem_values {field value : Text} (hv : (field, value) ∈ s.values sec) :
    sec.Admits field (.scalar (.string value)) := by
  cases sec with
  | project => exact ⟨value, rfl⟩
  | git =>
      rw [Section.Admits]
      split
      next hbackend =>
        subst hbackend
        have hname : (("backend" : Text), s.git.backend.name) ∈ s.values .git := by simp [values]
        obtain rfl := eq_of_mem_values hname hv
        exact ⟨s.git.backend, .string s.git.backend⟩
      next => exact ⟨value, rfl⟩

theorem isAcceptable_of_isWrittenAs (hA : s.IsWrittenAs A) (hshows : entries.Shows A.groups)
    (hmarker : s.project.marker ≠ []) (hsuffix : s.project.suffix ≠ []) :
    IsAcceptable entries.content := by
  have hgiven := isGivenBy_of_isWrittenAs hA hshows
  constructor
  case sections =>
    intro e he
    obtain ⟨⟨key, node⟩, hmem, rfl⟩ := List.mem_map.mp he
    apply hA.sections
    apply Decidable.byContradiction
    intro hnew
    exact Entries.find?_eq_none_iff.mp (hshows.find?_eq_none hnew) _ hmem rfl
  case fields =>
    intro sec c hc
    rw [lookup?_of_shows hshows, Toml.said?] at hc
    split at hc
    next =>
      obtain rfl := Option.some.inj hc
      intro e he
      obtain ⟨f, hf, rfl⟩ := List.mem_map.mp he
      exact mem_fields_of_mem_values (hA.given sec f hf)
    next => cases hc
  case values =>
    intro sec field hfield v hv
    rw [← map_fst_values s sec] at hfield
    obtain ⟨⟨field, value⟩, hvalue, rfl⟩ := List.mem_map.mp hfield
    rcases given?_of_mem_values hA hshows hvalue with h | ⟨h, -⟩
    · obtain rfl := Option.some.inj (h.symm.trans hv)
      exact admits_of_mem_values hvalue
    · cases h.symm.trans hv
  case marker =>
    rw [← eq_textOr_of_takes hgiven.marker]
    exact hmarker
  case suffix =>
    rw [← eq_textOr_of_takes hgiven.suffix]
    exact hsuffix

end Document

/-! ## Documents for all settings -/

theorem isBare_of_mem_fields {sec : Section} {name : Text} (h : name ∈ sec.fields) :
    Toml.IsBare name := by
  revert name
  cases sec <;> decide

theorem isBare_name (sec : Section) : Toml.IsBare sec.name := by
  cases sec <;> decide

def written (s : Settings) (sec : Section) : List WrittenField :=
  (s.values sec).pmap (fun v h => .escaped v.1 v.2 h)
    fun _ hv => isBare_of_mem_fields (mem_fields_of_mem_values hv)

def plain (s : Settings) : Arrangement where
  front := []
  headed := [.project, .git].map fun sec : Section => (sec.name, s.written sec)

theorem fields_plain (s : Settings) (sec : Section) : s.plain.fields sec.name = s.written sec := by
  have hne : Section.git.name ≠ Section.project.name := by decide
  cases sec with
  | project => simp [plain, Arrangement.fields, Arrangement.groups, Toml.fieldsOf, hne]
  | git => simp [plain, Arrangement.fields, Arrangement.groups, Toml.fieldsOf, hne.symm]

theorem names_written (s : Settings) (sec : Section) :
    (s.written sec).map WrittenField.name = sec.fields := by
  rw [written, List.map_pmap]
  change List.pmap (fun v _ => v.1) (s.values sec) _ = _
  rw [List.pmap_eq_map, map_fst_values]

theorem exists_of_mem_tables_plain {s : Settings} {table : Text} (h : table ∈ s.plain.tables) :
    ∃ sec : Section, table = sec.name := by
  obtain ⟨g, hg, rfl⟩ := List.mem_map.mp h
  obtain ⟨sec, -, rfl⟩ := List.mem_map.mp hg
  exact ⟨sec, rfl⟩

theorem isConsistent_plain (s : Settings) : s.plain.IsConsistent where
  notations := .nil
  headings := by
    change [Section.project.name, Section.git.name].Nodup
    decide
  apart := by simp [plain]
  names := by
    intro table htable
    obtain ⟨sec, rfl⟩ := exists_of_mem_tables_plain htable
    rw [fields_plain, names_written]
    exact nodup_fields sec

theorem isWrittenAs_plain (s : Settings) : s.IsWrittenAs s.plain where
  consistent := isConsistent_plain s
  sections := fun _ => exists_of_mem_tables_plain
  given := by
    intro sec f hf
    rw [fields_plain, written] at hf
    obtain ⟨v, hv, rfl⟩ := List.mem_pmap.mp hf
    exact hv
  omitted := by
    intro sec v hv hfresh
    have hmem := mem_fields_of_mem_values hv
    rw [← names_written s sec] at hmem
    obtain ⟨f, hf, hname⟩ := List.mem_map.mp hmem
    rw [fields_plain] at hfresh
    exact absurd hname (hfresh f hf)

/-- Settings with a marker and a suffix have documents, and every document of them is loaded as just
these settings. -/
theorem load_written (s : Settings) (hmarker : s.project.marker ≠ [])
    (hsuffix : s.project.suffix ≠ []) :
    (∃ A, s.IsWrittenAs A) ∧
    ∀ (A : Arrangement) (files : Files) (path : Text), s.IsWrittenAs A →
      files.read path = .ok (Utf8.encode A.text) → load files (some path) = .ok s := by
  refine ⟨⟨s.plain, s.isWrittenAs_plain⟩, fun A files path hA hread => ?_⟩
  have hbare : ∀ table ∈ A.tables, Toml.IsBare table := by
    intro table htable
    obtain ⟨sec, rfl⟩ := hA.sections table htable
    exact isBare_name sec
  obtain ⟨entries, hdocument, hshows⟩ := A.exists_ofDocument? hA.consistent hbare
  rw [load_eq_ok_iff_isAcceptable (readText_of_encode hread) hdocument]
  exact ⟨isAcceptable_of_isWrittenAs hA hshows hmarker hsuffix, isGivenBy_of_isWrittenAs hA hshows⟩

def quotingSettings : Settings where
  project := { marker := "\n[git]\nbackend = \"", suffix := "\\u0041\x00" }
  git := { program := "\"\"\"hg\r\n" }

/-- The settings without the fields that have their default, with the dotted keys of one section
around the other section. -/
def quotingArrangement : Arrangement where
  front := [
    .dotted "project" (.escaped "suffix" quotingSettings.project.suffix (by decide)),
    .inlined "git" [.escaped "program" quotingSettings.git.program (by decide)],
    .dotted "project" (.escaped "marker" quotingSettings.project.marker (by decide))]
  headed := []

def quotingFiles : Files where
  entries := [("settings.toml", .file (Utf8.encode quotingArrangement.text) false)]

theorem load_written_quoting :
    load quotingFiles (some "settings.toml") = .ok quotingSettings := by
  have hwritten : quotingSettings.IsWrittenAs quotingArrangement := {
    consistent := ⟨by decide, by decide, by decide, by decide⟩
    sections := by
      have htables : ∀ table ∈ quotingArrangement.tables,
          table = Section.project.name ∨ table = Section.git.name := by
        decide
      intro table htable
      rcases htables table htable with h | h
      · exact ⟨.project, h⟩
      · exact ⟨.git, h⟩
    given := by
      intro sec
      cases sec <;> decide
    omitted := by
      intro sec
      cases sec <;> decide }
  exact (load_written quotingSettings (by decide) (by decide)).2 quotingArrangement quotingFiles
    "settings.toml" hwritten rfl

end VersionStamp.Settings
