import VersionStamp.Proofs.Settings.Fields
import VersionStamp.Proofs.Text.Utf8
import VersionStamp.Proofs.Toml.Distinct
import VersionStamp.Settings.Load

namespace VersionStamp.Settings

/-!
# Which settings are accepted

Settings are accepted if the document has no other sections than `project` and `git`, these no other
fields than their own, each field a value of its kind, and the marker and the suffix that result are
not empty. The settings are then what the document gives, and the defaults for all else. Anything
else is a failure of the settings.
-/

open Toml (Node Content Entries lookup?)

inductive Section where
  | project
  | git

namespace Section

def name : Section → Text
  | .project => "project"
  | .git => "git"

def fields : Section → List Text
  | .project => ["file", "marker", "suffix"]
  | .git => ["program", "backend"]

/-- Whether a field may have a value: it is a string, and for the backend it names one. -/
def Admits (sec : Section) (field : Text) (c : Content) : Prop :=
  match sec with
  | .project => ∃ t, c.IsText t
  | .git => if field = "backend" then ∃ b, c.Names b else ∃ t, c.IsText t

/-- Whether the content can stand for a section: a table with no other fields, or an array, with
values that the fields may have. -/
def Accepts (sec : Section) (c : Content) : Prop :=
  c.IsSection sec.fields ∧
    ∀ field ∈ sec.fields, ∀ v, c.field? sec.fields field = some v → sec.Admits field v

end Section

theorem shape_fields : shape.fields =
    [sectionField "project" Declaration.shape project fun s d => { s with project := d },
      sectionField "git" GitSettings.shape git fun s g => { s with git := g }] := rfl

theorem exists_project_iff {node : Node} (hnode : node.IsDistinct) (d : Declaration) :
    (∃ r, Declaration.shape.set d node = .ok r) ↔ Section.project.Accepts node.content :=
  Shape.exists_set_iff (by decide) Declaration.shape_accepts hnode d

theorem exists_git_iff {node : Node} (hnode : node.IsDistinct) (g : GitSettings) :
    (∃ r, GitSettings.shape.set g node = .ok r) ↔ Section.git.Accepts node.content :=
  Shape.exists_set_iff (by decide) GitSettings.shape_accepts hnode g

theorem shape_accepts : shape.Accepts fun name c =>
    ∀ sec : Section, sec.name = name → sec.Accepts c := by
  intro f hf record node hnode
  simp only [shape_fields, List.mem_cons, List.not_mem_nil, or_false] at hf
  rcases hf with rfl | rfl
  · simp only [sectionField_set_eq_ok_iff]
    constructor
    · rintro ⟨_, d, hd, -⟩ sec hsec
      cases sec with
      | project => exact (exists_project_iff hnode _).mp ⟨d, hd⟩
      | git => exact absurd hsec (by decide)
    · intro h
      obtain ⟨d, hd⟩ := (exists_project_iff hnode record.project).mpr (h .project rfl)
      exact ⟨_, d, hd, rfl⟩
  · simp only [sectionField_set_eq_ok_iff]
    constructor
    · rintro ⟨_, g, hg, -⟩ sec hsec
      cases sec with
      | project => exact absurd hsec (by decide)
      | git => exact (exists_git_iff hnode _).mp ⟨g, hg⟩
    · intro h
      obtain ⟨g, hg⟩ := (exists_git_iff hnode record.git).mpr (h .git rfl)
      exact ⟨_, g, hg, rfl⟩

/-! ## What a document gives -/

def given? (root : List (Text × Content)) (sec : Section) (field : Text) : Option Content :=
  (lookup? sec.name root).bind (Content.field? sec.fields field)

def textOr (default : Text) : Option Content → Text
  | some (.scalar (.string t)) => t
  | _ => default

/-- Every field is what the document gives for it, and has its default if nothing is given. -/
structure IsGivenBy (s : Settings) (root : List (Text × Content)) : Prop where
  file : Takes (given? root .project "file") Content.IsText
    ({} : Settings).project.file s.project.file
  marker : Takes (given? root .project "marker") Content.IsText
    ({} : Settings).project.marker s.project.marker
  suffix : Takes (given? root .project "suffix") Content.IsText
    ({} : Settings).project.suffix s.project.suffix
  program : Takes (given? root .git "program") Content.IsText
    ({} : Settings).git.program s.git.program
  backend : Takes (given? root .git "backend") Content.Names
    ({} : Settings).git.backend s.git.backend

/-- What a document has to be for its settings to be accepted. -/
structure IsAcceptable (root : List (Text × Content)) : Prop where
  sections : ∀ e ∈ root, ∃ sec : Section, e.1 = sec.name
  fields : ∀ (sec : Section) (c : Content), lookup? sec.name root = some c → c.IsSection sec.fields
  values : ∀ (sec : Section), ∀ field ∈ sec.fields, ∀ v, given? root sec field = some v →
    sec.Admits field v
  marker : textOr ({} : Settings).project.marker (given? root .project "marker") ≠ []
  suffix : textOr ({} : Settings).project.suffix (given? root .project "suffix") ≠ []

section Values

variable {β γ : Type} {given : Option Content} {reads reads' : Content → β → Prop}
  {default value : β}

theorem exists_of_mapError_eq_error {ε ε' α : Type} {x : Except ε α} {f : ε → ε'} {why : ε'}
    (h : x.mapError f = .error why) : ∃ e, x = .error e ∧ f e = why := by
  cases x with
  | ok a => cases h
  | error e => exact ⟨e, rfl, Except.error.inj h⟩

theorem takes_mono (h : Takes given reads default value)
    (himp : ∀ c, reads c value → reads' c value) : Takes given reads' default value :=
  ⟨fun c hc => himp c (h.1 c hc), h.2⟩

/-- What is given within something given is given by the whole. -/
theorem takes_bind {inside : Content → Option Content} {reads : Content → γ → Prop} {view : β → γ}
    (h : Takes given (fun c b => Takes (inside c) reads (view default) (view b)) default value) :
    Takes (given.bind inside) reads (view default) (view value) := by
  cases given with
  | none =>
      rw [h.2 rfl]
      exact ⟨fun c hc => (by cases hc), fun _ => rfl⟩
  | some c => exact h.1 c rfl

theorem eq_textOr_of_takes {default value : Text}
    (h : Takes given Content.IsText default value) : value = textOr default given := by
  cases given with
  | none => exact h.2 rfl
  | some c =>
      have hc : c = .scalar (.string value) := h.1 c rfl
      rw [hc]
      rfl

theorem eq_of_takes_text {default value value' : Text}
    (h : Takes given Content.IsText default value)
    (h' : Takes given Content.IsText default value') : value = value' :=
  (eq_textOr_of_takes h).trans (eq_textOr_of_takes h').symm

end Values

def TakesDeclaration (c : Content) (d d' : Declaration) : Prop :=
  Takes (c.field? Section.project.fields "file") Content.IsText d.file d'.file ∧
    Takes (c.field? Section.project.fields "marker") Content.IsText d.marker d'.marker ∧
      Takes (c.field? Section.project.fields "suffix") Content.IsText d.suffix d'.suffix

def TakesGit (c : Content) (g g' : GitSettings) : Prop :=
  Takes (c.field? Section.git.fields "program") Content.IsText g.program g'.program ∧
    Takes (c.field? Section.git.fields "backend") Content.Names g.backend g'.backend

theorem shape_views_project : shape.Views "project" project fun d c d' =>
    TakesDeclaration c d d' := by
  intro f hf record r node hnode h
  simp only [shape_fields, List.mem_cons, List.not_mem_nil, or_false] at hf
  rcases hf with rfl | rfl
  · obtain ⟨d, hd, rfl⟩ := sectionField_set_eq_ok_iff.mp h
    have hnames : Declaration.shape.fieldNames.Nodup := by decide
    have hfile := Shape.takes_of_set hnames Declaration.shape_views_file (by decide) hnode hd
    have hmarker := Shape.takes_of_set hnames Declaration.shape_views_marker (by decide) hnode hd
    have hsuffix := Shape.takes_of_set hnames Declaration.shape_views_suffix (by decide) hnode hd
    exact ⟨fun _ => ⟨hfile, hmarker, hsuffix⟩, fun hne => absurd rfl hne⟩
  · obtain ⟨g, hg, rfl⟩ := sectionField_set_eq_ok_iff.mp h
    exact ⟨fun heq => absurd heq (by decide), fun _ => rfl⟩

theorem shape_views_git : shape.Views "git" git fun g c g' => TakesGit c g g' := by
  intro f hf record r node hnode h
  simp only [shape_fields, List.mem_cons, List.not_mem_nil, or_false] at hf
  rcases hf with rfl | rfl
  · obtain ⟨d, hd, rfl⟩ := sectionField_set_eq_ok_iff.mp h
    exact ⟨fun heq => absurd heq (by decide), fun _ => rfl⟩
  · obtain ⟨g, hg, rfl⟩ := sectionField_set_eq_ok_iff.mp h
    have hnames : GitSettings.shape.fieldNames.Nodup := by decide
    have hprogram := Shape.takes_of_set hnames GitSettings.shape_views_program (by decide) hnode hg
    have hbackend := Shape.takes_of_set hnames GitSettings.shape_views_backend (by decide) hnode hg
    exact ⟨fun _ => ⟨hprogram, hbackend⟩, fun hne => absurd rfl hne⟩

section Entries

variable {entries : Entries} {settings : Settings}

theorem isGivenBy_of_ofEntries (hentries : entries.IsDistinct)
    (h : ofEntries entries = .ok settings) : settings.IsGivenBy entries.content := by
  have hset : shape.set {} (.table .headed entries none) = .ok settings := h
  have hnode : (Node.table .headed entries none).IsDistinct :=
    Node.isDistinct_table_iff.mpr hentries
  have hproject := Shape.takes_of_set (by decide) shape_views_project (by decide) hnode hset
  have hgit := Shape.takes_of_set (by decide) shape_views_git (by decide) hnode hset
  rw [Node.content, Toml.entryContents_eq] at hproject hgit
  exact {
    file := takes_bind (takes_mono hproject fun c hd => hd.1)
    marker := takes_bind (takes_mono hproject fun c hd => hd.2.1)
    suffix := takes_bind (takes_mono hproject fun c hd => hd.2.2)
    program := takes_bind (takes_mono hgit fun c hg => hg.1)
    backend := takes_bind (takes_mono hgit fun c hg => hg.2) }

/-- Settings are read just if the root has sections only, and each of them is accepted. -/
theorem exists_ofEntries_iff (hentries : entries.IsDistinct) :
    (∃ settings, ofEntries entries = .ok settings) ↔
      (∀ e ∈ entries.content, ∃ sec : Section, e.1 = sec.name) ∧
        ∀ (sec : Section) (c : Content), lookup? sec.name entries.content = some c →
          sec.Accepts c := by
  have hnode : (Node.table .headed entries none).IsDistinct :=
    Node.isDistinct_table_iff.mpr hentries
  have hset := Shape.exists_set_iff (by decide) shape_accepts hnode {}
  have hnames : shape.fieldNames = [Section.project.name, Section.git.name] := rfl
  have hmem : ∀ name, name ∈ shape.fieldNames ↔ ∃ sec : Section, name = sec.name := by
    intro name
    rw [hnames]
    constructor
    · intro h
      rcases List.mem_cons.mp h with rfl | h
      · exact ⟨.project, rfl⟩
      · exact ⟨.git, List.mem_singleton.mp h⟩
    · rintro ⟨_ | _, rfl⟩ <;> simp
  rw [Node.content, Toml.entryContents_eq] at hset
  refine hset.trans (and_congr ?_ ?_)
  · exact forall₂_congr fun e _ => hmem e.1
  · constructor
    · intro h sec c hc
      exact h sec.name ((hmem _).mpr ⟨sec, rfl⟩) c hc sec rfl
    · rintro h name - c hc sec rfl
      exact h sec c hc

/-- What a document gives determines the settings. -/
theorem eq_of_isGivenBy {root : List (Text × Content)} {settings settings' : Settings}
    (h : settings.IsGivenBy root) (h' : settings'.IsGivenBy root) : settings = settings' := by
  have hbackend : settings.git.backend = settings'.git.backend := by
    have hgiven := h.backend
    have hgiven' := h'.backend
    cases hc : given? root .git "backend" with
    | none => exact (hgiven.2 hc).trans (hgiven'.2 hc).symm
    | some c => exact (hgiven.1 c hc).unique (hgiven'.1 c hc)
  have hfile := eq_of_takes_text h.file h'.file
  have hmarker := eq_of_takes_text h.marker h'.marker
  have hsuffix := eq_of_takes_text h.suffix h'.suffix
  have hprogram := eq_of_takes_text h.program h'.program
  obtain ⟨⟨file, marker, suffix⟩, ⟨program, backend⟩⟩ := settings
  obtain ⟨⟨file', marker', suffix'⟩, ⟨program', backend'⟩⟩ := settings'
  simp only at hfile hmarker hsuffix hprogram hbackend
  rw [hfile, hmarker, hsuffix, hprogram, hbackend]

theorem accepts_iff {root : List (Text × Content)} {sec : Section} :
    (∀ c, lookup? sec.name root = some c → sec.Accepts c) ↔
      (∀ c, lookup? sec.name root = some c → c.IsSection sec.fields) ∧
        ∀ field ∈ sec.fields, ∀ v, given? root sec field = some v → sec.Admits field v := by
  cases h : lookup? sec.name root with
  | none => simp [given?, h]
  | some c => simp [given?, h, Section.Accepts]

theorem isAcceptable_iff {root : List (Text × Content)} :
    IsAcceptable root ↔
      ((∀ e ∈ root, ∃ sec : Section, e.1 = sec.name) ∧
        ∀ (sec : Section) (c : Content), lookup? sec.name root = some c → sec.Accepts c) ∧
      textOr ({} : Settings).project.marker (given? root .project "marker") ≠ [] ∧
        textOr ({} : Settings).project.suffix (given? root .project "suffix") ≠ [] := by
  simp only [accepts_iff, forall_and]
  constructor
  · intro h
    exact ⟨⟨h.sections, h.fields, h.values⟩, h.marker, h.suffix⟩
  · rintro ⟨⟨hsections, hfields, hvalues⟩, hmarker, hsuffix⟩
    exact ⟨hsections, hfields, hvalues, hmarker, hsuffix⟩

theorem isRecognisable_iff {root : List (Text × Content)} (h : settings.IsGivenBy root) :
    settings.project.isRecognisable = true ↔
      textOr ({} : Settings).project.marker (given? root .project "marker") ≠ [] ∧
        textOr ({} : Settings).project.suffix (given? root .project "suffix") ≠ [] := by
  rw [← eq_textOr_of_takes h.marker, ← eq_textOr_of_takes h.suffix]
  simp [Declaration.isRecognisable]

/-! ## Loading -/

section Load

variable {files : Files} {path document : Text}

theorem readText_of_encode (h : files.read path = .ok (Utf8.encode document)) :
    files.readText path = .ok document := by
  simp only [Files.readText, h, bind, Except.bind, Utf8.decode?_encode]

/-- Settings are loaded if they are read and a declaration can be recognised with them. -/
theorem load_eq_ok_iff (hread : files.readText path = .ok document)
    (hdocument : Entries.ofDocument? document = some entries) :
    load files (some path) = .ok settings ↔
      ofEntries entries = .ok settings ∧ settings.project.isRecognisable = true := by
  simp only [load, hread, mapError_eq_ok_iff, ofDocument, hdocument]
  cases ofEntries entries with
  | error refusal => simp
  | ok s =>
      by_cases hs : s.project.isRecognisable
      · simp [hs]
        rintro rfl
        exact hs
      · simp [hs]
        rintro rfl
        simpa using hs

theorem load_eq_ok_iff_isAcceptable (hread : files.readText path = .ok document)
    (hdocument : Entries.ofDocument? document = some entries) :
    load files (some path) = .ok settings ↔
      IsAcceptable entries.content ∧ settings.IsGivenBy entries.content := by
  have hentries := Entries.isDistinct_of_ofDocument? hdocument
  rw [load_eq_ok_iff hread hdocument, isAcceptable_iff, ← exists_ofEntries_iff hentries]
  constructor
  · rintro ⟨hs, hrecognisable⟩
    have hgiven := isGivenBy_of_ofEntries hentries hs
    exact ⟨⟨⟨_, hs⟩, (isRecognisable_iff hgiven).mp hrecognisable⟩, hgiven⟩
  · rintro ⟨⟨⟨s, hs⟩, hresult⟩, hgiven⟩
    obtain rfl := eq_of_isGivenBy hgiven (isGivenBy_of_ofEntries hentries hs)
    exact ⟨hs, (isRecognisable_iff hgiven).mpr hresult⟩

theorem exists_load_iff (hread : files.readText path = .ok document)
    (hdocument : Entries.ofDocument? document = some entries) :
    (∃ settings, load files (some path) = .ok settings) ↔ IsAcceptable entries.content := by
  constructor
  · rintro ⟨settings, h⟩
    exact ((load_eq_ok_iff_isAcceptable hread hdocument).mp h).1
  · intro h
    have hentries := Entries.isDistinct_of_ofDocument? hdocument
    obtain ⟨settings, hsettings⟩ := (exists_ofEntries_iff hentries).mpr (isAcceptable_iff.mp h).1
    exact ⟨settings, (load_eq_ok_iff_isAcceptable hread hdocument).mpr
      ⟨h, isGivenBy_of_ofEntries hentries hsettings⟩⟩

/-- A file of settings that is not loaded is always reported as a problem of the settings. -/
theorem exists_problem_of_load {why : Failure} (h : load files (some path) = .error why) :
    ∃ problem, why = .settings problem := by
  obtain ⟨problem, -, rfl⟩ := exists_of_mapError_eq_error h
  exact ⟨_, rfl⟩

theorem exists_problem_of_not_isAcceptable (hread : files.readText path = .ok document)
    (hdocument : Entries.ofDocument? document = some entries)
    (h : ¬ IsAcceptable entries.content) :
    ∃ problem, load files (some path) = .error (.settings problem) := by
  cases hload : load files (some path) with
  | ok settings => exact absurd ((exists_load_iff hread hdocument).mp ⟨settings, hload⟩) h
  | error why =>
      obtain ⟨problem, rfl⟩ := exists_problem_of_load hload
      exact ⟨problem, rfl⟩

end Load

end Entries

/-- A root with one more key than another one, which is unknown where it stands: in the root or in
the table of a section. -/
inductive AddsUnknownKey : List (Text × Content) → List (Text × Content) → Prop where
  | toRoot (front back : List (Text × Content)) (name : Text) (c : Content)
      (h : ∀ sec : Section, name ≠ sec.name) :
      AddsUnknownKey (front ++ back) (front ++ (name, c) :: back)
  | toSection (front back : List (Text × Content)) (sec : Section)
      (before after : List (Text × Content)) (name : Text) (c : Content) (h : name ∉ sec.fields) :
      AddsUnknownKey (front ++ (sec.name, .table (before ++ after)) :: back)
        (front ++ (sec.name, .table (before ++ (name, c) :: after)) :: back)

/-- A document with an unknown key is not accepted, wherever the key has been added. -/
theorem not_isAcceptable_of_addsUnknownKey {root root' : List (Text × Content)}
    (hnames : (root'.map Prod.fst).Nodup) (h : AddsUnknownKey root root') :
    ¬ IsAcceptable root' := by
  intro hacceptable
  cases h with
  | toRoot front back name c hunknown =>
      obtain ⟨sec, hsec⟩ := hacceptable.sections (name, c) (by simp)
      exact hunknown sec hsec
  | toSection front back sec before after name c hunknown =>
      have hmem : (sec.name, Content.table (before ++ (name, c) :: after)) ∈
          front ++ (sec.name, .table (before ++ (name, c) :: after)) :: back := by simp
      have hfound := Toml.find?_of_nodup hnames hmem
      have hsection := hacceptable.fields sec _ (by rw [lookup?, hfound]; rfl)
      exact hunknown (hsection (name, c) (by simp))

/-- Loading a document succeeds exactly if it is acceptable, gives what the document gives and the
defaults for the rest, and fails as settings do otherwise. Settings that are loaded can recognise a
declaration, and no document with an unknown key is accepted. -/
theorem load_of_document (files : Files) (path document : Text) (entries : Entries)
    (hread : files.readText path = .ok document)
    (hdocument : Entries.ofDocument? document = some entries) :
    ((∃ settings, load files (some path) = .ok settings) ↔ IsAcceptable entries.content) ∧
    (∀ settings, load files (some path) = .ok settings →
      settings.IsGivenBy entries.content ∧
        settings.project.marker ≠ [] ∧ settings.project.suffix ≠ []) ∧
    (¬ IsAcceptable entries.content →
      ∃ problem, load files (some path) = .error (.settings problem)) ∧
    (∀ (files' : Files) (path' document' : Text) (entries' : Entries),
      files'.readText path' = .ok document' → Entries.ofDocument? document' = some entries' →
        AddsUnknownKey entries.content entries'.content →
          ∃ problem, load files' (some path') = .error (.settings problem)) := by
  refine ⟨exists_load_iff hread hdocument, fun settings h => ?_,
    exists_problem_of_not_isAcceptable hread hdocument, ?_⟩
  · obtain ⟨hacceptable, hgiven⟩ := (load_eq_ok_iff_isAcceptable hread hdocument).mp h
    refine ⟨hgiven, ?_, ?_⟩
    · rw [eq_textOr_of_takes hgiven.marker]
      exact hacceptable.marker
    · rw [eq_textOr_of_takes hgiven.suffix]
      exact hacceptable.suffix
  · -- the keys of any document are distinct, so the unknown one is found where it stands
    intro files' path' document' entries' hread' hdocument' hadds
    have hnames : (entries'.content.map Prod.fst).Nodup := by
      rw [Entries.content, List.map_map]
      exact (Entries.isDistinct_of_ofDocument? hdocument').1
    exact exists_problem_of_not_isAcceptable hread' hdocument'
      (not_isAcceptable_of_addsUnknownKey hnames hadds)

def mixedDocument : Text :=
  "git = [\"hg\", \x7blibgit2 = []\x7d, 7]\n[project]\nmarker = \"V\"\n"

def mistakenDocument : Text :=
  "git = [\"hg\", \x7blibgit2 = []\x7d, 7]\n[project]\nmarker = \"V\"\nSuffix = 1"

def mixedFiles (document : Text) : Files :=
  { entries := [("settings.toml", .file (Utf8.encode document) false)] }

def mixedGit : Text × Content :=
  ("git", .array [.scalar (.string "hg"), .table [("libgit2", .array [])], .scalar (.integer 7)])

def mixedMarker : Text × Content :=
  ("marker", .scalar (.string "V"))

/-- The array of three is accepted with its third element left out. With an unknown key in the other
section the document is refused. -/
theorem load_of_document_mixed :
    (∃ entries, Entries.ofDocument? mixedDocument = some entries ∧ IsAcceptable entries.content) ∧
    ∃ problem, load (mixedFiles mistakenDocument) (some "settings.toml") =
      .error (.settings problem) := by
  have hplain : (Entries.ofDocument? mixedDocument).map Entries.content =
      some [mixedGit, ("project", .table [mixedMarker])] := by
    decide +kernel
  have hadded : (Entries.ofDocument? mistakenDocument).map Entries.content =
      some [mixedGit, ("project", .table [mixedMarker, ("Suffix", .scalar (.integer 1))])] := by
    decide +kernel
  obtain ⟨entries, hdocument, hcontent⟩ := Option.map_eq_some_iff.mp hplain
  obtain ⟨entries', hdocument', hcontent'⟩ := Option.map_eq_some_iff.mp hadded
  have hread (document : Text) :
      (mixedFiles document).readText "settings.toml" = .ok document :=
    readText_of_encode rfl
  have hload : (load (mixedFiles mixedDocument) (some "settings.toml")).toOption =
      some { project := { marker := "V" }, git := { program := "hg", backend := .builtIn } } := by
    decide +kernel
  have hsettings := load_of_document (mixedFiles mixedDocument) "settings.toml" _ entries
    (hread mixedDocument) hdocument
  have hadds : AddsUnknownKey entries.content entries'.content := by
    rw [hcontent, hcontent']
    exact .toSection [mixedGit] [] .project [mixedMarker] [] "Suffix" _ (by decide)
  refine ⟨⟨entries, hdocument, ?_⟩, ?_⟩
  · cases h : load (mixedFiles mixedDocument) (some "settings.toml") with
    | ok settings => exact hsettings.1.mp ⟨settings, h⟩
    | error why =>
        rw [h] at hload
        cases hload
  · exact hsettings.2.2.2 (mixedFiles mistakenDocument) "settings.toml" _ entries'
      (hread mistakenDocument) hdocument' hadds

end VersionStamp.Settings
