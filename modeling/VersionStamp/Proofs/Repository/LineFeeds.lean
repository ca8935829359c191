import VersionStamp.Proofs.Declaration.Value
import VersionStamp.Proofs.Repository.Agreement

namespace VersionStamp

/-!
# Line feeds in what is printed

A tag and a base version never hold a line feed, whatever a git program prints and whatever the file
says. Of the date and the hash only the blanks at the ends are taken away, so a program that prints
one of them on several lines splits the snapshot. Wherever that happens the text still does not end
in a line feed, and the line feed that is asked for is the only one behind it.
-/

theorem Text.IsLine.not_lf {t : Text} (h : IsLine t) : '\n' ∉ t := by
  intro hlf
  exact absurd (h '\n' hlf) (by decide)

namespace Version

theorem lf_mem_render_snapshot_iff {base : BaseVersion} {date hash : Text}
    (hbase : Text.IsLine base.text) :
    '\n' ∈ (snapshot base date hash).render ↔ '\n' ∈ date ∨ '\n' ∈ hash := by
  simp [render, hbase.not_lf]

theorem getLast?_render_snapshot (base : BaseVersion) (date hash : Text) :
    (snapshot base date hash).render.getLast? = some 't' := by
  rw [render, List.getLast?_append]
  rfl

end Version

namespace Repository

variable {r : Repository} {files : Files} {d : Declaration}

/-- A base version that is read has no line break. -/
theorem isLine_of_baseVersion {base : BaseVersion}
    (h : (r.baseVersion files d).result = .ok base) : Text.IsLine base.text := by
  rw [result_baseVersion] at h
  obtain ⟨top, -, hread⟩ := bind_eq_ok_iff.mp h
  obtain ⟨text, -, hdeclares⟩ := readDeclaration_eq_ok_iff.mp hread
  exact Declaration.isLine_of_declares hdeclares

def SplitsSnapshot (r : Repository) : Prop :=
  r.tagsAtHead = .ok ⟨[]⟩ ∧
    ((∃ date, r.commitDate = .ok date ∧ '\n' ∈ date) ∨
      ∃ hash, r.shortHash = .ok hash ∧ '\n' ∈ hash)

def HasNames (r : Repository) : Prop :=
  ∀ tags, r.tagsAtHead = .ok tags → ∀ name ∈ tags.names, TagSet.IsName name

theorem splitsSnapshot_iff {date hash : Text} (htags : r.tagsAtHead = .ok ⟨[]⟩)
    (hdate : r.commitDate = .ok date) (hhash : r.shortHash = .ok hash) :
    r.SplitsSnapshot ↔ '\n' ∈ date ∨ '\n' ∈ hash := by
  simp [SplitsSnapshot, htags, hdate, hhash]

/-- What holds of the text of every version that is found. -/
theorem render_of_version (hr : r.HasNames) {v : Version}
    (h : (r.version files d).result = .ok v) :
    v.render ≠ [] ∧ v.render.getLast? ≠ some '\n' ∧ ('\n' ∈ v.render ↔ r.SplitsSnapshot) := by
  cases v with
  | release tag =>
      have htags := version_eq_release_iff.mp h
      have hname : TagSet.IsName tag := hr _ htags tag List.mem_cons_self
      refine ⟨hname.ne_nil, fun hlast => ?_, ?_⟩
      · exact hname.not_lf (List.mem_of_getLast? hlast)
      · have hsplit : ¬ r.SplitsSnapshot := by simp [SplitsSnapshot, htags]
        exact iff_of_false hname.not_lf hsplit
  | snapshot base date hash =>
      obtain ⟨htags, hsnapshot⟩ := version_eq_snapshot_iff.mp h
      obtain ⟨top, htop, base, hbase, date, hdate, hash, hhash, heq⟩ :=
        snapshot_eq_ok_iff.mp hsnapshot
      cases heq
      have hfound : (r.baseVersion files d).result = .ok base := by
        rw [result_baseVersion]
        exact bind_eq_ok_iff.mpr ⟨top, htop, hbase⟩
      have hlast := Version.getLast?_render_snapshot base date hash
      refine ⟨fun hnil => ?_, ?_, ?_⟩
      · rw [hnil] at hlast
        cases hlast
      · rw [hlast]
        decide
      · rw [Version.lf_mem_render_snapshot_iff (isLine_of_baseVersion hfound),
          splitsSnapshot_iff htags hdate hhash]

theorem text_of_baseVersion {base : BaseVersion} (h : (r.baseVersion files d).result = .ok base) :
    base.text ≠ [] ∧ base.text.getLast? ≠ some '\n' ∧ '\n' ∉ base.text := by
  have hlf := (isLine_of_baseVersion h).not_lf
  exact ⟨base.isBase.1, fun hlast => hlf (List.mem_of_getLast? hlast), hlf⟩

theorem result_printedVersion_newline (r : Repository) (files : Files) (d : Declaration)
    (project : Bool) :
    (r.printedVersion files d ⟨true, project⟩).result =
      (r.printedVersion files d ⟨false, project⟩).result.map (Version.printed true) := by
  rw [result_printedVersion, result_printedVersion]
  cases (if project then (r.baseVersion files d).result.map BaseVersion.text
    else (r.version files d).result.map Version.render) <;> rfl

/-- What holds of the text that is printed without the line feed that can be asked for. -/
theorem text_of_printedVersion (hr : r.HasNames) {project : Bool} {text : Text}
    (h : (r.printedVersion files d ⟨false, project⟩).result = .ok text) :
    text ≠ [] ∧ text.getLast? ≠ some '\n' ∧ ('\n' ∈ text ↔ project = false ∧ r.SplitsSnapshot) := by
  rw [result_printedVersion] at h
  obtain ⟨found, hfound, rfl⟩ := map_eq_ok_iff.mp h
  cases project with
  | true =>
      obtain ⟨base, hbase, rfl⟩ := map_eq_ok_iff.mp hfound
      obtain ⟨hne, hlast, hlf⟩ := text_of_baseVersion hbase
      exact ⟨hne, hlast, iff_of_false hlf (by simp)⟩
  | false =>
      obtain ⟨v, hv, rfl⟩ := map_eq_ok_iff.mp hfound
      obtain ⟨hne, hlast, hlf⟩ := render_of_version hr hv
      exact ⟨hne, hlast, hlf.trans (by simp)⟩

end Repository

namespace GitProgram

/-- The tags of a program have names, since they are read from lines of its output. -/
theorem hasNames_repository (program : Text) (outcome : Query → Outcome) :
    (repository program outcome).HasNames := by
  intro tags htags name hname
  obtain ⟨output, -, rfl⟩ := map_eq_ok_iff.mp htags
  exact TagSet.isName_of_mem_names hname

/-- Whether a program prints no tag, and prints the date or the hash with a line feed within it: one
that is still there when the output is trimmed. -/
def SplitsSnapshot (program : Text) (outcome : Query → Outcome) : Prop :=
  (∃ tags, output (command program .tagsAtHead) (outcome .tagsAtHead) = .ok tags ∧
      TagSet.ofOutput tags = ⟨[]⟩) ∧
    ∃ q, (q = .commitDate ∨ q = .shortHash) ∧
      ∃ text, output (command program q) (outcome q) = .ok text ∧ '\n' ∈ Text.trim text

theorem splitsSnapshot_repository_iff (program : Text) (outcome : Query → Outcome) :
    (repository program outcome).SplitsSnapshot ↔ SplitsSnapshot program outcome := by
  have htrimmed : ∀ q, (∃ text, Text.trim <$> output (command program q) (outcome q) = .ok text ∧
      '\n' ∈ text) ↔
        ∃ text, output (command program q) (outcome q) = .ok text ∧ '\n' ∈ Text.trim text := by
    intro q
    cases output (command program q) (outcome q) <;> simp [Functor.map, Except.map]
  simp only [SplitsSnapshot, or_and_right, exists_or, exists_eq_left, ← htrimmed]
  exact and_congr_left fun _ => map_eq_ok_iff

/-- With a git program the text is never empty and never ends in a line feed, and it holds one
exactly if an untagged commit has one within its date or its hash; so it never does for a tag or for
the base version alone. The line feed that is asked for comes behind the same text, and a failure is
the same with and without it. -/
theorem printedVersion_line_feeds (program : Text) (outcome : Query → Outcome) (files : Files)
    (d : Declaration) (project : Bool) :
    let r := repository program outcome
    (∀ text, (r.printedVersion files d ⟨false, project⟩).result = .ok text →
      text ≠ [] ∧ text.getLast? ≠ some '\n' ∧
        ('\n' ∈ text ↔ project = false ∧ SplitsSnapshot program outcome) ∧
        (r.printedVersion files d ⟨true, project⟩).result = .ok (text ++ "\n")) ∧
    ∀ why, (r.printedVersion files d ⟨false, project⟩).result = .error why ↔
      (r.printedVersion files d ⟨true, project⟩).result = .error why := by
  intro r
  rw [Repository.result_printedVersion_newline r files d project]
  refine ⟨fun text htext => ?_, fun why => ?_⟩
  · obtain ⟨hne, hlast, hlf⟩ :=
      Repository.text_of_printedVersion (hasNames_repository program outcome) htext
    rw [splitsSnapshot_repository_iff] at hlf
    refine ⟨hne, hlast, hlf, ?_⟩
    rw [htext]
    rfl
  · cases (r.printedVersion files d ⟨false, project⟩).result with
    | ok text => exact ⟨nofun, nofun⟩
    | error cause => exact Iff.rfl

def notingSignature (q : Query) : Outcome :=
  if q = .commitDate then .ended { stdout := Utf8.encode "gpg: ok\n2020-07-02\n" }
  else RehearsedRepository.printing {} q

/-- A note in front of the date ends up within the snapshot, with its line feed. -/
theorem printedVersion_notingSignature :
    ¬ ∀ (program : Text) (outcome : Query → Outcome) (files : Files) (d : Declaration)
      (project : Bool) (text : Text),
      ((repository program outcome).printedVersion files d ⟨false, project⟩).result = .ok text →
        text ≠ [] ∧ '\n' ∉ text := by
  intro h
  have hprinted : ((repository "git" notingSignature).printedVersion
      RehearsedRepository.declaring {} ⟨false, false⟩).result =
        .ok "1.3.0~gpg: ok\n2020-07-02~g4f336a2~snapshot" := rfl
  exact (h _ _ _ _ _ _ hprinted).2 (by decide)

/-- The line feed within the snapshot comes from the date, and the one behind it is asked for. -/
theorem printedVersion_line_feeds_noted :
    SplitsSnapshot "git" notingSignature ∧
      ((repository "git" notingSignature).printedVersion RehearsedRepository.declaring {}
        ⟨true, false⟩).result = .ok "1.3.0~gpg: ok\n2020-07-02~g4f336a2~snapshot\n" := by
  have hprinted : ((repository "git" notingSignature).printedVersion
      RehearsedRepository.declaring {} ⟨false, false⟩).result =
        .ok "1.3.0~gpg: ok\n2020-07-02~g4f336a2~snapshot" := rfl
  obtain ⟨-, -, hlf, hnewline⟩ := (printedVersion_line_feeds "git" notingSignature
    RehearsedRepository.declaring {} false).1 _ hprinted
  exact ⟨(hlf.mp (by decide)).2, hnewline⟩

end GitProgram

end VersionStamp
