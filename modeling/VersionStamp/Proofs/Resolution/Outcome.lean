import VersionStamp.Proofs.Declaration.Reading
import VersionStamp.Proofs.Failure
import VersionStamp.Resolution

namespace VersionStamp

/-!
# What comes out of a resolution

The version at HEAD is found out in stages. Forgetting the queries that were asked, a resolution is
a computation on the answers alone; its result is a release, a snapshot, the ambiguity of several
tags, or the failure of the first stage that fails.
-/

namespace Resolution

variable {α β : Type}

@[simp] theorem result_pure (a : α) : (pure a : Resolution α).result = .ok a := rfl

@[simp] theorem result_done (result : Except Failure α) : (done result).result = result := rfl

@[simp] theorem result_ask (q : Query) (answer : Except Failure α) :
    (ask q answer).result = answer := rfl

theorem result_andThen (x : Resolution α) (f : α → Resolution β) :
    (andThen x f).result = x.result >>= fun a => (f a).result := by
  obtain ⟨asked, result⟩ := x
  cases result <;> rfl

theorem result_map (f : α → β) (x : Resolution α) : (f <$> x).result = x.result.map f := by
  change (andThen x fun a => pure (f a)).result = _
  rw [result_andThen]
  cases x.result <;> rfl

end Resolution

def Version.ofAnswers (tags : Except Failure TagSet) (base : Except Failure BaseVersion)
    (date hash : Except Failure Text) : Except Failure Version := do
  let tags ← tags
  match ← tags.release? with
  | some tag => .ok (.release tag)
  | none =>
      let base ← base
      let date ← date
      let hash ← hash
      .ok (.snapshot base date hash)

namespace Repository

variable {r : Repository} {files : Files} {d : Declaration}

open Resolution

theorem result_baseVersion (r : Repository) (files : Files) (d : Declaration) :
    (r.baseVersion files d).result =
      r.topLevel >>= fun top => readDeclaration files d (Path.join top d.file) := by
  rw [baseVersion, bind_eq, result_andThen]
  rfl

/-- The version is determined by the answers of the repository and the base version. -/
theorem result_version (r : Repository) (files : Files) (d : Declaration) :
    (r.version files d).result =
      Version.ofAnswers r.tagsAtHead (r.baseVersion files d).result r.commitDate r.shortHash := by
  simp only [version, bind_eq, result_andThen, result_ask, result_done, Version.ofAnswers]
  refine bind_congr fun tags => bind_congr fun release => ?_
  cases release with
  | none => simp only [result_andThen, result_ask, result_pure]
  | some tag => rfl

def snapshot (r : Repository) (files : Files) (d : Declaration) : Except Failure Version := do
  let top ← r.topLevel
  let base ← readDeclaration files d (Path.join top d.file)
  let date ← r.commitDate
  let hash ← r.shortHash
  .ok (.snapshot base date hash)

theorem result_version_of_error {why : Failure} (h : r.tagsAtHead = .error why) :
    (r.version files d).result = .error why := by
  rw [result_version, h]
  rfl

theorem result_version_of_single {tag : Text} (h : r.tagsAtHead = .ok ⟨[tag]⟩) :
    (r.version files d).result = .ok (.release tag) := by
  rw [result_version, h]
  rfl

theorem result_version_of_several {names : List Text} (h : r.tagsAtHead = .ok ⟨names⟩)
    (hlength : 2 ≤ names.length) :
    (r.version files d).result = .error (.ambiguousTags names) := by
  rw [result_version, h]
  match names, hlength with
  | _ :: _ :: _, _ => rfl

theorem result_version_of_untagged (h : r.tagsAtHead = .ok ⟨[]⟩) :
    (r.version files d).result = r.snapshot files d := by
  rw [result_version, h, result_baseVersion, snapshot]
  cases r.topLevel <;> rfl

theorem readText_eq_ok_iff {path text : Text} :
    files.readText path = .ok text ↔
      ∃ bytes, files.read path = .ok bytes ∧ Utf8.decode? bytes = some text := by
  rw [Files.readText, bind_eq_ok_iff]
  refine exists_congr fun bytes => and_congr_right fun _ => ?_
  cases Utf8.decode? bytes <;> simp

theorem readDeclaration_eq_ok_iff {path : Text} {base : BaseVersion} :
    readDeclaration files d path = .ok base ↔
      ∃ text, files.readText path = .ok text ∧ d.Declares text base.text := by
  rw [readDeclaration]
  cases files.readText path <;> simp [Declaration.read_eq_ok_iff]

/-- A snapshot takes the top level, a base version, a date and a hash, and nothing else. -/
theorem snapshot_eq_ok_iff {v : Version} :
    r.snapshot files d = .ok v ↔ ∃ top, r.topLevel = .ok top ∧
      ∃ base, readDeclaration files d (Path.join top d.file) = .ok base ∧
        ∃ date, r.commitDate = .ok date ∧ ∃ hash, r.shortHash = .ok hash ∧
          .snapshot base date hash = v := by
  simp only [snapshot, bind_eq_ok_iff, Except.ok.injEq]

/-! ## Stages -/

end Repository

inductive Stage where
  | tags
  | topLevel
  | file
  | declaration
  | date
  | hash
  deriving DecidableEq

namespace Stage

def order : List Stage :=
  [.tags, .topLevel, .file, .declaration, .date, .hash]

/-- The failure of a stage on its own. A stage that lacks what it works on has none. -/
def failure? (r : Repository) (files : Files) (d : Declaration) : Stage → Option Failure
  | .tags => failureOf r.tagsAtHead
  | .topLevel => failureOf r.topLevel
  | .file => do
      let top ← r.topLevel.toOption
      let cause ← failureOf (files.readText (Path.join top d.file))
      some (.unreadable (Path.join top d.file) cause)
  | .declaration => do
      let top ← r.topLevel.toOption
      let text ← (files.readText (Path.join top d.file)).toOption
      failureOf (d.read text)
  | .date => failureOf r.commitDate
  | .hash => failureOf r.shortHash

end Stage

namespace Repository

variable {r : Repository} {files : Files} {d : Declaration}

/-- The failure of the first stage that fails. -/
def firstFailure? (r : Repository) (files : Files) (d : Declaration) : Option Failure :=
  Stage.order.findSome? (Stage.failure? r files d)

theorem firstFailure?_of_error {why : Failure} (h : r.tagsAtHead = .error why) :
    r.firstFailure? files d = some why := by
  simp [firstFailure?, Stage.order, Stage.failure?, failureOf, h]

theorem failureOf_readDeclaration (path : Text) :
    failureOf (readDeclaration files d path) =
      ((failureOf (files.readText path)).map (Failure.unreadable path)).or
        ((files.readText path).toOption.bind fun text => failureOf (d.read text)) := by
  rw [readDeclaration]
  cases files.readText path <;> rfl

/-- Without tags the first failure among the stages is that of the snapshot. -/
theorem failureOf_snapshot (h : r.tagsAtHead = .ok ⟨[]⟩) :
    failureOf (r.snapshot files d) = r.firstFailure? files d := by
  simp only [snapshot, firstFailure?, Stage.order, List.findSome?_cons, Stage.failure?, h,
    failureOf_bind, failureOf_readDeclaration]
  cases r.topLevel with
  | error why => rfl
  | ok top =>
      cases hread : files.readText (Path.join top d.file) with
      | error cause => simp [failureOf, Except.toOption, hread]
      | ok text =>
          cases hbase : d.read text with
          | error why => simp [failureOf, Except.toOption, readDeclaration, hread, hbase]
          | ok base =>
              cases r.commitDate <;> cases r.shortHash <;>
                simp [failureOf, Except.toOption, readDeclaration, hread, hbase]

/-! ## Results -/

theorem tagsAtHead_cases (r : Repository) :
    (∃ why, r.tagsAtHead = .error why) ∨ r.tagsAtHead = .ok ⟨[]⟩ ∨
      (∃ tag, r.tagsAtHead = .ok ⟨[tag]⟩) ∨
        ∃ names, r.tagsAtHead = .ok ⟨names⟩ ∧ 2 ≤ names.length := by
  match h : r.tagsAtHead with
  | .error why => exact .inl ⟨why, rfl⟩
  | .ok ⟨[]⟩ => exact .inr (.inl rfl)
  | .ok ⟨[tag]⟩ => exact .inr (.inr (.inl ⟨tag, rfl⟩))
  | .ok ⟨first :: second :: more⟩ => exact .inr (.inr (.inr ⟨_, rfl, by simp⟩))

/-- A release is the only tag at HEAD. -/
theorem version_eq_release_iff {tag : Text} :
    (r.version files d).result = .ok (.release tag) ↔ r.tagsAtHead = .ok ⟨[tag]⟩ := by
  rcases r.tagsAtHead_cases with ⟨why, h⟩ | h | ⟨single, h⟩ | ⟨names, h, hlength⟩
  · simp [result_version_of_error h, h]
  · simp [result_version_of_untagged h, snapshot_eq_ok_iff, h]
  · simp [result_version_of_single h, h]
  · rw [result_version_of_several h hlength, h]
    have hnames : names ≠ [tag] := fun hsingle => by simp [hsingle] at hlength
    simp [hnames]

theorem version_eq_snapshot_iff {base : BaseVersion} {date hash : Text} :
    (r.version files d).result = .ok (.snapshot base date hash) ↔
      r.tagsAtHead = .ok ⟨[]⟩ ∧ r.snapshot files d = .ok (.snapshot base date hash) := by
  rcases r.tagsAtHead_cases with ⟨why, h⟩ | h | ⟨single, h⟩ | ⟨names, h, hlength⟩
  · simp [result_version_of_error h, h]
  · simp [result_version_of_untagged h, h]
  · simp [result_version_of_single h, h]
  · rw [result_version_of_several h hlength, h]
    have hnames : names ≠ [] := fun hnil => by simp [hnil] at hlength
    simp [hnames]

/-- A version that is found is a snapshot exactly if the commit has no tag. -/
theorem isSnapshot_of_version {v : Version} (h : (r.version files d).result = .ok v) :
    v.isSnapshot ↔ r.tagsAtHead = .ok ⟨[]⟩ := by
  cases v with
  | release tag => simp [Version.isSnapshot, version_eq_release_iff.mp h]
  | snapshot base date hash => simp [Version.isSnapshot, (version_eq_snapshot_iff.mp h).1]

/-- A version fails for several tags, or else with the first failure among what a snapshot asks for.
-/
theorem version_eq_error_iff {why : Failure} :
    (r.version files d).result = .error why ↔
      (∃ names, r.tagsAtHead = .ok ⟨names⟩ ∧ 2 ≤ names.length ∧ why = .ambiguousTags names) ∨
        (∀ tags, r.tagsAtHead = .ok tags → tags.names = []) ∧
          r.firstFailure? files d = some why := by
  rcases r.tagsAtHead_cases with ⟨cause, h⟩ | h | ⟨single, h⟩ | ⟨names, h, hlength⟩
  · simp [result_version_of_error h, firstFailure?_of_error h, h]
  · simp [result_version_of_untagged h, ← failureOf_snapshot h, failureOf_eq_some_iff, h]
  · simp [result_version_of_single h, h]
  · rw [result_version_of_several h hlength, h]
    have hnames : names ≠ [] := fun hnil => by simp [hnil] at hlength
    simp [hnames, hlength, eq_comm]

/-- The version at HEAD by the tags found there. A failure that is not the ambiguity of the tags
is that of the first stage that fails, as the stage reports it. The answers of a repository are
arbitrary, so one of them may itself be the ambiguity of some names that are not at HEAD; the last
part leaves out such a stage, whose failure is passed on like any other by the part before. -/
theorem version_result_iff (r : Repository) (files : Files) (d : Declaration) :
    (∀ tag, (r.version files d).result = .ok (.release tag) ↔ r.tagsAtHead = .ok ⟨[tag]⟩) ∧
    (∀ base date hash, (r.version files d).result = .ok (.snapshot base date hash) ↔
      r.tagsAtHead = .ok ⟨[]⟩ ∧
      (∃ top bytes text, r.topLevel = .ok top ∧
        files.read (Path.join top d.file) = .ok bytes ∧ Utf8.decode? bytes = some text ∧
        d.Declares text base.text) ∧
      r.commitDate = .ok date ∧ r.shortHash = .ok hash) ∧
    (∀ why, (r.version files d).result = .error why ↔
      (∃ names, r.tagsAtHead = .ok ⟨names⟩ ∧ 2 ≤ names.length ∧ why = .ambiguousTags names) ∨
      (∀ tags, r.tagsAtHead = .ok tags → tags.names = []) ∧
        r.firstFailure? files d = some why) ∧
    (∀ names, (∀ s : Stage, s.failure? r files d ≠ some (.ambiguousTags names)) →
      ((r.version files d).result = .error (.ambiguousTags names) ↔
        r.tagsAtHead = .ok ⟨names⟩ ∧ 2 ≤ names.length)) := by
  refine ⟨fun tag => version_eq_release_iff, fun base date hash => ?_,
    fun why => version_eq_error_iff, fun names hown => ?_⟩
  · rw [version_eq_snapshot_iff, snapshot_eq_ok_iff]
    refine and_congr_right fun _ => ⟨?_, ?_⟩
    · rintro ⟨top, htop, base', hbase, date', hdate, hash', hhash, heq⟩
      cases heq
      obtain ⟨text, htext, hdeclares⟩ := readDeclaration_eq_ok_iff.mp hbase
      obtain ⟨bytes, hbytes, hdecode⟩ := readText_eq_ok_iff.mp htext
      exact ⟨⟨top, bytes, text, htop, hbytes, hdecode, hdeclares⟩, hdate, hhash⟩
    · rintro ⟨⟨top, bytes, text, htop, hbytes, hdecode, hdeclares⟩, hdate, hhash⟩
      have htext := readText_eq_ok_iff.mpr ⟨bytes, hbytes, hdecode⟩
      exact ⟨top, htop, base, readDeclaration_eq_ok_iff.mpr ⟨text, htext, hdeclares⟩,
        date, hdate, hash, hhash, rfl⟩
  · rw [version_eq_error_iff]
    constructor
    · rintro (⟨names', htags, hlength, heq⟩ | ⟨-, hfirst⟩)
      · cases heq
        exact ⟨htags, hlength⟩
      · obtain ⟨s, -, hs⟩ := List.exists_of_findSome?_eq_some hfirst
        exact absurd hs (hown s)
    · rintro ⟨htags, hlength⟩
      exact .inl ⟨names, htags, hlength, rfl⟩

def doublyTagged : Repository where
  topLevel := .error (.encoding "git rev-parse --show-toplevel")
  tagsAtHead := .ok ⟨["1.3.0", "v1.3.0"]⟩
  commitDate := .error (.encoding "git log -1 --format=%cd --date=short")
  shortHash := .error (.encoding "git rev-parse --short HEAD")

/-- The other queries would fail, but the tags decide. -/
theorem version_doublyTagged :
    (∀ s : Stage, s.failure? doublyTagged {} {} ≠ some (.ambiguousTags ["1.3.0", "v1.3.0"])) ∧
      (doublyTagged.version {} {}).result = .error (.ambiguousTags ["1.3.0", "v1.3.0"]) := by
  have hown : ∀ s : Stage,
      s.failure? doublyTagged {} {} ≠ some (.ambiguousTags ["1.3.0", "v1.3.0"]) := by
    intro s
    cases s <;> decide
  exact ⟨hown, ((version_result_iff doublyTagged {} {}).2.2.2 _ hown).mpr ⟨rfl, by decide⟩⟩

end Repository

end VersionStamp
