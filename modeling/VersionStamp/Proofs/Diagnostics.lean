import VersionStamp.Proofs.Execution
import VersionStamp.Proofs.Repository.Agreement

namespace VersionStamp

/-!
# What a failing run reports

A failing run reports the message of its failure, behind a heading if the repository could not be
opened. The messages tell their causes. A failure of the library that reads repositories is also
followed by its cause as an error of its own, so of these failures, and of no others, the cause is
told twice. A repository behind a git program has none of them.
-/

/-! ## Messages and causes -/

namespace Failure

def echo : Failure → Text
  | .git problem => ": " ++ problem.message
  | _ => []

theorem chain_eq (f : Failure) : f.chain = f.message ++ f.echo := by
  cases f <;> simp [chain, cause?, echo]

theorem echo_eq_nil_iff {f : Failure} : f.echo = [] ↔ ∀ problem, f ≠ .git problem := by
  cases f <;> simp [echo]

def openings : List Text :=
  ["External tool error: ", "Configuration parse error: ",
    "Encountered commit with multiple tags: ", "Cannot read ", "Settings error: ",
    "Git operation failed: "]

theorem exists_opening_isPrefix (f : Failure) : ∃ words ∈ openings, words <+: f.message := by
  cases f with
  | tool | launch | encoding => exact ⟨"External tool error: ", by decide, _, rfl⟩
  | declaration => exact ⟨"Configuration parse error: ", by decide, _, rfl⟩
  | ambiguousTags => exact ⟨"Encountered commit with multiple tags: ", by decide, _, rfl⟩
  | unreadable => exact ⟨"Cannot read ", by decide, _, rfl⟩
  | settings => exact ⟨"Settings error: ", by decide, _, rfl⟩
  | git => exact ⟨"Git operation failed: ", by decide, _, rfl⟩

end Failure

/-! ## Reports -/

namespace Phase

/-- What stands in front of the message of a failure in the phase. -/
def heading : Phase → Text
  | .opening => "Cannot open the current checkout: "
  | .settings | .version => []

/-- What a run prints that tells the failure, with its cause, once. -/
def plainReport (phase : Phase) (why : Failure) : Text :=
  "ERROR: " ++ (phase.heading ++ (why.message ++ "\n"))

theorem report_eq (phase : Phase) (why : Failure) :
    phase.report why = phase.heading ++ (why.message ++ why.echo) := by
  rw [← Failure.chain_eq]
  cases phase <;> rfl

/-- No message of a failure begins with the heading. -/
theorem not_heading_isPrefix (why : Failure) (rest : Text) :
    ¬ heading .opening <+: why.message ++ rest := by
  intro hheading
  have hdiffer : ∀ words ∈ Failure.openings,
      ¬ heading .opening <+: words ∧ ¬ words <+: heading .opening := by
    decide
  obtain ⟨words, hwords, hbegin⟩ := why.exists_opening_isPrefix
  obtain ⟨hshorter, hlonger⟩ := hdiffer words hwords
  have hmessage := hbegin.trans (List.prefix_append why.message rest)
  rcases List.prefix_or_prefix_of_prefix hheading hmessage with h | h
  · exact hshorter h
  · exact hlonger h

end Phase

/-! ## Where no failure of the library comes from -/

def NeverGit {α : Type} (x : Except Failure α) : Prop :=
  ∀ problem, x ≠ .error (.git problem)

namespace NeverGit

variable {α β : Type} {x : Except Failure α}

theorem ok (a : α) : NeverGit (.ok a) := by
  intro problem h
  cases h

theorem bind {f : α → Except Failure β} (hx : NeverGit x) (hf : ∀ a, NeverGit (f a)) :
    NeverGit (x >>= f) := by
  intro problem h
  cases x with
  | ok a => exact hf a problem h
  | error why =>
      apply hx problem
      exact congrArg Except.error (Except.error.inj h)

theorem map (hx : NeverGit x) (f : α → β) : NeverGit (x.map f) := by
  intro problem h
  cases x with
  | ok a => cases h
  | error why =>
      apply hx problem
      exact congrArg Except.error (Except.error.inj h)

end NeverGit

theorem Declaration.neverGit_read (d : Declaration) (text : Text) : NeverGit (d.read text) := by
  intro problem h
  rw [read] at h
  split at h
  next value _ =>
    rw [BaseVersion.ofText] at h
    split at h <;> cases h
  next => cases h

theorem TagSet.neverGit_release? (tags : TagSet) : NeverGit tags.release? := by
  intro problem h
  match tags with
  | ⟨[]⟩ => cases h
  | ⟨[name]⟩ => cases h
  | ⟨first :: second :: more⟩ => cases h

namespace Repository

variable {r : Repository}

/-- No answer is a failure of the library. -/
structure IsForeign (r : Repository) : Prop where
  topLevel : NeverGit r.topLevel
  tagsAtHead : NeverGit r.tagsAtHead
  commitDate : NeverGit r.commitDate
  shortHash : NeverGit r.shortHash

theorem neverGit_readDeclaration (files : Files) (d : Declaration) (path : Text) :
    NeverGit (readDeclaration files d path) := by
  rw [readDeclaration]
  split
  next text _ => exact d.neverGit_read text
  next =>
    intro problem h
    cases h

theorem IsForeign.baseVersion (h : r.IsForeign) (files : Files) (d : Declaration) :
    NeverGit (r.baseVersion files d).result := by
  rw [result_baseVersion]
  exact h.topLevel.bind fun top => neverGit_readDeclaration files d _

/-- A version of a repository that is not asked through the library never fails with one of its
problems. -/
theorem IsForeign.version (h : r.IsForeign) (files : Files) (d : Declaration) :
    NeverGit (r.version files d).result := by
  rw [result_version, Version.ofAnswers]
  apply h.tagsAtHead.bind
  intro tags
  apply tags.neverGit_release?.bind
  intro release
  cases release with
  | some tag => exact .ok _
  | none =>
      apply (h.baseVersion files d).bind
      intro base
      apply h.commitDate.bind
      intro date
      apply h.shortHash.bind
      intro hash
      exact .ok _

theorem IsForeign.printedVersion (h : r.IsForeign) (files : Files) (d : Declaration)
    (options : PrintOptions) : NeverGit (r.printedVersion files d options).result := by
  rw [result_printedVersion]
  apply NeverGit.map
  split
  · exact (h.baseVersion files d).map _
  · exact (h.version files d).map _

end Repository

namespace GitProgram

theorem neverGit_output (command : Text) (o : Outcome) : NeverGit (output command o) := by
  intro problem h
  unfold output at h
  split at h
  next => cases h
  next =>
    split at h
    next => split at h <;> cases h
    next => cases h
    next => cases h

theorem isForeign_repository (program : Text) (outcome : Query → Outcome) :
    (repository program outcome).IsForeign where
  topLevel := (neverGit_output _ _).map _
  tagsAtHead := (neverGit_output _ _).map _
  commitDate := (neverGit_output _ _).map _
  shortHash := (neverGit_output _ _).map _

end GitProgram

namespace Request

def UsesLibrary (r : Request) (host : Host) : Prop :=
  ∃ settings, Settings.load host.files r.config = .ok settings ∧ settings.git.backend = .builtIn

variable {r : Request} {host : Host} {phase : Phase} {why : Failure}

/-- Only a request that uses the library can fail with one of its problems. -/
theorem Fails.usesLibrary {problem : Git.Problem} (h : r.Fails host phase (.git problem)) :
    r.UsesLibrary host := by
  cases h with
  | settings hwhy =>
      obtain ⟨path, hpath⟩ := Settings.exists_path_of_load hwhy
      obtain ⟨message, hmessage⟩ := Settings.exists_problem_of_load (hpath ▸ hwhy)
      cases hmessage
  | @opening settings _ hload hwhy =>
      refine ⟨settings, hload, ?_⟩
      cases hbackend : settings.git.backend with
      | builtIn => rfl
      | program =>
          rw [GitSettings.openRepository, hbackend] at hwhy
          cases hwhy
  | @version settings opened _ hload hopen hwhy =>
      refine ⟨settings, hload, ?_⟩
      cases hbackend : settings.git.backend with
      | builtIn => rfl
      | program =>
          rw [GitSettings.openRepository, hbackend] at hopen
          cases hopen
          exfalso
          exact (GitProgram.isForeign_repository _ _).printedVersion _ _ _ problem hwhy

/-- Only the library can fail to open a repository. -/
theorem Fails.exists_problem_of_opening (h : r.Fails host .opening why) :
    ∃ problem, why = .git problem := by
  cases h with
  | @opening settings _ hload hwhy =>
      rw [GitSettings.openRepository] at hwhy
      split at hwhy
      next => cases hwhy
      next =>
        split at hwhy
        next => cases hwhy
        next problem _ => exact ⟨problem, (Except.error.inj hwhy).symm⟩

end Request

namespace Execution

variable {arguments : List Text} {request : Request}

/-- What a failing request reports is its message and whatever is told a second time. -/
theorem stderr_of_fails (hread : CommandLine.read arguments = .ok request) {host : Host}
    {phase : Phase} {why : Failure} (h : request.Fails host phase why) :
    (ofArguments host none arguments).stderr =
      "ERROR: " ++ (phase.heading ++ (why.message ++ (why.echo ++ "\n"))) := by
  obtain ⟨-, -, hstderr, -⟩ := ofArguments_of_fails hread h
  rw [hstderr, Phase.report_eq]
  simp [errorReport, errorLabel]

/-- A run fails if one of its phases does, and reports the failure of that phase with its message,
behind the heading for exactly those repositories that cannot be opened. It tells the cause once
unless this is a failure of the library that reads repositories, and then once more. That takes
settings that have the library answer the queries, and opening fails for no other reason. -/
theorem stderr_of_failing_run (hread : CommandLine.read arguments = .ok request) (host : Host) :
    let run := ofArguments host none arguments
    (run.status ≠ 0 ↔ ∃ phase why, request.Fails host phase why) ∧
    ∀ phase why, request.Fails host phase why →
      run.stderr = "ERROR: " ++ (phase.heading ++ (why.message ++ (why.echo ++ "\n"))) ∧
      (("ERROR: " : Text) ++ Phase.opening.heading <+: run.stderr ↔ phase = .opening) ∧
      (run.stderr = phase.plainReport why ↔ ∀ problem, why ≠ .git problem) ∧
      (∀ problem, why = .git problem → request.UsesLibrary host) ∧
      (phase = .opening → ∃ problem, why = .git problem) := by
  intro run
  constructor
  · constructor
    · intro hstatus
      rcases request.prints_or_fails host with ⟨text, htext⟩ | hfails
      · exact absurd (ofArguments_of_prints hread htext).1 hstatus
      · exact hfails
    · rintro ⟨phase, why, hfails⟩ hstatus
      rw [(ofArguments_of_fails hread hfails).1] at hstatus
      cases hstatus
  · intro phase why hfails
    have hstderr : run.stderr = _ := stderr_of_fails hread hfails
    refine ⟨hstderr, ?_, ?_, ?_, ?_⟩
    · rw [hstderr, List.prefix_append_right_inj]
      cases phase with
      | opening => exact iff_of_true (List.prefix_append _ _) rfl
      | settings => exact iff_of_false (Phase.not_heading_isPrefix why _) nofun
      | version => exact iff_of_false (Phase.not_heading_isPrefix why _) nofun
    · rw [hstderr, ← Failure.echo_eq_nil_iff]
      unfold Phase.plainReport
      rw [List.append_cancel_left_eq, List.append_cancel_left_eq, List.append_cancel_left_eq,
        List.append_left_eq_self]
    · rintro problem rfl
      exact hfails.usesLibrary
    · rintro rfl
      exact hfails.exists_problem_of_opening

/-! ## A missing repository -/

def repositoryless : Host where
  files := { entries := [("settings.toml",
    .file (Utf8.encode "[git]\nbackend = 'libgit2'\n") false)] }

def repositorylessRequest : Request :=
  ⟨{}, some "settings.toml"⟩

theorem read_repositoryless :
    CommandLine.read ["-c", "settings.toml"] = .ok repositorylessRequest := rfl

theorem fails_repositoryless :
    repositorylessRequest.Fails repositoryless .opening (.git (.noRepository ".")) := by
  have hload : Settings.load repositoryless.files repositorylessRequest.config =
      .ok { git := { backend := .builtIn } } := rfl
  exact .opening hload rfl

/-- The library fails to find a repository, and that is not told once. -/
theorem stderr_repositoryless :
    CommandLine.read ["-c", "settings.toml"] = .ok repositorylessRequest ∧
      repositorylessRequest.Fails repositoryless .opening (.git (.noRepository ".")) ∧
      (ofArguments repositoryless none ["-c", "settings.toml"]).stderr ≠
        Phase.opening.plainReport (.git (.noRepository ".")) := by
  refine ⟨read_repositoryless, fails_repositoryless, ?_⟩
  rw [stderr_of_fails read_repositoryless fails_repositoryless]
  decide

/-- The cause stands in the message and once more behind it. -/
theorem stderr_of_failing_run_repositoryless :
    (ofArguments repositoryless none ["-c", "settings.toml"]).status ≠ 0 ∧
      (ofArguments repositoryless none ["-c", "settings.toml"]).stderr =
        "ERROR: Cannot open the current checkout: Git operation failed: " ++
          "could not find repository at '.'; class=Repository (6); code=NotFound (-3): " ++
          "could not find repository at '.'; class=Repository (6); code=NotFound (-3)\n" := by
  obtain ⟨hstatus, hreport⟩ := stderr_of_failing_run read_repositoryless repositoryless
  obtain ⟨hstderr, -⟩ := hreport _ _ fails_repositoryless
  refine ⟨hstatus.mpr ⟨_, _, fails_repositoryless⟩, ?_⟩
  rw [hstderr]
  decide +kernel

end Execution

end VersionStamp
