import VersionStamp.Execution
import VersionStamp.Host.Session
import VersionStamp.Proofs.Settings.Acceptance

namespace VersionStamp

/-!
# All or nothing

A run for a request goes through three phases, and each of them works on what the one before has
given. Nothing is printed before all of them have succeeded, and the first that fails is the one
that is reported. A git program is not started before the last phase.
-/

inductive Phase where
  | settings
  | opening
  | version
  deriving DecidableEq

def Phase.report : Phase → Failure → Text
  | .opening, why => Execution.openingMessage why
  | .settings, why | .version, why => why.chain

namespace Request

/-- All phases of a run for the request succeed, and this is the text they come to. -/
def Prints (r : Request) (host : Host) (text : Text) : Prop :=
  ∃ settings, Settings.load host.files r.config = .ok settings ∧
    ∃ opened, settings.git.openRepository host = .ok opened ∧
      (opened.repository.printedVersion host.files settings.project r.print).result = .ok text

/-- The first phase that fails, and why it does. -/
inductive Fails (r : Request) (host : Host) : Phase → Failure → Prop where
  | settings {why : Failure} (hwhy : Settings.load host.files r.config = .error why) :
      Fails r host .settings why
  | opening {settings : Settings} {why : Failure}
      (hload : Settings.load host.files r.config = .ok settings)
      (hwhy : settings.git.openRepository host = .error why) : Fails r host .opening why
  | version {settings : Settings} {opened : Opened} {why : Failure}
      (hload : Settings.load host.files r.config = .ok settings)
      (hopen : settings.git.openRepository host = .ok opened)
      (hwhy : (opened.repository.printedVersion host.files settings.project r.print).result =
        .error why) : Fails r host .version why

/-- A request that is carried out prints a text or fails in some phase. -/
theorem prints_or_fails (r : Request) (host : Host) :
    (∃ text, r.Prints host text) ∨ ∃ phase why, r.Fails host phase why := by
  cases hload : Settings.load host.files r.config with
  | error why => exact .inr ⟨.settings, why, .settings hload⟩
  | ok settings =>
      cases hopen : settings.git.openRepository host with
      | error why => exact .inr ⟨.opening, why, .opening hload hopen⟩
      | ok opened =>
          cases hresult :
            (opened.repository.printedVersion host.files settings.project r.print).result with
          | error why => exact .inr ⟨.version, why, .version hload hopen hresult⟩
          | ok text => exact .inl ⟨text, settings, hload, opened, hopen, hresult⟩

end Request

theorem Settings.load_congr {files files' : Files} {config : Option Text}
    (h : ∀ path, config = some path → files'.readText path = files.readText path) :
    load files' config = load files config := by
  cases config with
  | none => rfl
  | some path => simp only [load, h path rfl]

theorem Settings.exists_path_of_load {files : Files} {config : Option Text} {why : Failure}
    (h : load files config = .error why) : ∃ path, config = some path := by
  cases config with
  | none => cases h
  | some path => exact ⟨path, rfl⟩

namespace Execution

variable {host : Host} {request : Request}

theorem ofRequest_of_prints {text : Text} (h : request.Prints host text)
    (outputFailure : Option IoFailure) :
    ∃ calls, ofRequest host outputFailure request = printing outputFailure text calls := by
  obtain ⟨settings, hload, opened, hopen, htext⟩ := h
  simp only [ofRequest, hload, hopen, htext]
  exact ⟨_, rfl⟩

theorem ofRequest_of_fails {phase : Phase} {why : Failure} (h : request.Fails host phase why)
    (outputFailure : Option IoFailure) :
    ∃ calls, ofRequest host outputFailure request = failed (phase.report why) calls ∧
      (phase ≠ .version → calls = []) := by
  cases h with
  | settings hwhy =>
      simp only [ofRequest, hwhy]
      exact ⟨[], rfl, fun _ => rfl⟩
  | opening hload hwhy =>
      simp only [ofRequest, hload, hwhy]
      exact ⟨[], rfl, fun _ => rfl⟩
  | version hload hopen hwhy =>
      simp only [ofRequest, hload, hopen, hwhy]
      exact ⟨_, rfl, nofun⟩

/-- Settings that cannot be loaded end the run in the same way whatever else the host holds. -/
theorem ofRequest_of_load_error {host' : Host} {why : Failure}
    (h : Settings.load host.files request.config = .error why)
    (hsame : ∀ path, request.config = some path →
      host'.files.readText path = host.files.readText path)
    (outputFailure : Option IoFailure) :
    ofRequest host' outputFailure request = ofRequest host outputFailure request := by
  have h' : Settings.load host'.files request.config = .error why := by
    rw [Settings.load_congr hsame, h]
  simp only [ofRequest, h, h']

variable {arguments : List Text}

theorem ofArguments_of_read (hread : CommandLine.read arguments = .ok request) (host : Host)
    (outputFailure : Option IoFailure) :
    ofArguments host outputFailure arguments = ofRequest host outputFailure request := by
  simp only [ofArguments, hread]

theorem ofArguments_of_prints (hread : CommandLine.read arguments = .ok request) {text : Text}
    (h : request.Prints host text) :
    (ofArguments host none arguments).status = 0 ∧
      (ofArguments host none arguments).stdout = text ∧
      (ofArguments host none arguments).stderr = [] := by
  obtain ⟨calls, heq⟩ := ofRequest_of_prints h none
  rw [ofArguments_of_read hread, heq]
  exact ⟨rfl, rfl, rfl⟩

/-- A failing request ends with status 1, an empty output and a report of its failure. -/
theorem ofArguments_of_fails (hread : CommandLine.read arguments = .ok request) {phase : Phase}
    {why : Failure} (h : request.Fails host phase why) :
    (ofArguments host none arguments).status = 1 ∧
      (ofArguments host none arguments).stdout = [] ∧
      (ofArguments host none arguments).stderr =
        errorReport false (phase.report why) ++ "\n" ∧
      (phase ≠ .version → (ofArguments host none arguments).calls = []) := by
  obtain ⟨calls, heq, hcalls⟩ := ofRequest_of_fails h none
  rw [ofArguments_of_read hread, heq]
  exact ⟨rfl, rfl, rfl, hcalls⟩

/-- With arguments that are accepted, a run ends with status 0 exactly if all phases succeed, and it
has then printed their text and nothing else. Otherwise it ends with status 1, has printed nothing,
and reports the first phase that fails. Settings that cannot be loaded are reported, and no program
is started, whatever the checkout is like. -/
theorem ofArguments_all_or_nothing (hread : CommandLine.read arguments = .ok request)
    (host : Host) :
    let run := ofArguments host none arguments
    (run.status = 0 ↔ ∃ text, request.Prints host text) ∧
    (∀ text, request.Prints host text → run.stdout = text ∧ run.stderr = []) ∧
    (run.status ≠ 0 → ∃ phase why, request.Fails host phase why) ∧
    (∀ phase why, request.Fails host phase why →
      run.status = 1 ∧ run.stdout = [] ∧
        run.stderr = errorReport false (phase.report why) ++ "\n" ∧
        (phase ≠ .version → run.calls = [])) ∧
    (∀ why, request.Fails host .settings why →
      (∃ problem, why = .settings problem) ∧
        ∀ host' : Host, (∀ path, request.config = some path →
            host'.files.readText path = host.files.readText path) →
          ofArguments host' none arguments = run) := by
  intro run
  refine ⟨⟨fun hstatus => ?_, ?_⟩, ?_, fun hstatus => ?_, ?_, ?_⟩
  · rcases request.prints_or_fails host with htext | ⟨phase, why, hwhy⟩
    · exact htext
    · have hone : run.status = 1 := (ofArguments_of_fails hread hwhy).1
      rw [hone] at hstatus
      cases hstatus
  · rintro ⟨text, htext⟩
    exact (ofArguments_of_prints hread htext).1
  · intro text htext
    exact (ofArguments_of_prints hread htext).2
  · rcases request.prints_or_fails host with ⟨text, htext⟩ | hwhy
    · exact absurd (ofArguments_of_prints hread htext).1 hstatus
    · exact hwhy
  · intro phase why hwhy
    exact ofArguments_of_fails hread hwhy
  · rintro why ⟨hwhy⟩
    obtain ⟨path, hpath⟩ := Settings.exists_path_of_load hwhy
    refine ⟨Settings.exists_problem_of_load (hpath ▸ hwhy), fun host' hsame => ?_⟩
    rw [ofArguments_of_read hread, ofRequest_of_load_error hwhy hsame]
    exact (ofArguments_of_read hread host none).symm

def tagged : Host :=
  Session.host [⟨"git tag --points-at HEAD", "v1.3.0\n"⟩] {}

/-- The tag is printed. With a settings file that is not there the git program is left alone. -/
theorem ofArguments_all_or_nothing_tagged :
    (ofArguments tagged none ["-n"]).status = 0 ∧
      (ofArguments tagged none ["-n"]).stdout = "v1.3.0\n" ∧
      (ofArguments tagged none ["-c", "build.toml"]).stderr =
        "ERROR: Settings error: cannot read build.toml: No such file or directory (os error 2)\n" ∧
      (ofArguments tagged none ["-c", "build.toml"]).calls = [] := by
  have hprints : (⟨{ newline := true }, none⟩ : Request).Prints tagged "v1.3.0\n" :=
    ⟨_, rfl, _, rfl, rfl⟩
  have hfails : (⟨{}, some "build.toml"⟩ : Request).Fails tagged .settings
      (.settings "cannot read build.toml: No such file or directory (os error 2)") :=
    .settings rfl
  have hnewline : CommandLine.read ["-n"] = .ok ⟨{ newline := true }, none⟩ := rfl
  have hconfig : CommandLine.read ["-c", "build.toml"] = .ok ⟨{}, some "build.toml"⟩ := rfl
  obtain ⟨hstatus, hprinted, -⟩ := ofArguments_all_or_nothing hnewline tagged
  obtain ⟨-, -, -, hreported, -⟩ := ofArguments_all_or_nothing hconfig tagged
  obtain ⟨-, -, hstderr, hcalls⟩ := hreported _ _ hfails
  exact ⟨hstatus.mpr ⟨_, hprints⟩, (hprinted _ hprints).1, hstderr, hcalls nofun⟩

end Execution

end VersionStamp
