import VersionStamp.CommandLine
import VersionStamp.Git.Checkout
import VersionStamp.Report
import VersionStamp.Repository.Program
import VersionStamp.Settings.Load

namespace VersionStamp

/-!
# Running the program

A run reads its arguments, loads the settings, opens the repository of the working directory, finds
out the version, and prints it. The first of these that fails ends the run with an error on the
standard error, and then nothing has been printed.
-/

structure Execution where
  status : Nat
  stdout : Text := []
  stderr : Text := []
  calls : List Call := []
  deriving DecidableEq

structure Opened where
  repository : Repository
  calls : List Query → List Call

/-- Open the repository of the working directory as the settings say. A git program is not started
before the first query. -/
def GitSettings.openRepository (g : GitSettings) (host : Host) : Except Failure Opened :=
  match g.backend with
  | .program =>
      let program : GitProgram := { program := g.program }
      .ok ⟨program.onHost host, program.calls host⟩
  | .builtIn =>
      match Git.Checkout.ofPath host.files "." with
      | .ok checkout => .ok ⟨checkout.repository, fun _ => []⟩
      | .error problem => .error (.git problem)

namespace Execution

def failed (message : Text) (calls : List Call := []) : Execution :=
  { status := 1, stderr := errorReport false message ++ "\n", calls }

def openingMessage (why : Failure) : Text :=
  "Cannot open the current checkout: " ++ why.chain

def writingMessage (cause : IoFailure) : Text :=
  "Cannot write version to standard output: " ++ cause.message

def printing (outputFailure : Option IoFailure) (text : Text) (calls : List Call) : Execution :=
  match outputFailure with
  | none => { status := 0, stdout := text, calls }
  | some cause => failed (writingMessage cause) calls

def ofRequest (host : Host) (outputFailure : Option IoFailure) (r : Request) : Execution :=
  match Settings.load host.files r.config with
  | .error why => failed why.chain
  | .ok settings =>
      match settings.git.openRepository host with
      | .error why => failed (openingMessage why)
      | .ok opened =>
          let x := opened.repository.printedVersion host.files settings.project r.print
          let calls := opened.calls x.asked
          match x.result with
          | .error why => failed why.chain calls
          | .ok text => printing outputFailure text calls

/-- The path of the file that declares the version, as far as it can be known without reading the
file. -/
def declarationPath? (host : Host) (r : Request) : Option Text := do
  let settings ← (Settings.load host.files r.config).toOption
  let opened ← (settings.git.openRepository host).toOption
  let top ← opened.repository.topLevel.toOption
  some (Path.join top settings.project.file)

def firstLine (t : Text) : Text :=
  t.takeWhile (· != '\n')

/-- A run that only prints a text about the program. That it cannot be written is no error. -/
def telling (outputFailure : Option IoFailure) (text : Text) : Execution :=
  { status := 0, stdout := if outputFailure.isSome then [] else text }

/-- A run with arguments that are refused. Only the first line of the report is kept. -/
def refused (why : UsageError) : Execution :=
  { status := 2, stderr := firstLine ("error: " ++ why.message) }

def ofArguments (host : Host) (outputFailure : Option IoFailure) (arguments : List Text) :
    Execution :=
  match CommandLine.read arguments with
  | .ok request => ofRequest host outputFailure request
  | .error .help => telling outputFailure CommandLine.helpText
  | .error .version => telling outputFailure CommandLine.versionText
  | .error (.misuse why) => refused why

end Execution

end VersionStamp
