import VersionStamp.Host
import VersionStamp.Repository
import VersionStamp.Text.Blank

namespace VersionStamp

/-!
# The repository behind a git program

Each query is one run of the program. A run that does not end with status 0 fails, whatever it has
printed; only then has its output to be UTF-8.
-/

structure GitProgram where
  program : Text := "git"
  /-- The directory to run in, if it is not the working directory. -/
  directory : Option Text := none
  deriving DecidableEq

inductive Outcome where
  | notStarted (cause : IoFailure)
  | ended (run : ProgramRun)
  deriving DecidableEq

def Query.arguments : Query → List Text
  | .topLevel => ["rev-parse", "--show-toplevel"]
  | .tagsAtHead => ["tag", "--points-at", "HEAD"]
  | .commitDate => ["log", "-1", "--format=%cd", "--date=short"]
  | .shortHash => ["rev-parse", "--short", "HEAD"]

namespace GitProgram

def command (program : Text) (q : Query) : Text :=
  Text.join " " (program :: q.arguments)

/-- The output of a run, or the failure that its outcome is. A killed program has status -1. -/
def output (command : Text) : Outcome → Except Failure Text
  | .notStarted cause => .error (.launch command cause)
  | .ended run =>
      match run.ending with
      | .exited 0 =>
          match Utf8.decode? run.stdout with
          | some text => .ok text
          | none => .error (.encoding command)
      | .exited status =>
          .error (.tool command status (Text.trim (Utf8.decodeLossy run.stderr)))
      | .killed _ => .error (.tool command (-1) (Text.trim (Utf8.decodeLossy run.stderr)))

/-- The repository that the outcomes of the runs describe. -/
def repository (program : Text) (outcome : Query → Outcome) : Repository :=
  let output q := output (command program q) (outcome q)
  { topLevel := output .topLevel |>.map Text.joinLines
    tagsAtHead := output .tagsAtHead |>.map TagSet.ofOutput
    commitDate := output .commitDate |>.map Text.trim
    shortHash := output .shortHash |>.map Text.trim }

def outcome (g : GitProgram) (h : Host) (q : Query) : Outcome :=
  match h.launch g.program g.directory with
  | .ok _ => .ended (h.behaviour q.arguments)
  | .error cause => .notStarted cause

def onHost (g : GitProgram) (h : Host) : Repository :=
  repository g.program (g.outcome h)

def calls (g : GitProgram) (h : Host) (asked : List Query) : List Call :=
  match h.launch g.program g.directory with
  | .ok place => asked.map fun q => ⟨q.arguments, place⟩
  | .error _ => []

end GitProgram

end VersionStamp
