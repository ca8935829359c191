import VersionStamp.Git.Problem

namespace VersionStamp

/-!
# Failures

Every way in which a version cannot be told is one `Failure`. `message` is what is shown of it.
`chain` is what the command line prints: the message and, behind it, the message of the cause of
the one kind that has a cause of its own.
-/

inductive Failure where
  /-- A program ended without success. -/
  | tool (command : Text) (status : Int) (stderr : Text)
  /-- A program could not be started. -/
  | launch (command : Text) (cause : IoFailure)
  /-- The output of a program is not UTF-8. -/
  | encoding (command : Text)
  /-- The declaration of the project's version is missing or not a version. -/
  | declaration (problem : Text)
  | ambiguousTags (names : List Text)
  | unreadable (path : Text) (cause : IoFailure)
  | settings (problem : Text)
  | git (problem : Git.Problem)
  deriving DecidableEq

namespace Failure

def noDeclaration (file : Text) : Failure :=
  .declaration ("Unable to read version from " ++ file)

def badVersion (value : Text) : Failure :=
  .declaration ("Bad version: \"" ++ value ++ "\"")

def message : Failure → Text
  | .tool command status stderr =>
      "External tool error: `" ++ command ++ "` failed with status " ++ Text.ofInt status ++
        ": " ++ stderr
  | .launch command cause =>
      "External tool error: cannot run `" ++ command ++ "`: " ++ cause.message
  | .encoding command =>
      "External tool error: output of `" ++ command ++ "` is not valid UTF-8"
  | .declaration problem => "Configuration parse error: " ++ problem
  | .ambiguousTags names =>
      "Encountered commit with multiple tags: " ++ Text.join ", " names
  | .unreadable path cause => "Cannot read " ++ path ++ ": " ++ cause.message
  | .settings problem => "Settings error: " ++ problem
  | .git problem => "Git operation failed: " ++ problem.message

/-- The message of the cause that stands behind a failure as an error of its own. -/
def cause? : Failure → Option Text
  | .git problem => some problem.message
  | _ => none

def chain (f : Failure) : Text :=
  match f.cause? with
  | some cause => f.message ++ ": " ++ cause
  | none => f.message

end Failure

end VersionStamp
