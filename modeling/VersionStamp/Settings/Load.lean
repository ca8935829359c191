import VersionStamp.Files
import VersionStamp.Settings.Shape
import VersionStamp.Toml.Diagnostic
import VersionStamp.Toml.Document

namespace VersionStamp

/-!
# Loading settings

Settings are loaded from a file that is named, and from no other. A document that says nothing
wrong can still leave the declaration unrecognisable, which is found last.
-/

namespace Settings

inductive Problem where
  | unreadable (path : Text) (cause : IoFailure)
  /-- The text is no document. -/
  | notADocument (path : Text)
  /-- The document is not of the shape of settings. -/
  | refused (path document : Text) (refusal : Refusal)
  | unrecognisable

/-- The text of a problem. Why a text is no document is not told: a placeholder stands where the
wording of the reader of documents would be. -/
def Problem.message : Problem → Text
  | .unreadable path cause => "cannot read " ++ path ++ ": " ++ cause.message
  | .notADocument path => "cannot parse " ++ path ++ ": <TOML syntax error>"
  | .refused path document refusal =>
      "cannot parse " ++ path ++ ": " ++
        Toml.diagnostic document refusal.span refusal.complaint.message
  | .unrecognisable => "project marker and suffix must not be empty"

def ofDocument (path document : Text) : Except Problem Settings :=
  match Toml.Entries.ofDocument? document with
  | none => .error (.notADocument path)
  | some entries =>
      match ofEntries entries with
      | .error refusal => .error (.refused path document refusal)
      | .ok settings =>
          if settings.project.isRecognisable then .ok settings else .error .unrecognisable

/-- The settings of a file, or the defaults if there is none to load. -/
def load (files : Files) (path : Option Text) : Except Failure Settings :=
  match path with
  | none => .ok {}
  | some path =>
      let loaded :=
        match files.readText path with
        | .ok document => ofDocument path document
        | .error cause => .error (.unreadable path cause)
      loaded.mapError fun problem => .settings problem.message

end Settings

end VersionStamp
