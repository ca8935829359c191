import VersionStamp.Version.Declaration

namespace VersionStamp

/-!
# Settings

Settings say how the version is declared and what answers the queries of a repository. What is not
said has its default, and with the defaults alone no settings file is needed.
-/

inductive Backend where
  /-- The git program. -/
  | program
  /-- The library itself, which reads the repository from its files. -/
  | builtIn
  deriving DecidableEq

namespace Backend

def name : Backend → Text
  | .program => "cli"
  | .builtIn => "libgit2"

def all : List Backend :=
  [.program, .builtIn]

def ofName? (name : Text) : Option Backend :=
  all.find? fun b => b.name == name

theorem ofName?_name (b : Backend) : ofName? b.name = some b := by
  cases b <;> decide

end Backend

structure GitSettings where
  program : Text := "git"
  backend : Backend := .program
  deriving DecidableEq

structure Settings where
  project : Declaration := {}
  git : GitSettings := {}
  deriving DecidableEq

/-- Whether a line can be recognised as the declaration: the marker and the suffix are not empty. -/
def Declaration.isRecognisable (d : Declaration) : Bool :=
  !d.marker.isEmpty && !d.suffix.isEmpty

end VersionStamp
