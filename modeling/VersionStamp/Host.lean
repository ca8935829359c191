import VersionStamp.Files

namespace VersionStamp

/-!
# Starting programs

A program named with a separator is the file at that path; any other is looked for in the
directories of the search path. The directory to start in is entered first, and a relative program
path is followed from there.
-/

inductive Ending where
  | exited (status : Nat)
  | killed (signal : Nat)
  deriving DecidableEq

structure ProgramRun where
  stdout : Bytes := []
  stderr : Bytes := []
  ending : Ending := .exited 0
  deriving DecidableEq

structure Call where
  arguments : List Text
  directory : Location
  deriving DecidableEq

/-- The files, the search path, and what the executable files do with their arguments. -/
structure Host where
  files : Files := {}
  searchPath : List Location := []
  behaviour : List Text → ProgramRun := fun _ => {}

namespace Host

def executable (files : Files) (place : Location) : Except IoFailure Unit :=
  match files.entry? place with
  | some (.file _ true) => .ok ()
  | some _ => .error .permissionDenied
  | none => .error .noSuchFile

/-- Whether a program of this name is in one of the directories. An entry that cannot be executed
is passed over, and reported if no other is found. -/
def search (files : Files) (program : Text) : List Location → Except IoFailure Unit
  | [] => .error .noSuchFile
  | directory :: more => do
      let found := do
        let place ← files.follow directory program
        executable files place
      match found with
      | .ok _ => .ok ()
      | .error .permissionDenied =>
          match search files program more with
          | .ok _ => .ok ()
          | .error _ => .error .permissionDenied
      | .error _ => search files program more

def find (files : Files) (searchPath : List Location) (program : Text) : Except IoFailure Unit :=
  if program.contains Path.separator then do
    let place ← files.resolve program
    executable files place
  else if program.isEmpty then .error .noSuchFile
  else if Text.byteLength program > Files.nameLimit then .error .nameTooLong
  else search files program searchPath

def startDirectory (files : Files) : Option Text → Except IoFailure Location
  | none => .ok files.workDir
  | some path => do
      let place ← files.resolve path
      if files.isDirectory place then .ok place else .error .notADirectory

/-- The directory in which the program is started, or why it cannot be started. -/
def launch (h : Host) (program : Text) (directory : Option Text) : Except IoFailure Location :=
  if program.contains '\x00' || (directory.getD []).contains '\x00' then
    .error (.reason "nul byte found in provided data")
  else do
    let place ← startDirectory h.files directory
    find { h.files with workDir := place } h.searchPath program
    .ok place

end Host

end VersionStamp
