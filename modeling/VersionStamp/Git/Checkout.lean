import VersionStamp.Git.Abbreviation
import VersionStamp.Git.Commit
import VersionStamp.Git.CommitDate
import VersionStamp.Git.Configuration.Inclusion
import VersionStamp.Git.Grafts
import VersionStamp.Git.References
import VersionStamp.Repository

namespace VersionStamp.Git

/-!
# Opened repositories

When a repository is opened its configuration has to be in order, whatever is asked of it later: the
version of its format has to be one that is understood, the grafts have to be well formed, and the
work tree, if it names one, has to be there. Then the system has to know what stands at the paths of
the repository.
-/

structure Checkout where
  files : Files
  directory : Directory
  configuration : Configuration
  /-- The path of the work tree, with a separator at its end. -/
  workTree : Option Octets

namespace Checkout

def highestVersion : Int := 1

def knownExtensions : List Octets :=
  ["extensions.noop", "extensions.objectformat"]

def isUnknownExtension (s : Setting) : Bool :=
  (Octets.after? "extensions." s.name).isSome && !knownExtensions.contains s.name

def objectFormat : Octets := "sha1"

/-- Check the version of the format. From version 1 on there may be extensions, which all have to
be understood. -/
def checkFormat (configuration : Configuration) : Except Problem Unit := do
  let version ← configuration.integer "core.repositoryformatversion"
  if version > highestVersion then .error (.unsupportedVersion version)
  else if version < 1 then .ok ()
  else
    match List.find? isUnknownExtension configuration with
    | some s => .error (.unsupportedExtension (Octets.shown s.name))
    | none =>
        match configuration.value? "extensions.objectformat" with
        | none => .ok ()
        | some value =>
            if value = some objectFormat then .ok ()
            else .error (.unknownObjectFormat (Configuration.shownValue value))

def directoryPath (place : Location) : Octets :=
  Path.closed (Octets.ofText (Location.path place))

def namedWorkTree (files : Files) (d : Directory) (path : Octets) : Except Problem Octets :=
  if path.isEmpty then .error .emptyWorkTree
  else directoryPath <$> Directory.placeOf files
    (Path.join (Octets.ofText (Location.path d.own)) path)

def sharedLink? (files : Files) (d : Directory) : Except Problem (Option Octets) :=
  if d.own == d.common then .ok none
  else if files.isDirectory (d.own ++ [Directory.linkFile]) then .error .directoryForLink
  else .ok (Directory.linkPath? files d.own)

/-- The path of the work tree: the directory around what has been found, unless the repository is
one of several that share their objects, or the configuration names another work tree or says that
there is none. -/
def findWorkTree (files : Files) (found : Discovery) (configuration : Configuration) :
    Except Problem (Option Octets) := do
  let d := found.directory
  let bare ← configuration.boolean "core.bare"
  match ← sharedLink? files d, configuration.value? "core.worktree" with
  | some link, _ => .ok (some (Path.closed (Path.parent link)))
  | none, some (some path) => if bare then .ok none else some <$> namedWorkTree files d path
  | none, _ => .ok (if bare then none else some (directoryPath found.around))

/-- Check that the system knows whether there is anything at a path. -/
def checkPath (files : Files) (path : Octets) : Except Problem Unit :=
  match files.resolveOctets path with
  | .ok _ => .ok ()
  | .error (.system number) =>
      if IoFailure.system number = .noSuchFile then .ok ()
      else .error (.uncheckedPath (Octets.shown path) number)
  | .error (.reason reason) => .error (.other reason)

def ofDiscovery (files : Files) (found : Discovery) : Except Problem Checkout := do
  let configuration ← Configuration.ofDirectory files found.directory
  checkFormat configuration
  Grafts.check files found.directory
  let workTree ← findWorkTree files found configuration
  (workTree.toList ++ found.link.toList ++ [directoryPath found.directory.own]).forM
    (checkPath files)
  .ok ⟨files, found.directory, configuration, workTree⟩

/-- Open the repository of a path. With `search` it may be in a directory above, and is then opened
at its own directory. -/
def ofPath (files : Files) (path : Text) (search : Bool := true) : Except Problem Checkout := do
  let found ← Directory.find files search path
  if search then
    let found ← Directory.find files false (Path.closed (Location.path found.directory.own))
    ofDiscovery files found
  else ofDiscovery files found

def database (c : Checkout) : Database :=
  .ofDirectory c.files c.directory

def references (c : Checkout) : References :=
  .ofDirectory c.files c.directory

def headCommit (c : Checkout) : Except Problem Commit := do
  let head ← c.references.head
  head.commit c.database

def tagsAtHead (c : Checkout) : Except Problem TagSet := do
  let head ← c.headCommit
  .ok ⟨tagsOf c.database head.id c.references.tags⟩

def shortHash (c : Checkout) : Except Problem Text := do
  let head ← c.headCommit
  Abbreviation.shorten c.configuration c.database head.id

def repository (c : Checkout) : Repository where
  topLevel :=
    match c.workTree with
    | some path => .ok (Octets.shown path)
    | none => .error (.git .noWorkTree)
  tagsAtHead := c.tagsAtHead.mapError Failure.git
  commitDate := do
    let head ← c.headCommit.mapError Failure.git
    head.moment.date
  shortHash := c.shortHash.mapError Failure.git

end Checkout

/-- The repository of a path, which gives the reason for every answer if it cannot be opened. -/
def repositoryOf (opened : Except Problem Checkout) : Repository :=
  match opened with
  | .ok checkout => checkout.repository
  | .error problem => .unopened (.git problem)

end VersionStamp.Git
