import VersionStamp.Files.Path
import VersionStamp.Files.SystemError
import VersionStamp.Text.Octets

namespace VersionStamp

/-!
# Files

The files stand in a tree of directories. A path is a text that is followed name by name from the
root or from the working directory, and nothing in it is shortened before that, so `a/../b` needs a
directory `a`.
-/

/-- The place of an entry: the names that lead to it from the root. -/
abbrev Location := List Text

def Location.path (place : Location) : Text :=
  if place.isEmpty then "/" else place.flatMap (Path.separator :: ·)

inductive Entry where
  | file (content : Bytes) (executable : Bool)
  | directory (entries : List (Text × Entry))

namespace Entry

def children : Entry → List (Text × Entry)
  | .file .. => []
  | .directory entries => entries

def isDirectory : Entry → Bool
  | .file .. => false
  | .directory _ => true

def at? (e : Entry) : Location → Option Entry
  | [] => some e
  | name :: place => do
      let child ← e.children.lookup name
      child.at? place

/-- The entries of a directory with one of a name, in place of the one that has it. -/
def setNamed (name : Text) (e : Entry) : List (Text × Entry) → List (Text × Entry)
  | [] => [(name, e)]
  | (n, old) :: more => if n == name then (n, e) :: more else (n, old) :: setNamed name e more

/-- An entry with another put at a place, over the one that is there. Directories on the way are
made where they are missing, and a file on the way stays as it is. -/
def put (new : Entry) : Location → Entry → Entry
  | [], _ => new
  | name :: place, .directory entries =>
      let child := (entries.lookup name).getD (.directory [])
      .directory (setNamed name (new.put place child) entries)
  | _ :: _, .file content executable => .file content executable

def remove : Location → Entry → Entry
  | _, .file content executable => .file content executable
  | [], .directory _ => .directory []
  | [name], .directory entries => .directory (entries.filter (·.1 != name))
  | name :: place, .directory entries =>
      .directory (entries.map fun (n, e) => (n, if n == name then e.remove place else e))

mutual

def files : Entry → List (Location × Bytes)
  | .file content _ => [([], content)]
  | .directory entries => filesIn entries

def filesIn : List (Text × Entry) → List (Location × Bytes)
  | [] => []
  | (name, e) :: more =>
      (e.files.map fun (place, content) => (name :: place, content)) ++ filesIn more

end

end Entry

structure Files where
  entries : List (Text × Entry) := []
  workDir : Location := []

namespace Files

/-- What stands at a place. At the root there is always a directory. -/
def entry? (files : Files) (place : Location) : Option Entry :=
  (Entry.directory files.entries).at? place

def isDirectory (files : Files) (place : Location) : Bool :=
  match files.entry? place with
  | some (.directory _) => true
  | _ => false

def isFile (files : Files) (place : Location) : Bool :=
  match files.entry? place with
  | some (.file ..) => true
  | _ => false

def content? (files : Files) (place : Location) : Option Bytes :=
  match files.entry? place with
  | some (.file content _) => some content
  | _ => none

def children (files : Files) (place : Location) : List (Text × Entry) :=
  ((files.entry? place).map Entry.children).getD []

def nameLimit : Nat := 255

/-- A path has fewer bytes than this. -/
def pathLimit : Nat := 4096

def follow (files : Files) (here : Location) (name : Text) : Except IoFailure Location :=
  if !files.isDirectory here then .error .notADirectory
  else if name == [] || name == "." then .ok here
  else if name == ".." then .ok here.dropLast
  else if Text.byteLength name > nameLimit then .error .nameTooLong
  else if (files.entry? (here ++ [name])).isSome then .ok (here ++ [name])
  else .error .noSuchFile

def start (files : Files) (path : Text) : Location :=
  if Path.isAbsolute path then [] else files.workDir

/-- The place to which a path leads name by name, however long it is. -/
def walk (files : Files) (path : Text) : Except IoFailure Location :=
  if path.isEmpty then .error .noSuchFile
  else (Path.names path).foldlM files.follow (files.start path)

def resolve (files : Files) (path : Text) : Except IoFailure Location :=
  if Text.byteLength path ≥ pathLimit then .error .nameTooLong else files.walk path

def read (files : Files) (path : Text) : Except IoFailure Bytes :=
  if path.contains '\x00' then .error (.reason "file name contained an unexpected NUL byte")
  else do
    let place ← files.resolve path
    match files.entry? place with
    | some (.file content _) => .ok content
    | some _ => .error .isADirectory
    | none => .error .noSuchFile

def readText (files : Files) (path : Text) : Except IoFailure Text := do
  let bytes ← files.read path
  match Utf8.decode? bytes with
  | some text => .ok text
  | none => .error (.reason "stream did not contain valid UTF-8")

/-- The place to which a name of octets leads. A name that is not UTF-8 leads nowhere. -/
def followOctets (files : Files) (here : Location) (name : Octets) : Except IoFailure Location :=
  match Octets.text? name with
  | some text => files.follow here text
  | none =>
      if !files.isDirectory here then .error .notADirectory
      else if name.length > nameLimit then .error .nameTooLong
      else .error .noSuchFile

def walkOctets (files : Files) (path : Octets) : Except IoFailure Location :=
  if path.isEmpty then .error .noSuchFile
  else (Path.names path).foldlM files.followOctets (files.start path)

def resolveOctets (files : Files) (path : Octets) : Except IoFailure Location :=
  if path.length ≥ pathLimit then .error .nameTooLong else files.walkOctets path

/-- The content of the file that a path of octets names, or `none` if it names no file. Only a path
that is too long is an error. -/
def octets? (files : Files) (path : Octets) : Except IoFailure (Option Octets) :=
  match files.resolveOctets path with
  | .ok place => .ok ((files.content? place).map Octets.ofBytes)
  | .error cause => if cause = .nameTooLong then .error cause else .ok none

/-- The place that names spell as seen from another place, whether or not there is anything. -/
def placeFrom (here : Location) (names : List Text) : Location :=
  names.foldl
    (fun here name =>
      if name == [] || name == "." then here
      else if name == ".." then here.dropLast
      else here ++ [name])
    here

def locate (files : Files) (path : Text) : Location :=
  placeFrom (files.start path) (Path.names path)

def put (files : Files) (place : Location) (e : Entry) : Files :=
  { files with entries := (e.put place (.directory files.entries)).children }

def makeDirectory (files : Files) (place : Location) : Files :=
  if (files.entry? place).isSome then files else files.put place (.directory [])

def write (files : Files) (place : Location) (content : Bytes) (executable : Bool := false) :
    Files :=
  files.put place (.file content executable)

def makeWay (files : Files) (path : Text) : Files :=
  let names := Path.names path
  (List.range names.length).foldl
    (fun files n => files.makeDirectory (placeFrom (files.start path) (names.take n))) files

def makePath (files : Files) (path : Text) : Files :=
  (files.makeWay path).makeDirectory (files.locate path)

def writePath (files : Files) (path : Text) (content : Bytes) : Files :=
  (files.makeWay path).write (files.locate path) content

def remove (files : Files) (place : Location) : Files :=
  { files with entries := ((Entry.directory files.entries).remove place).children }

def below (files : Files) (place : Location) : List (Location × Bytes) :=
  Entry.filesIn (files.children place)

end Files

end VersionStamp
