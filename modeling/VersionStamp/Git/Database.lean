import VersionStamp.Git.Directory
import VersionStamp.Git.Pack

namespace VersionStamp.Git

/-!
# Databases

The objects of a repository are in a directory and in those that it names as alternates. Each
directory has packs and files with one object, and is a source for each pack and one for the files.
An object is taken from the first source that has something for its id, and its id has to be the one
that was asked for.
-/

inductive Retrieval where
  | found (o : Object)
  | absent (why : Absence)
  deriving DecidableEq

inductive Match where
  | nothing
  | one (id : ObjectId)
  | several
  /-- There is one name, which is not an id. -/
  | malformed
  deriving DecidableEq

namespace Match

/-- What two sources have together. What is not an id and what is not one id ends the search. -/
def and : Match → Match → Match
  | nothing, m => m
  | one a, nothing => one a
  | one a, one b => if a = b then one a else several
  | one _, m => m
  | several, _ => several
  | malformed, _ => malformed

end Match

inductive Source where
  | pack (p : Pack)
  /-- The files with one object in a directory, by its path, or nothing if that is no directory. -/
  | files (path : Octets) (folder : Entry)

namespace Source

def isHex (length : Nat) (t : Text) : Bool :=
  t.length == length && t.all fun c => (ObjectId.hexDigit? c).isSome

def shelves (folder : Entry) : List (Text × List (Text × Entry)) :=
  folder.children.filterMap fun (name, e) =>
    if e.isDirectory && isHex 2 name then some (name, e.children) else none

/-- The names among which objects are looked for by their first digits. -/
def names : Source → List Text
  | pack p => p.usable.map fun e => e.id.digits
  | files _ folder =>
      (shelves folder).flatMap fun (shelf, entries) =>
        entries.filterMap fun (name, e) =>
          if !e.isDirectory && Text.byteLength name == ObjectId.length - 2 then
            some (shelf ++ name)
          else none

/-- The number of objects. Names count that are ids, whatever they stand for. -/
def count : Source → Except Problem Nat
  | pack p => p.entries.map List.length
  | files path folder =>
      if folder.isDirectory then
        let isId (name : Text) := isHex (ObjectId.length - 2) name
        .ok ((shelves folder).foldl
          (fun n (_, entries) => n + (entries.filter fun (name, _) => isId name).length) 0)
      else .error (.unlistedDirectory (Octets.shown (Path.closed path)) 20)

def read (s : Source) (id : ObjectId) : Retrieval :=
  let ofFound : Option Object → Retrieval
    | some o => .found o
    | none => .absent .unreadable
  match s with
  | pack p =>
      match p.read? id with
      | some found => ofFound found
      | none => .absent .missing
  | files _ folder =>
      match folder.at? (ObjectFile.place id) with
      | some (.file content _) => ofFound (ObjectFile.read? content)
      | _ => .absent .missing

def find (s : Source) (digits : Text) : Match :=
  match s.names.filter fun name => digits.isPrefixOf name with
  | [] => .nothing
  | [name] =>
      match ObjectId.ofDigits? name with
      | some id => .one id
      | none => .malformed
  | _ => .several

end Source

/-- The sources in the order in which they are asked, or nothing if the directories of objects
cannot all be known. -/
structure Database where
  sources : Option (List Source) := some []

namespace Database

def readFirst (id : ObjectId) : List Source → Retrieval
  | [] => .absent .missing
  | s :: sources =>
      match s.read id with
      | .absent .missing => readFirst id sources
      | retrieval => retrieval

/-- The tree without entries. Every database has it. -/
def emptyTree : Object := ⟨.tree, []⟩

def read (d : Database) (id : ObjectId) : Retrieval :=
  match d.sources with
  | none => .absent .unreadable
  | some sources =>
      if id = emptyTree.id then .found emptyTree
      else
        match readFirst id sources with
        | .found o => if o.id = id then .found o else .absent .altered
        | absent => absent

def find (d : Database) (digits : Text) : Match :=
  (d.sources.getD []).foldl (fun m s => m.and (s.find digits)) .nothing

def count (d : Database) : Except Problem Nat :=
  (d.sources.getD []).foldlM (fun n s => (n + ·) <$> s.count) 0

/-! ## Directories of objects -/

structure Folder where
  path : Octets
  place : Location

def alternatesIn (content : Octets) : List Octets :=
  (Text.split Text.isLineBreak (Octets.untilNul content)).filter fun line =>
    !line.isEmpty && line.head? != some '#'

def alternates? (files : Files) (place : Location) : Option (List Octets) :=
  match files.entry? (place ++ (["info", "alternates"] : Location)) with
  | none => some []
  | some (.file content _) => some (alternatesIn (Octets.ofBytes content))
  | some (.directory _) => none

def nestingLimit : Nat := 5

/-- Folders with the one at a path and its alternates, the last one first. One that is not there or
is known already is left out, and so are alternates nested in more than `depth` others. -/
def addFolder? (files : Files) : Nat → List Folder → Octets → Option (List Folder)
  | depth, folders, path =>
      match files.resolveOctets path with
      | .error _ => some folders
      | .ok place =>
          if folders.any fun folder => folder.place == place then some folders
          else
            let folders := ⟨path, place⟩ :: folders
            match depth with
            | 0 => some folders
            | depth + 1 => do
                let paths ← alternates? files place
                paths.foldlM (addFolder? files depth) folders

/-- The directory of the objects of a repository and its alternates, the last one first. A path
that begins with a dot is seen from the directory. -/
def folders? (files : Files) (d : Directory) : Option (List Folder) := do
  let place := d.common ++ (["objects"] : Location)
  let path := Octets.ofText (Location.path place)
  let paths ← alternates? files place
  paths.foldlM
    (fun folders alternate =>
      let alternate :=
        if alternate.head? == some '.' then Path.join path alternate else alternate
      addFolder? files nestingLimit folders alternate)
    [⟨path, place⟩]

def packsOf (files : Files) (folder : Folder) : List Source :=
  let place := folder.place ++ (["pack"] : Location)
  let path := Path.join folder.path "pack"
  (files.children place).filterMap fun (name, index) => do
    if !List.isSuffixOf (".idx" : Text) name then none
    else
      let title := name.take (name.length - 4)
      let content ← files.content? (place ++ [title ++ ".pack"])
      let indexContent : Option Bytes :=
        match index with
        | .file content _ => some content
        | .directory _ => none
      some (.pack (.ofFiles (Path.join path (Octets.ofText name)) indexContent content))

/-- The database of a repository. Packs are asked before files. -/
def ofDirectory (files : Files) (d : Directory) : Database where
  sources := (folders? files d).map fun folders =>
    folders.flatMap (packsOf files) ++
      folders.filterMap fun folder => (files.entry? folder.place).map (.files folder.path)

end Database

end VersionStamp.Git
