import VersionStamp.Git.Directory
import VersionStamp.Git.PackedReferences

namespace VersionStamp.Git

/-!
# The references of a repository

Each reference stands in a file of its own below the directory of the repository, or with others in
the file of packed references; a file of its own comes first. A reference that is nowhere is
missing, and one that cannot be read is not.
-/

/-- Where the references of a repository are kept. -/
structure References where
  files : Files
  directory : Directory
  packed : PackedReferences

namespace References

def packedIn (files : Files) (d : Directory) : PackedReferences :=
  match files.entry? (d.common ++ [("packed-refs" : Text)]) with
  | none => {}
  | some (.file content _) => .ofContent (Octets.ofBytes content)
  | some _ => { lines := .error .unmappedReferences, records? := some (.error .unmappedReferences) }

def ofDirectory (files : Files) (d : Directory) : References :=
  ⟨files, d, packedIn files d⟩

def path (r : References) (name : Octets) : Octets :=
  let holder := Octets.ofText (Location.path (r.directory.holderOf name))
  Path.join holder (name.dropWhile (· == Path.separator))

def loose? (r : References) (name : Octets) : Except Problem (Option Target) :=
  match r.files.octets? (r.path name) with
  | .ok (some content) => some <$> Reference.readTarget name content
  | .ok none => .ok none
  | .error (.system number) => .error (.invalidPath (Octets.shown (r.path name)) number)
  | .error (.reason reason) => .error (.other reason)

def lookup (r : References) (name : Octets) : Except Problem Target := do
  match ← r.loose? name with
  | some target => .ok target
  | none =>
      match ← r.packed.find? name with
      | some packed => .ok (.object packed.id packed.behind)
      | none => .error (.referenceMissing (Octets.shown name))

def depthLimit : Nat := 5

/-- Follow symbolic references from what a reference says. Their names are taken as they are. -/
def follow (r : References) (name : Octets) : Nat → Target → Except Problem Reference
  | _, .object id behind => .ok ⟨name, id, behind⟩
  | 0, .symbolic _ => .error .tooManySymbolicReferences
  | depth + 1, .symbolic next => do
      let target ← r.lookup next
      r.follow next depth target

def resolve (r : References) (name : Octets) : Except Problem Reference := do
  let name ← Reference.normalize name
  let target ← r.lookup name
  r.follow name depthLimit target

/-- The reference from which an object is reached that a reference of a name leads to: itself, or
the one that it names, whose name is normalized too. -/
def anchor (r : References) (name : Octets) : Except Problem Reference := do
  let name ← Reference.normalize name
  match ← r.lookup name with
  | .object id behind => .ok ⟨name, id, behind⟩
  | .symbolic next => r.resolve next

def headName : Octets := "HEAD"

/-- The reference that HEAD is, or that it names. One that is missing is a branch yet to be
born. -/
def head (r : References) : Except Problem Reference := do
  match ← r.lookup headName with
  | .object id behind => .ok ⟨headName, id, behind⟩
  | .symbolic name =>
      match r.resolve name with
      | .error (.referenceMissing missing) => .error (.unbornBranch missing)
      | result => result

/-! ## Tags -/

def tagPlace : Text := "refs/tags/"

def looseTagNames (r : References) : List Octets :=
  let found := r.files.below (r.directory.common ++ (["refs", "tags"] : Location))
  found.filterMap fun (names, content) =>
    let name := Octets.ofText (Text.join [Path.separator] names)
    if List.isSuffixOf (".lock" : Text) name then none
    else
      match Reference.readTarget name (Octets.ofBytes content) with
      | .ok _ => some name
      | .error _ => none

def tagNames (references : List Reference) : List Octets :=
  references.filterMap fun r => Octets.after? tagPlace r.name

/-- The tags of a repository in the order of their names. If there is one that resolves to nothing,
or the packed references cannot be read, there is no list at all. -/
def listedTagNames (r : References) : List Octets :=
  match r.packed.lines with
  | .error _ => []
  | .ok lines =>
      let names := ((r.looseTagNames ++ tagNames lines).mergeSort Reference.nameLe).eraseDups
      if names.all fun name => (r.resolve (tagPlace ++ name)).isOk then names else []

def tags (r : References) : List (Octets × Reference) :=
  r.listedTagNames.filterMap fun name =>
    match r.anchor (tagPlace ++ name) with
    | .ok reference => some (name, reference)
    | .error _ => none

end References

end VersionStamp.Git
