import VersionStamp.Git.Database
import VersionStamp.Git.Reference
import VersionStamp.Git.Tag
import VersionStamp.Git.Tree

namespace VersionStamp.Git

/-!
# The commit behind a reference

A reference to a commit leads to that commit, and one to a tag to what the tag names, through any
number of tags. Objects whose header is malformed cannot be read.
-/

structure Commit where
  id : ObjectId
  moment : Moment
  deriving DecidableEq

inductive Finding where
  | commit (c : Commit)
  | tag (target : ObjectId) (kind : Kind)
  /-- A tree or a blob. -/
  | content
  | nothing (why : Absence)
  deriving DecidableEq

def Finding.ofObject (id : ObjectId) (o : Object) : Finding :=
  let body := Octets.ofBytes o.body
  match o.kind with
  | .commit =>
      match commitMoment? body with
      | some moment => .commit ⟨id, moment⟩
      | none => .nothing .unreadable
  | .tag =>
      match tagTarget? body with
      | some (target, kind) => .tag target kind
      | none => .nothing .unreadable
  | .tree => if isTreeBody body.length body then .content else .nothing .unreadable
  | .blob => .content

namespace Database

/-- What is found under an id. Where a kind is expected, objects of other kinds are as good as
missing. -/
def lookup (d : Database) (id : ObjectId) (expected : Option Kind := none) : Finding :=
  match d.read id with
  | .absent why => .nothing why
  | .found o =>
      if (expected.all fun kind => o.kind == kind) then .ofObject id o else .nothing .missing

/-- The commit to which an id named by a tag leads, through at most so many tags. -/
def commitBehind (d : Database) : Nat → ObjectId → Kind → Except DeadEnd Commit
  | fuel, id, kind =>
      match d.lookup id (some kind) with
      | .commit c => .ok c
      | .content => .error .tagOfOtherKind
      | .nothing why => .error (.tagOf why)
      | .tag target kind =>
          match fuel with
          | 0 => .error .tagOfOtherKind
          | fuel + 1 => d.commitBehind fuel target kind

/-- A number that no chain of tags exceeds: that of the names in the database. -/
def size (d : Database) : Nat :=
  (d.sources.getD []).foldl (fun n s => n + s.names.length) 0

end Database

/-- The object in which the search for the commit of a reference begins. The id of zeros does not
stand for an object behind another. -/
def Reference.start (r : Reference) : ObjectId :=
  (r.behind.filter (· != ObjectId.zero)).getD r.id

def Reference.commit (d : Database) (r : Reference) : Except Problem Commit :=
  match d.lookup r.start with
  | .commit c => .ok c
  | .nothing why => .error (.unreadableTarget (Octets.shown r.name) why)
  | .content => .error (.noCommitBehind r.start.digits .otherKind)
  | .tag target kind =>
      match d.commitBehind d.size target kind with
      | .ok c => .ok c
      | .error why => .error (.noCommitBehind r.start.digits why)

def Reference.leadsTo (d : Database) (id : ObjectId) (r : Reference) : Bool :=
  match r.commit d with
  | .ok c => c.id == id
  | .error _ => false

/-- The names of the listed tags that lead to a commit, in their order. Names that are not UTF-8
are left out. -/
def tagsOf (d : Database) (id : ObjectId) (listed : List (Octets × Reference)) : List Text :=
  let leading := listed.filter fun (_, r) => r.leadsTo d id
  (leading.filterMap fun (name, _) => Octets.text? name).mergeSort Reference.nameLe

end VersionStamp.Git
