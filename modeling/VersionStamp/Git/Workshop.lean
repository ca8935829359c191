import VersionStamp.Git.Checkout

namespace VersionStamp.Git

/-!
# Making repositories

A repository is made step by step among some files: objects are stored, and references and settings
written. Commits and annotated tags are counted from zero in the order in which they are made, and
a step that needs one which is not there does nothing.
-/

def ObjectId.raw (id : ObjectId) : Bytes :=
  pairs id.digits
where
  pairs : Text → Bytes
    | a :: b :: rest =>
        UInt8.ofNat ((digitValue? a).getD 0 * 16 + (digitValue? b).getD 0) :: pairs rest
    | _ => []

/-- A commit to be made. Without `parents` it follows the commit at HEAD, if there is one. -/
structure Draft where
  tree : List (Text × Bytes)
  parents : Option (List Nat)
  author : Bytes
  committer : Bytes
  message : Bytes

inductive Aim where
  /-- The commit made last. -/
  | latest
  | commit (index : Nat)
  /-- The tree of a commit. -/
  | tree (index : Nat)
  | tag (index : Nat)
  /-- A new blob. -/
  | blob (content : Bytes)

inductive MakingStep where
  /-- Begin a repository, unless there is one, and go on with it. -/
  | init (path : Text) (bare : Bool)
  | commit (draft : Draft)
  | tag (name : Text) (aim : Aim)
  /-- Make an annotated tag, and a reference to it if `referenced`. -/
  | annotated (name : Text) (aim : Aim) (tagger : Bytes) (referenced : Bool)
  | symbolic (name target : Text)
  | delete (name : Text)
  | branch (name : Text) (commit : Option Nat)
  /-- Let HEAD name a reference. -/
  | head (name : Text)
  /-- Let HEAD name a commit. -/
  | detach (commit : Option Nat)
  | configure (name value : Text)
  /-- Store the blobs of some numbers in a row. -/
  | blobs (first count : Nat)

/-- The files, the repository that is being made, and the commits and tags made so far. -/
structure Workshop where
  files : Files
  directory : Location := []
  /-- The commits with their trees. -/
  commits : Array (ObjectId × ObjectId) := #[]
  tags : Array ObjectId := #[]

namespace Workshop

def place (w : Workshop) (names : List Text) : Location :=
  w.directory ++ names

def references (w : Workshop) : References :=
  .ofDirectory w.files ⟨w.directory, w.directory⟩

def storeAll (w : Workshop) (added : List Object) : Workshop :=
  let place := w.place ["objects"]
  let folder := (w.files.entry? place).getD (.directory [])
  { w with files := w.files.put place (added.foldl ObjectFile.store folder) }

def writeFile (w : Workshop) (names : List Text) (content : Bytes) : Workshop :=
  { w with files := w.files.write (w.place names) content }

def setReference (w : Workshop) (name content : Text) : Workshop :=
  w.writeFile (Path.names name) (Utf8.encode (content ++ "\n"))

def freshConfiguration (bare : Bool) : Text :=
  "[core]\n\tbare = " ++ (if bare then "true" else "false") ++
    "\n\trepositoryformatversion = 0\n\tfilemode = true\n" ++
    (if bare then "" else "\tlogallrefupdates = true\n")

def isMade (w : Workshop) : Bool :=
  match Directory.at? w.files w.directory with
  | .ok (some _) => true
  | _ => false

def freshDirectories : List Location :=
  [["objects", "info"], ["objects", "pack"], ["refs", "heads"], ["refs", "tags"], ["hooks"],
    ["info"]]

def init (w : Workshop) (path : Text) (bare : Bool) : Workshop :=
  let top := w.files.locate path
  let w := { w with directory := if bare then top else top ++ [Directory.dotGit] }
  if w.isMade then w
  else
    let files := freshDirectories.foldl
      (fun files names => files.makeDirectory (w.place names)) w.files
    let w := { w with files }
    (w.writeFile ["HEAD"] (Utf8.encode "ref: refs/heads/main\n")).writeFile ["config"]
      (Utf8.encode (freshConfiguration bare))

def headerLine (label : Text) (content : Bytes) : Bytes :=
  Utf8.encode label ++ 0x20 :: content ++ [0x0A]

def treeOf (entries : List (Text × Bytes)) : List Object × Object :=
  let sorted := entries.mergeSort fun a b => Reference.nameLe a.1 b.1
  let blobs := sorted.map fun (_, content) => (⟨.blob, content⟩ : Object)
  let lines := sorted.zip blobs |>.flatMap fun ((name, _), blob) =>
    Utf8.encode ("100644 " ++ name) ++ 0 :: blob.id.raw
  (blobs, ⟨.tree, lines⟩)

def commitId? (w : Workshop) : Option Nat → Option ObjectId
  | some index => w.commits[index]?.map (·.1)
  | none => w.commits.back?.map (·.1)

def headId? (w : Workshop) : Option ObjectId :=
  match w.references.head with
  | .ok reference => some reference.id
  | .error _ => none

def parentsOf (w : Workshop) : Option (List Nat) → List ObjectId
  | some indices => indices.filterMap fun index => w.commitId? (some index)
  | none => w.headId?.toList

/-- Let HEAD, or the reference that it names, name a commit. -/
def moveHead (w : Workshop) (id : ObjectId) : Workshop :=
  match w.references.lookup References.headName with
  | .ok (.symbolic name) => w.setReference (Octets.shown name) id.digits
  | _ => w.setReference "HEAD" id.digits

def commit (w : Workshop) (d : Draft) : Workshop × ObjectId :=
  let (blobs, tree) := treeOf d.tree
  let body := headerLine "tree" tree.id.bytes ++
    (w.parentsOf d.parents).flatMap (fun id => headerLine "parent" id.bytes) ++
    headerLine "author" d.author ++ headerLine "committer" d.committer ++ 0x0A :: d.message
  let made : Object := ⟨.commit, body⟩
  let w := w.storeAll (blobs ++ [tree, made])
  ({ w.moveHead made.id with commits := w.commits.push (made.id, tree.id) }, made.id)

def aimed? (w : Workshop) : Aim → Option (Workshop × Kind × ObjectId)
  | .latest => (w.commitId? none).map fun id => (w, .commit, id)
  | .commit index => (w.commitId? (some index)).map fun id => (w, .commit, id)
  | .tree index => w.commits[index]?.map fun (_, tree) => (w, .tree, tree)
  | .tag index => w.tags[index]?.map fun id => (w, .tag, id)
  | .blob content =>
      let blob : Object := ⟨.blob, content⟩
      some (w.storeAll [blob], .blob, blob.id)

def tag (w : Workshop) (name : Text) (aim : Aim) : Workshop :=
  match w.aimed? aim with
  | some (w, _, id) => w.setReference (References.tagPlace ++ name) id.digits
  | none => w

def annotated (w : Workshop) (name : Text) (aim : Aim) (tagger : Bytes) (referenced : Bool) :
    Workshop × Option ObjectId :=
  match w.aimed? aim with
  | some (w, kind, id) =>
      let body := headerLine "object" id.bytes ++ headerLine "type" (Utf8.encode kind.name) ++
        headerLine "tag" (Utf8.encode name) ++ headerLine "tagger" tagger ++
        Utf8.encode ("\n" ++ name ++ "\n")
      let made : Object := ⟨.tag, body⟩
      let w := w.storeAll [made]
      let w := { w with tags := w.tags.push made.id }
      (if referenced then w.setReference (References.tagPlace ++ name) made.id.digits else w,
        some made.id)
  | none => (w, none)

def packedLines (r : Reference) : Octets :=
  let behind : Octets :=
    match r.behind with
    | some id => '^' :: id.digits ++ "\n"
    | none => []
  r.id.digits ++ " " ++ r.name ++ "\n" ++ behind

def packedContent (references : List Reference) : Octets :=
  let title : Octets := "# pack-refs with: peeled fully-peeled sorted \n"
  title ++ references.flatMap packedLines

def delete (w : Workshop) (name : Text) : Workshop :=
  let w := { w with files := w.files.remove (w.place (Path.names name)) }
  match w.references.packed.all with
  | .ok references =>
      let others := references.filter fun r => r.name != Octets.ofText name
      if others.length < references.length then
        w.writeFile ["packed-refs"] (Octets.bytes (packedContent others))
      else w
  | .error _ => w

def configure (w : Workshop) (name value : Text) : Workshop :=
  let content := Octets.ofBytes ((w.files.content? (w.place ["config"])).getD [])
  w.writeFile ["config"]
    (Octets.bytes (Configuration.write content (Octets.ofText name) (Octets.ofText value)))

def numberedBlob (n : Nat) : Object :=
  ⟨.blob, Utf8.encode ("blob " ++ Text.ofNat n ++ "\n")⟩

/-- Do a step, and tell the id of the commit or annotated tag that it makes. -/
def step (w : Workshop) : MakingStep → Workshop × Option ObjectId
  | .init path bare => (w.init path bare, none)
  | .commit draft =>
      let (w, id) := w.commit draft
      (w, some id)
  | .tag name aim => (w.tag name aim, none)
  | .annotated name aim tagger referenced => w.annotated name aim tagger referenced
  | .symbolic name target => (w.setReference name ("ref: " ++ target), none)
  | .delete name => (w.delete name, none)
  | .branch name commit =>
      match w.commitId? commit with
      | some id => (w.setReference ("refs/heads/" ++ name) id.digits, none)
      | none => (w, none)
  | .head name => (w.setReference "HEAD" ("ref: " ++ name), none)
  | .detach commit =>
      match w.commitId? commit with
      | some id => (w.setReference "HEAD" id.digits, none)
      | none => (w, none)
  | .configure name value => (w.configure name value, none)
  | .blobs first count =>
      (w.storeAll ((List.range count).map fun i => numberedBlob (first + i)), none)

end Workshop

end VersionStamp.Git
