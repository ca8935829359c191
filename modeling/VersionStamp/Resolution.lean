import VersionStamp.Files
import VersionStamp.Repository
import VersionStamp.Version.Declaration

namespace VersionStamp

/-!
# Finding out the version

A resolution asks a repository and comes to a result. It keeps the queries it has asked, in order,
so that what is asked is as visible as what comes out. The first failure ends it.
-/

/-- A result, and the queries asked on the way to it. -/
structure Resolution (α : Type) where
  asked : List Query
  result : Except Failure α

namespace Resolution

variable {α β : Type}

def done (result : Except Failure α) : Resolution α :=
  ⟨[], result⟩

def ask (q : Query) (answer : Except Failure α) : Resolution α :=
  ⟨[q], answer⟩

def andThen (x : Resolution α) (f : α → Resolution β) : Resolution β :=
  match x.result with
  | .ok a => ⟨x.asked ++ (f a).asked, (f a).result⟩
  | .error e => ⟨x.asked, .error e⟩

instance : Monad Resolution where
  pure a := done (.ok a)
  bind := andThen

@[simp] theorem bind_eq (x : Resolution α) (f : α → Resolution β) : x >>= f = andThen x f := rfl

end Resolution

namespace Repository

def readDeclaration (files : Files) (d : Declaration) (path : Text) :
    Except Failure BaseVersion :=
  match files.readText path with
  | .ok text => d.read text
  | .error cause => .error (.unreadable path cause)

/-- The base version that the checkout declares. Only the top level directory is asked for. -/
def baseVersion (r : Repository) (files : Files) (d : Declaration) : Resolution BaseVersion := do
  let top ← .ask .topLevel r.topLevel
  .done (readDeclaration files d (Path.join top d.file))

/-- The version of the commit at HEAD: its one tag, or else a snapshot of the base version. -/
def version (r : Repository) (files : Files) (d : Declaration) : Resolution Version := do
  let tags ← .ask .tagsAtHead r.tagsAtHead
  match ← .done tags.release? with
  | some tag => pure (.release tag)
  | none =>
      let base ← r.baseVersion files d
      let date ← .ask .commitDate r.commitDate
      let hash ← .ask .shortHash r.shortHash
      pure (.snapshot base date hash)

end Repository

structure PrintOptions where
  newline : Bool := false
  /-- Print the declared base version only. -/
  project : Bool := false
  deriving DecidableEq

def Repository.printedVersion (r : Repository) (files : Files) (d : Declaration)
    (options : PrintOptions) : Resolution Text := do
  let text ←
    if options.project then BaseVersion.text <$> r.baseVersion files d
    else Version.render <$> r.version files d
  pure (Version.printed options.newline text)

end VersionStamp
