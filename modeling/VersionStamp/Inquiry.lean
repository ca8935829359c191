import VersionStamp.Resolution

namespace VersionStamp

/-!
# Inquiries

An inquiry is one thing that a checkout can be asked to tell: the answer to a single query, a
version, or the text to print.
-/

inductive Inquiry where
  | topLevel
  | tags
  | date
  | hash
  | baseVersion
  | version
  | print (options : PrintOptions)
  deriving DecidableEq

inductive Answer where
  | done
  | text (t : Text)
  | tags (tags : TagSet)
  | baseVersion (b : BaseVersion)
  | version (v : Version)
  | queries (qs : List Query)
  | failed (why : Failure)
  deriving DecidableEq

def Answer.ofResult {α : Type} (answer : α → Answer) : Except Failure α → Answer
  | .ok a => answer a
  | .error why => .failed why

/-- The queries that an inquiry asks of a repository, and the answer that comes out. -/
def Inquiry.answer (r : Repository) (files : Files) (d : Declaration) :
    Inquiry → List Query × Answer
  | .topLevel => ([.topLevel], .ofResult .text r.topLevel)
  | .tags => ([.tagsAtHead], .ofResult .tags r.tagsAtHead)
  | .date => ([.commitDate], .ofResult .text r.commitDate)
  | .hash => ([.shortHash], .ofResult .text r.shortHash)
  | .baseVersion =>
      let x := r.baseVersion files d
      (x.asked, .ofResult .baseVersion x.result)
  | .version =>
      let x := r.version files d
      (x.asked, .ofResult .version x.result)
  | .print options =>
      let x := r.printedVersion files d options
      (x.asked, .ofResult .text x.result)

end VersionStamp
