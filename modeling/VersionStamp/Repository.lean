import VersionStamp.Failure
import VersionStamp.TagSet

namespace VersionStamp

/-!
# What a repository is asked

A repository answers four questions about its checkout and the commit at HEAD. Each answer is a
value or a failure, and asking does not change it.
-/

inductive Query where
  | topLevel
  | tagsAtHead
  | commitDate
  | shortHash
  deriving DecidableEq

def Query.name : Query → Text
  | .topLevel => "Toplevel"
  | .tagsAtHead => "TagsAtHead"
  | .commitDate => "CommitDate"
  | .shortHash => "ShortHash"

/-- The answers of a repository: the path of its top level directory, the tags of the commit at
HEAD, and the date and the abbreviated hash of that commit. -/
structure Repository where
  topLevel : Except Failure Text
  tagsAtHead : Except Failure TagSet
  commitDate : Except Failure Text
  shortHash : Except Failure Text

/-- A repository that cannot be opened gives the reason for every answer. -/
def Repository.unopened (why : Failure) : Repository :=
  ⟨.error why, .error why, .error why, .error why⟩

end VersionStamp
