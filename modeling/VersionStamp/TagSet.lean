import VersionStamp.Failure
import VersionStamp.Text.Blank
import VersionStamp.Text.Lines

namespace VersionStamp

/-!
# The tags of a commit

The names stand in the order in which they were found, with their repetitions. One name makes the
commit a release; several are never chosen between.
-/

structure TagSet where
  names : List Text
  deriving DecidableEq

namespace TagSet

/-- The tags of an output with one name on each line. Carriage returns at the end of a line belong
to the line end, and a line with nothing else names no tag. -/
def ofOutput (output : Text) : TagSet where
  names := ((output.split (· == '\n')).map (Text.dropEndWhile (· == '\r'))).filter (!·.isEmpty)

def size (tags : TagSet) : Nat :=
  tags.names.length

/-- The tag that names the release, or `none` for a commit without tags. -/
def release? : TagSet → Except Failure (Option Text)
  | ⟨[]⟩ => .ok none
  | ⟨[name]⟩ => .ok (some name)
  | ⟨names⟩ => .error (.ambiguousTags names)

end TagSet

end VersionStamp
