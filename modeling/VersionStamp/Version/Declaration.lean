import VersionStamp.Version
import VersionStamp.Text.Blank
import VersionStamp.Text.Lines
import VersionStamp.Text.Search

namespace VersionStamp

/-!
# The declaration of the base version

A line declares a version if it holds both the marker and the suffix. The value is what stands in
front of the first suffix once every marker is removed, without the blanks around it. The first
such line of a text decides, also when its value is no version.
-/

/-- Where the version is declared and how the declaration is spelled. -/
structure Declaration where
  file : Text := "CMakeLists.txt"
  marker : Text := "VERSION \""
  suffix : Text := ".${BUILD_NUMBER}\""
  deriving DecidableEq

namespace Declaration

/-- The value that a line declares, or `none` if it declares nothing. -/
def value? (marker suffix line : Text) : Option Text :=
  if Text.occurs marker line && Text.occurs suffix line then
    let unmarked := Text.removeAll marker line
    some (Text.trim ((Text.before? suffix unmarked).getD unmarked))
  else none

def read (d : Declaration) (text : Text) : Except Failure BaseVersion :=
  match (text.split Text.isLineBreak).findSome? (value? d.marker d.suffix) with
  | some value => BaseVersion.ofText value
  | none => .error (.noDeclaration d.file)

example : value? "VERSION \"" ".${BUILD_NUMBER}\"" "\tVERSION \"1.4.0.${BUILD_NUMBER}\"" =
    some "1.4.0" := by decide

end Declaration

end VersionStamp
