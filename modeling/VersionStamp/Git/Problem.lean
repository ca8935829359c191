import VersionStamp.Files.SystemError

namespace VersionStamp.Git

/-!
# What can go wrong when a repository is read

Each problem has a text, the class of operation that met it, and often a code. The class and the
code follow the text, each with its number.
-/

inductive Disorder where
  | unclosedHeading
  | strayCharacter (column : Nat)
  | noQuotes
  | unclosedQuotes
  | textBehindQuotes (column : Nat)
  | badKey
  | badEscape (rest : Text)
  deriving DecidableEq

inductive Absence where
  | missing
  /-- What is there cannot be read. -/
  | unreadable
  /-- What is there is another object than the id says. -/
  | altered
  deriving DecidableEq

inductive DeadEnd where
  /-- It is itself no commit and no tag. -/
  | otherKind
  /-- It is a tag at whose end there is another kind of object. -/
  | tagOfOtherKind
  /-- It is a tag at whose end there is no object. -/
  | tagOf (why : Absence)
  deriving DecidableEq

inductive Problem where
  /-- A path holds a NUL. -/
  | nulInPath
  | unresolvedPath (path : Text) (number : Int)
  /-- A path is refused by the system. -/
  | invalidPath (path : Text) (number : Int)
  /-- The system does not tell what stands at a path. -/
  | uncheckedPath (path : Text) (number : Int)
  | noRepository (path : Text)
  /-- A file that should name a repository does not. -/
  | malformedLink (path : Text)
  | unsupportedVersion (version : Int)
  | unsupportedExtension (name : Text)
  | unknownObjectFormat (name : Text)
  /-- There is a directory in place of the file that names a work tree. -/
  | directoryForLink
  | malformedGraft (line : Nat)
  | malformedGraftParent (line : Nat)
  | noWorkTree
  | emptyWorkTree
  | referenceMissing (name : Text)
  /-- HEAD names a branch without a commit. -/
  | unbornBranch (name : Text)
  | corruptReference (name : Text)
  | emptySymbolicReference
  | tooManySymbolicReferences
  | invalidReferenceName (name : Text)
  | longReferenceName (name : Text)
  | corruptPackedReferences
  /-- There is a directory in place of the file of packed references. -/
  | unmappedReferences
  /-- There is no object for the id that a reference names. -/
  | unreadableTarget (reference : Text) (why : Absence)
  /-- The object of the given id leads to no commit. -/
  | noCommitBehind (id : Text) (why : DeadEnd)
  | configuration (disorder : Disorder) (file : Text) (line : Nat)
  | inclusionTooDeep
  | notABoolean (value : Text)
  | notAnInteger (value : Text)
  | unmappedSetting (value : Text)
  | undecodableSetting
  | abbreviationOutOfRange (length : Int)
  /-- No abbreviation of an id stands for it alone. -/
  | ambiguousId
  | unmatchedAbbreviation (digits : Text)
  /-- A file among objects has a name that is not an id. -/
  | malformedId
  | malformedPackIndex (path : Text)
  | malformedPack (fault : Text)
  | unlistedDirectory (path : Text) (number : Int)
  | timeOutOfRange
  | offsetOutOfRange
  | other (text : Text)
  deriving DecidableEq

namespace Disorder

def text : Disorder → Text
  | .unclosedHeading => "missing ']' in section header"
  | .strayCharacter _ => "unexpected character in header"
  | .noQuotes => "missing quotation marks in section header"
  | .unclosedQuotes => "missing closing quotation mark in section header"
  | .textBehindQuotes _ => "unexpected text after closing quotes"
  | .badKey => "invalid configuration key"
  | .badEscape rest => "invalid escape at " ++ rest

def column? : Disorder → Option Nat
  | .strayCharacter column | .textBehindQuotes column => some column
  | _ => none

/-- The text with the place in the file. An escape is reported without it. -/
def placedText (d : Disorder) (file : Text) (line : Nat) : Text :=
  match d with
  | .badEscape _ => d.text
  | _ =>
      let column :=
        match d.column? with
        | some column => ", column " ++ Text.ofNat column
        | none => []
      "failed to parse config file: " ++ d.text ++ " (in " ++ file ++ ":" ++ Text.ofNat line ++
        column ++ ")"

end Disorder

def Absence.code : Absence → Option Text
  | .missing => some "NotFound (-3)"
  | .unreadable => none
  | .altered => some "HashsumMismatch (-33)"

namespace Problem

def noDeviceNumber : Int := 19

def text : Problem → Text
  | .nulInPath => "data contained a nul byte that could not be represented as a string"
  | .unresolvedPath path number =>
      "failed to resolve path '" ++ path ++ "': " ++ IoFailure.systemText number
  | .invalidPath path number =>
      "invalid path for filesystem '" ++ path ++ "': " ++ IoFailure.systemText number
  | .uncheckedPath path number =>
      "could not stat '" ++ path ++ "': " ++ IoFailure.systemText number
  | .noRepository path => "could not find repository at '" ++ path ++ "'"
  | .malformedLink path => "the `.git` file at '" ++ path ++ "' is malformed"
  | .unsupportedVersion version =>
      "unsupported repository version " ++ Text.ofInt version ++
        "; only versions up to 1 are supported"
  | .unsupportedExtension name => "unsupported extension name " ++ name
  | .unknownObjectFormat name => "unknown object format '" ++ name ++ "'"
  | .directoryForLink => "requested file is a directory"
  | .malformedGraft line => "invalid graft OID at line " ++ Text.ofNat line
  | .malformedGraftParent line => "invalid parent OID at line " ++ Text.ofNat line
  | .emptyWorkTree => "working directory cannot be set to empty path"
  | .noWorkTree => "repository has no working directory"
  | .referenceMissing name | .unbornBranch name => "reference '" ++ name ++ "' not found"
  | .corruptReference name => "corrupted loose reference file: " ++ name
  | .emptySymbolicReference => "corrupted loose reference file"
  | .tooManySymbolicReferences => "cannot resolve reference (>5 levels deep)"
  | .invalidReferenceName name => "the given reference name '" ++ name ++ "' is not valid"
  | .longReferenceName name =>
      "the provided buffer is too short to hold the normalization of '" ++ name ++ "'"
  | .corruptPackedReferences => "corrupted packed references file"
  | .unmappedReferences =>
      "failed to mmap. Could not write data: " ++ IoFailure.systemText noDeviceNumber
  | .unreadableTarget reference _ =>
      "the reference '" ++ reference ++ "' cannot be peeled - Cannot retrieve reference target"
  | .noCommitBehind id _ =>
      "the git_object of id '" ++ id ++
        "' can not be successfully peeled into a commit (git_object_t=1)."
  | .configuration disorder file line => disorder.placedText file line
  | .inclusionTooDeep => "maximum config include depth reached"
  | .undecodableSetting => "configuration value is not valid utf8"
  | .notABoolean value => "failed to parse '" ++ value ++ "' as a boolean value"
  | .notAnInteger value => "failed to parse '" ++ value ++ "' as a 32-bit integer"
  | .unmappedSetting value => "failed to map '" ++ value ++ "'"
  | .abbreviationOutOfRange length =>
      "invalid oid abbreviation setting: '" ++ Text.ofInt length ++ "'"
  | .ambiguousId => "an unknown git error occurred"
  | .unmatchedAbbreviation digits =>
      "object not found - no match for id prefix (" ++ digits ++ ")"
  | .malformedId => "unable to parse OID - contains invalid characters"
  | .malformedPackIndex path => "invalid pack index '" ++ path ++ "'"
  | .malformedPack fault => "invalid pack file - " ++ fault
  | .unlistedDirectory path number =>
      "failed to open directory '" ++ path ++ "': " ++ IoFailure.systemText number
  | .timeOutOfRange => "commit time out of range"
  | .offsetOutOfRange => "commit time offset out of range"
  | .other text => text

def area : Problem → Option Text
  | .nulInPath | .malformedGraft _ | .malformedGraftParent _ | .noWorkTree | .undecodableSetting
  | .ambiguousId | .timeOutOfRange | .offsetOutOfRange | .other _ => none
  | .unresolvedPath .. | .invalidPath .. | .uncheckedPath .. | .unmappedReferences
  | .unlistedDirectory .. => some "Os (2)"
  | .unreadableTarget .. | .directoryForLink | .malformedId => some "Invalid (3)"
  | .referenceMissing _ | .unbornBranch _ | .corruptReference _ | .emptySymbolicReference
  | .tooManySymbolicReferences | .invalidReferenceName _ | .longReferenceName _
  | .corruptPackedReferences => some "Reference (4)"
  | .noRepository _ | .malformedLink _ | .unsupportedVersion _ | .unsupportedExtension _
  | .unknownObjectFormat _ => some "Repository (6)"
  | .configuration .. | .inclusionTooDeep | .notABoolean _ | .notAnInteger _ | .unmappedSetting _
  | .abbreviationOutOfRange _ => some "Config (7)"
  | .unmatchedAbbreviation _ | .malformedPackIndex _ | .malformedPack _ => some "Odb (9)"
  | .noCommitBehind .. => some "Object (11)"
  | .emptyWorkTree => some "Net (12)"

def code : Problem → Option Text
  | .unresolvedPath _ number => if number = 2 ∨ number = 20 then some "NotFound (-3)" else none
  | .noRepository _ | .referenceMissing _ | .unmatchedAbbreviation _ => some "NotFound (-3)"
  | .unreadableTarget _ why | .noCommitBehind _ (.tagOf why) => why.code
  | .ambiguousId => some "Ambiguous (-5)"
  | .longReferenceName _ => some "BufSize (-6)"
  | .unbornBranch _ => some "UnbornBranch (-9)"
  | .invalidPath .. | .invalidReferenceName _ | .noCommitBehind _ .otherKind =>
      some "InvalidSpec (-12)"
  | .noCommitBehind _ .tagOfOtherKind => some "Peel (-19)"
  | .unknownObjectFormat _ => some "Invalid (-21)"
  | _ => none

def message (p : Problem) : Text :=
  p.text ++ (match p.area with | some area => "; class=" ++ area | none => []) ++
    (match p.code with | some code => "; code=" ++ code | none => [])

example : message (.noRepository ".") =
    "could not find repository at '.'; class=Repository (6); code=NotFound (-3)" := by decide

end Problem

end VersionStamp.Git
