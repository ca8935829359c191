import VersionStamp.Files
import VersionStamp.Git.Number
import VersionStamp.Git.Object
import VersionStamp.Git.Problem
import VersionStamp.Text.Search

namespace VersionStamp.Git

/-!
# References

A reference names an object, or another reference. Its own name consists of parts between
separators, and has a normal form with single separators.
-/

/-- What a reference names: an object, with the object that is known to be behind it, or another
reference. -/
inductive Target where
  | object (id : ObjectId) (behind : Option ObjectId)
  | symbolic (name : Octets)
  deriving DecidableEq

structure Reference where
  name : Octets
  id : ObjectId
  behind : Option ObjectId
  deriving DecidableEq

namespace Reference

/-! ## Names -/

def reservedChars : Octets := "~^:?[\\*"

def isNameChar (c : Char) : Bool :=
  c.toNat > 0x20 && !reservedChars.contains c

def isPart (part : Octets) : Bool :=
  part.all isNameChar && part.head? != some '.' && !Text.occurs ".." part &&
    !Text.occurs "@\x7b" part && !List.isSuffixOf (".lock" : Text) part

/-- Whether a part is written as names of a single part are: capital letters, with underscores
between them. -/
def isSpecial (part : Octets) : Bool :=
  part.all (fun c => c.isUpper || c == '_') && part.head? != some '_' &&
    part.getLast? != some '_'

def normalName? (name : Octets) : Option Octets :=
  let parts := Path.names name
  if Path.isAbsolute name || !parts.all isPart || name.getLast? == some Path.separator ||
      name.getLast? == some '.' then none
  else
    match parts.filter (!·.isEmpty) with
    | [] => none
    | [part] => if isSpecial part then some part else none
    | first :: more =>
        if isSpecial first then none else some (Text.join [Path.separator] (first :: more))

def nameLimit : Nat := 1024

def normalize (name : Octets) : Except Problem Octets :=
  match normalName? name with
  | none => .error (.invalidReferenceName (Octets.shown name))
  | some normal =>
      if normal.length < nameLimit then .ok normal
      else .error (.longReferenceName (Octets.shown name))

/-- The order of texts by their characters, which is that of their UTF-8 bytes. -/
def nameLe (s t : Text) : Bool :=
  (compare s t).isLE

/-! ## Files with one reference -/

def readTarget (name content : Octets) : Except Problem Target :=
  if (Octets.after? "ref: " content).isSome then
    match Octets.after? "ref: " (Octets.trimEnd content) with
    | some (c :: rest) => .ok (.symbolic (Octets.untilNul (c :: rest)))
    | _ => .error .emptySymbolicReference
  else
    match ObjectId.read? content with
    | some (id, []) => .ok (.object id none)
    | some (id, c :: _) =>
        if c == '\x00' || Octets.isSpace c then .ok (.object id none)
        else .error (.corruptReference (Octets.shown name))
    | none => .error (.corruptReference (Octets.shown name))

example : normalName? "refs//heads/a\x7f" = some ("refs/heads/a\x7f" : Text) := by decide +kernel

example : ["HEAD", "main", "refs/", "A/b", "refs/x.lock"].map (fun n => normalName? n.toList) =
    [some ("HEAD" : Text), none, none, none, none] := by decide +kernel

end Reference

end VersionStamp.Git
