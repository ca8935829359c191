import VersionStamp.Git.Signature
import VersionStamp.Text.Search

namespace VersionStamp.Git

/-!
# Annotated tags

The body of a tag names an object and its kind, then the tag itself and, in most tags, who made it.
A blank line and the message follow. A tag that breaks these rules cannot be read.
-/

def skipTagger? : Octets → Option Octets
  | [] => some []
  | '\n' :: rest => some ('\n' :: rest)
  | t => (momentLine? "tagger " t).map (·.2)

/-- Whether a message follows, at once or behind further header lines, or nothing at all. -/
def leadsToMessage : Octets → Bool
  | [] => true
  | '\n' :: _ => true
  | t => Text.occurs "\n\n" t

/-- The object that the body of a tag names, with its kind, or `none` if the body is malformed. -/
def tagTarget? (body : Octets) : Option (ObjectId × Kind) := do
  let (target, afterTarget) ← idLine? "object " body
  let (kindLine, afterKind) ← Octets.line? afterTarget
  let kindName ← Octets.after? "type " kindLine
  let kind ← Kind.all.find? fun kind => kind.name == kindName
  let (nameLine, afterName) ← Octets.line? afterKind
  let _ ← Octets.after? "tag " nameLine
  let rest ← skipTagger? afterName
  if leadsToMessage rest then some (target, kind) else none

end VersionStamp.Git
