import VersionStamp.Git.Delta
import VersionStamp.Git.ObjectFile
import VersionStamp.Git.Problem

namespace VersionStamp.Git

/-!
# Packs

A pack holds many objects, some of them as deltas, and has an index of the places where they begin.
The index is read first: one that is malformed is a problem where objects are counted, while a pack
that does not belong to its index holds nothing.
-/

/-- An object of a pack, and the number of bytes in front of it. -/
structure PackEntry where
  id : ObjectId
  offset : Nat
  deriving DecidableEq

namespace PackIndex

def wordAt (bytes : Array UInt8) (i : Nat) : Nat :=
  (List.range 4).foldl (fun n k => n * 256 + (bytes.getD (i + k) 0).toNat) 0

def idAt? (bytes : Array UInt8) (i : Nat) : Option ObjectId :=
  ObjectId.ofDigits? ((List.range 5).flatMap fun k =>
    Sha1.hexDigits (UInt32.ofNat (wordAt bytes (i + 4 * k))))

def signature : Nat := 0xFF744F63

/-- The numbers of objects whose ids begin with a byte up to each one. -/
def fanout (bytes : Array UInt8) (start : Nat) : List Nat :=
  (List.range 256).map fun k => wordAt bytes (start + 4 * k)

def isAscending : List Nat → Bool
  | a :: b :: more => a ≤ b && isAscending (b :: more)
  | _ => true

def trailerSize : Nat := 40

def readFirst (bytes : Array UInt8) : Except Problem (List PackEntry) := do
  let counts := fanout bytes 0
  if !isAscending counts then throw (.malformedPack "index is non-monotonic")
  let count := counts.getLastD 0
  if bytes.size ≠ 1024 + 24 * count + trailerSize then throw (.malformedPack "index is corrupted")
  return (List.range count).filterMap fun k =>
    (idAt? bytes (1028 + 24 * k)).map fun id => ⟨id, wordAt bytes (1024 + 24 * k)⟩

/-- The offset of an object in an index of the second version. One that needs more than 31 bits
stands in a table of its own. -/
def offsetAt (bytes : Array UInt8) (count k : Nat) : Nat :=
  let short := wordAt bytes (1032 + 24 * count + 4 * k)
  if short < 0x80000000 then short
  else
    let place := 1032 + 28 * count + 8 * (short - 0x80000000)
    wordAt bytes place * 0x100000000 + wordAt bytes (place + 4)

def readSecond (bytes : Array UInt8) : Except Problem (List PackEntry) := do
  if wordAt bytes 4 ≠ 2 then throw (.malformedPack "unsupported index version")
  let counts := fanout bytes 8
  if !isAscending counts then throw (.malformedPack "index is non-monotonic")
  let count := counts.getLastD 0
  let least := 1032 + 28 * count + trailerSize
  if bytes.size < least || bytes.size > least + 8 * (count - 1) then
    throw (.malformedPack "wrong index size")
  return (List.range count).filterMap fun k =>
    (idAt? bytes (1032 + 20 * k)).map fun id => ⟨id, offsetAt bytes count k⟩

def read (path : Octets) (content : Option Bytes) : Except Problem (List PackEntry) :=
  let bytes := (content.getD []).toArray
  if content.isNone || bytes.size < 1024 + trailerSize then
    .error (.malformedPackIndex (Octets.shown path))
  else if wordAt bytes 0 = signature then readSecond bytes
  else readFirst bytes

end PackIndex

/-- A pack: the entries of its index, and its content if that belongs to the index. -/
structure Pack where
  entries : Except Problem (List PackEntry)
  content : Option Bytes

namespace Pack

/-- Whether the content of a pack belongs to its index: both give the number of objects and the
checksum of the pack. -/
def belongs (index content : Bytes) (count : Nat) : Bool :=
  let bytes := content.toArray
  let version := PackIndex.wordAt bytes 4
  content.length ≥ 20 && content.take 4 == Utf8.encode "PACK" && (version == 2 || version == 3) &&
    PackIndex.wordAt bytes 8 == count &&
    content.drop (content.length - 20) ==
      (index.drop (index.length - PackIndex.trailerSize)).take 20

def ofFiles (path : Octets) (index : Option Bytes) (content : Bytes) : Pack :=
  let entries := PackIndex.read path index
  match entries with
  | .ok found =>
      ⟨entries, if belongs (index.getD []) content found.length then some content else none⟩
  | .error _ => ⟨entries, none⟩

def usable (p : Pack) : List PackEntry :=
  match p.content, p.entries with
  | some _, .ok entries => entries
  | _, _ => []

/-- The distance to a base in front, with seven bits in each byte, the highest first, and what
stands behind it. A byte that goes on adds one. -/
def readDistance? (distance : Nat) : Bytes → Option (Nat × Bytes)
  | [] => none
  | b :: rest =>
      if b < 128 then some (128 * distance + b.toNat, rest)
      else readDistance? (128 * distance + (b.toNat - 128) + 1) rest

/-- The offset of the base of a delta, and what stands behind its name. It is named by its distance,
or by its id. -/
def baseOffset? (p : Pack) (number offset : Nat) (bytes : Bytes) : Option (Nat × Bytes) :=
  match number with
  | 6 => do
      let (distance, rest) ← readDistance? 0 bytes
      if distance = 0 || offset ≤ distance then none else some (offset - distance, rest)
  | 7 => do
      let id ← PackIndex.idAt? bytes.toArray 0
      let base ← p.usable.find? fun e => e.id == id
      some (base.offset, bytes.drop 20)
  | _ => none

def inflate? (stream : Bytes) (size : Nat) : Option Bytes := do
  let (bytes, _) ← Deflate.Stream.read? stream
  if bytes.length = size then some bytes else none

def objectAt? (p : Pack) (content : Bytes) : Nat → Nat → Option Object
  | 0, _ => none
  | fuel + 1, offset => do
      let (number, size, rest) ← ObjectFile.readShortHeader? (content.drop offset)
      match ObjectFile.kindOfNumber? number with
      | some kind => do
          let body ← inflate? rest size
          some ⟨kind, body⟩
      | none => do
          let (base, rest) ← p.baseOffset? number offset rest
          let delta ← inflate? rest size
          let object ← objectAt? p content fuel base
          let body ← Delta.applyTo? object.body delta
          some ⟨object.kind, body⟩

/-- The object of an id, if there is an entry for it; no object if it cannot be read. -/
def read? (p : Pack) (id : ObjectId) : Option (Option Object) := do
  let content ← p.content
  let entry ← p.usable.find? fun e => e.id == id
  some (p.objectAt? content (p.usable.length + 1) entry.offset)

end Pack

end VersionStamp.Git
