import VersionStamp.Deflate.Stream
import VersionStamp.Files
import VersionStamp.Git.Number
import VersionStamp.Git.Object

namespace VersionStamp.Git

/-!
# Files with one object

The file of an object is a stream of its header and its body. In an older form a short header stands
in front of a stream of the body alone.
-/

namespace ObjectFile

/-- The place of the file of an object, as seen from the directory of the objects: a directory has
the first two digits of the id for its name, and the file the others. -/
def place (id : ObjectId) : Location :=
  [id.digits.take 2, id.digits.drop 2]

def write (o : Object) : Bytes :=
  Deflate.Stream.write (o.header ++ o.body)

def headerLimit : Nat := 64

def fillLimit : Nat := 65536

/-- The object with a body that should have `size` bytes. A body that is too short is filled up with
zeros; then the object is another one than its id says. -/
def filled (kind : Kind) (body : Bytes) (size : Nat) : Object :=
  ⟨kind, body ++ List.replicate (min (size - body.length) fillLimit) 0⟩

def kindOf? (name : Octets) : Option Kind :=
  Kind.all.find? fun kind => kind.name.isPrefixOf name

/-- The object of a header and a body. No body is longer than its header says. -/
def ofBytes? (bytes : Bytes) : Option Object := do
  let head := Octets.ofBytes (bytes.take headerLimit)
  let name := head.takeWhile (· != ' ')
  let sizeText := (head.drop (name.length + 1)).takeWhile (· != '\x00')
  let kind ← kindOf? name
  let (size, _) ← readNumber? 64 (some 10) sizeText
  let headerLength := name.length + 1 + sizeText.length
  let body := bytes.drop (headerLength + 1)
  if headerLength < head.length && 0 ≤ size && body.length ≤ size.toNat then
    some (filled kind body size.toNat)
  else none

/-- What a short header says: the number of a kind and a size, with what stands behind it. The size
goes on as long as the highest bit of a byte is set. -/
def readShortHeader? : Bytes → Option (Nat × Nat × Bytes)
  | [] => none
  | first :: rest => do
      let (more, rest) ← readSize? (first.toNat ≥ 128) 9 rest
      some (first.toNat / 16 % 8, first.toNat % 16 + 16 * more, rest)
where
  /-- Seven bits of a size from each byte, the lowest first. -/
  readSize? : Bool → Nat → Bytes → Option (Nat × Bytes)
    | false, _, rest => some (0, rest)
    | true, _, [] | true, 0, _ => none
    | true, fuel + 1, b :: rest => do
        let (more, rest) ← readSize? (b.toNat ≥ 128) fuel rest
        some (b.toNat % 128 + 128 * more, rest)

def kindOfNumber? : Nat → Option Kind
  | 1 => some .commit
  | 2 => some .tree
  | 3 => some .blob
  | 4 => some .tag
  | _ => none

def ofShort? (content : Bytes) : Option Object := do
  let (number, size, stream) ← readShortHeader? content
  let kind ← kindOfNumber? number
  let (body, rest) ← Deflate.Stream.read? stream
  if rest.isEmpty then some (filled kind (body.take size) size) else none

def read? (content : Bytes) : Option Object :=
  match content with
  | first :: second :: _ =>
      if Deflate.Stream.isHeader first second then do
        let (bytes, rest) ← Deflate.Stream.read? content
        if rest.isEmpty then ofBytes? bytes else none
      else ofShort? content
  | _ => ofShort? content

def store (folder : Entry) (o : Object) : Entry :=
  let place := place o.id
  if (folder.at? place).isSome then folder else (Entry.file (write o) false).put place folder

example : (read? (write ⟨.blob, [1, 2]⟩)) = some ⟨.blob, [1, 2]⟩ := by decide +kernel

example : (read? ([0x32] ++ Deflate.Stream.write [1, 2])) = some ⟨.blob, [1, 2]⟩ := by
  decide +kernel

end ObjectFile

end VersionStamp.Git
