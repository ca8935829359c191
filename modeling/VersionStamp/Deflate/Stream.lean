import VersionStamp.Deflate.Block

namespace VersionStamp.Deflate

/-!
# Streams

A stream is deflated data between a header of two bytes and a checksum. A stream is written without
compression.
-/

namespace Stream

def checksumModulus : Nat := 65521

/-- The checksum of some bytes: one more than their sum, and above it the sum of all these sums on
the way. -/
def checksum (bytes : Bytes) : Nat :=
  let (low, high) := bytes.foldl
    (fun (low, high) b =>
      let low := (low + b.toNat) % checksumModulus
      (low, (high + low) % checksumModulus))
    (1, 0)
  high * 65536 + low

def word (n : Nat) : Bytes :=
  [24, 16, 8, 0].map fun shift => UInt8.ofNat (n >>> shift)

/-- Whether two bytes are the header of a stream: they name deflation with a window of at most 32
KiB, and are a multiple of 31. -/
def isHeader (first second : UInt8) : Bool :=
  first &&& 0x8F == 0x08 && (first.toNat * 256 + second.toNat) % 31 == 0

/-- The bytes of a stream, and what stands behind it. A stream that needs a dictionary cannot be
read. -/
def read? : Bytes → Option (Bytes × Bytes)
  | first :: second :: deflated => do
      if isHeader first second && second &&& 0x20 == 0 then
        let (bytes, rest) ← inflate? deflated
        if rest.take 4 == word (checksum bytes) then some (bytes, rest.drop 4) else none
      else none
  | _ => none

def blockLimit : Nat := 65535

def pair (n : Nat) : Bytes :=
  [UInt8.ofNat n, UInt8.ofNat (n / 256)]

def storedBlocks : Nat → Bytes → Bytes
  | 0, bytes => 1 :: pair bytes.length ++ pair (blockLimit - bytes.length) ++ bytes
  | more + 1, bytes =>
      0 :: pair blockLimit ++ pair 0 ++ bytes.take blockLimit ++
        storedBlocks more (bytes.drop blockLimit)

def write (bytes : Bytes) : Bytes :=
  [0x78, 0x01] ++ storedBlocks ((bytes.length - 1) / blockLimit) bytes ++ word (checksum bytes)

example : checksum (Utf8.encode "abc") = 0x024D0127 := by decide +kernel

example : read? (write (Utf8.encode "abc") ++ [7]) = some (Utf8.encode "abc", [7]) := by
  decide +kernel

end Stream

end VersionStamp.Deflate
