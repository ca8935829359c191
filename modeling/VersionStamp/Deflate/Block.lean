import VersionStamp.Deflate.Code

namespace VersionStamp.Deflate

/-!
# Blocks

Deflated data consists of blocks, of which the last one says so. A block holds bytes as they are, or
symbols for bytes and for copies of what stands before them. The codes of the symbols are fixed, or
stand at the beginning of the block.
-/

/-- The numbers from `base` on that a symbol and some extra bits stand for. -/
structure Span where
  base : Nat
  extraBits : Nat

def Span.read? (span : Span) (s : Bits) : Option (Nat × Bits) := do
  let (more, s) ← s.number? span.extraBits
  some (span.base + more, s)

def lengthSpans : Array Span :=
  #[⟨3, 0⟩, ⟨4, 0⟩, ⟨5, 0⟩, ⟨6, 0⟩, ⟨7, 0⟩, ⟨8, 0⟩, ⟨9, 0⟩, ⟨10, 0⟩, ⟨11, 1⟩, ⟨13, 1⟩, ⟨15, 1⟩,
    ⟨17, 1⟩, ⟨19, 2⟩, ⟨23, 2⟩, ⟨27, 2⟩, ⟨31, 2⟩, ⟨35, 3⟩, ⟨43, 3⟩, ⟨51, 3⟩, ⟨59, 3⟩, ⟨67, 4⟩,
    ⟨83, 4⟩, ⟨99, 4⟩, ⟨115, 4⟩, ⟨131, 5⟩, ⟨163, 5⟩, ⟨195, 5⟩, ⟨227, 5⟩, ⟨258, 0⟩]

def distanceSpans : Array Span :=
  #[⟨1, 0⟩, ⟨2, 0⟩, ⟨3, 0⟩, ⟨4, 0⟩, ⟨5, 1⟩, ⟨7, 1⟩, ⟨9, 2⟩, ⟨13, 2⟩, ⟨17, 3⟩, ⟨25, 3⟩, ⟨33, 4⟩,
    ⟨49, 4⟩, ⟨65, 5⟩, ⟨97, 5⟩, ⟨129, 6⟩, ⟨193, 6⟩, ⟨257, 7⟩, ⟨385, 7⟩, ⟨513, 8⟩, ⟨769, 8⟩,
    ⟨1025, 9⟩, ⟨1537, 9⟩, ⟨2049, 10⟩, ⟨3073, 10⟩, ⟨4097, 11⟩, ⟨6145, 11⟩, ⟨8193, 12⟩,
    ⟨12289, 12⟩, ⟨16385, 13⟩, ⟨24577, 13⟩]

def endSymbol : Nat := 256

/-- The bytes with so many more, each the one that stands `distance` before it. -/
def copied (distance : Nat) : Nat → Array UInt8 → Array UInt8
  | 0, out => out
  | n + 1, out => copied distance n (out.push (out.getD (out.size - distance) 0))

structure Codes where
  lengths : Code
  distances : Code

def Codes.read? (codes : Codes) : Nat → Array UInt8 → Bits → Option (Array UInt8 × Bits)
  | 0, _, _ => none
  | fuel + 1, out, s => do
      let (symbol, s) ← codes.lengths.symbol? s
      if symbol < endSymbol then codes.read? fuel (out.push (UInt8.ofNat symbol)) s
      else if symbol = endSymbol then some (out, s)
      else do
        let lengthSpan ← lengthSpans[symbol - (endSymbol + 1)]?
        let (length, s) ← lengthSpan.read? s
        let (symbol, s) ← codes.distances.symbol? s
        let distanceSpan ← distanceSpans[symbol]?
        let (distance, s) ← distanceSpan.read? s
        if distance ≤ out.size then codes.read? fuel (copied distance length out) s else none

def Codes.fixed? : Option Codes := do
  let lengths ← Code.ofLengths? (List.replicate 144 8 ++ List.replicate 112 9 ++
    List.replicate 24 7 ++ List.replicate 8 8)
  let distances ← Code.ofLengths? (List.replicate 32 5)
  some ⟨lengths, distances⟩

/-- Read the lengths of `total` words, with those `found` so far in reverse. Some symbols repeat the
length before or stand for zeros. -/
def readLengths? (code : Code) (total : Nat) : Nat → List Nat → Bits → Option (List Nat × Bits)
  | fuel, found, s =>
      if found.length ≥ total then
        if found.length = total then some (found.reverse, s) else none
      else
        match fuel with
        | 0 => none
        | fuel + 1 => do
            let (symbol, s) ← code.symbol? s
            if symbol < 16 then readLengths? code total fuel (symbol :: found) s
            else if symbol = 16 then do
              let last ← found.head?
              let (more, s) ← s.number? 2
              readLengths? code total fuel (List.replicate (3 + more) last ++ found) s
            else do
              let (zeros, s) ← Span.read? (if symbol = 17 then ⟨3, 3⟩ else ⟨11, 7⟩) s
              readLengths? code total fuel (List.replicate zeros 0 ++ found) s

/-- The symbols for lengths in the order in which the lengths of their own words are given. -/
def lengthOrder : List Nat :=
  [16, 17, 18, 0, 8, 7, 9, 6, 10, 5, 11, 4, 12, 3, 13, 2, 14, 1, 15]

def readTriples? : Nat → Bits → Option (List Nat × Bits)
  | 0, s => some ([], s)
  | n + 1, s => do
      let (first, s) ← s.number? 3
      let (more, s) ← readTriples? n s
      some (first :: more, s)

def Codes.ofBlock? (s : Bits) : Option (Codes × Bits) := do
  let (literals, s) ← Span.read? ⟨257, 5⟩ s
  let (distances, s) ← Span.read? ⟨1, 5⟩ s
  let (given, s) ← Span.read? ⟨4, 4⟩ s
  if literals > 286 || distances > 30 then none
  else do
    let (triples, s) ← readTriples? given s
    let assigned := lengthOrder.zip triples
    let code ← Code.ofLengths? ((List.range 19).map fun symbol =>
      (assigned.lookup symbol).getD 0)
    let total := literals + distances
    let (lengths, s) ← readLengths? code total total [] s
    if lengths[endSymbol]? = some 0 then none
    else do
      let literalCode ← Code.ofLengths? (lengths.take literals)
      let distanceCode ← Code.ofLengths? (lengths.drop literals)
      some (⟨literalCode, distanceCode⟩, s)

/-- Read a block of bytes that stand as they are, from the next byte on: their number, its
complement, and the bytes. -/
def readStored? (out : Array UInt8) (s : Bits) : Option (Array UInt8 × Bits) := do
  let (length, s) ← Bits.number? 16 ⟨[], s.rest⟩
  let (complement, s) ← s.number? 16
  if length + complement = 65535 && length ≤ s.rest.length then
    some (out ++ (s.rest.take length).toArray, ⟨[], s.rest.drop length⟩)
  else none

def readBlocks? : Nat → Array UInt8 → Bits → Option (Array UInt8 × Bits)
  | 0, _, _ => none
  | fuel + 1, out, s => do
      let (last, s) ← s.bit?
      let (kind, s) ← s.number? 2
      let (out, s) ←
        match kind with
        | 0 => readStored? out s
        | 1 => do
            let codes ← Codes.fixed?
            codes.read? (s.size + 1) out s
        | 2 => do
            let (codes, s) ← Codes.ofBlock? s
            codes.read? (s.size + 1) out s
        | _ => none
      if last then some (out, s) else readBlocks? fuel out s

def inflate? (deflated : Bytes) : Option (Bytes × Bytes) :=
  (readBlocks? (8 * deflated.length) #[] ⟨[], deflated⟩).map fun (out, s) => (out.toList, s.rest)

example : inflate? [0x4B, 0x4C, 0x4A, 0x4E, 0x84, 0x20, 0x00, 9] =
    some ("abcabcabca".toList.map fun c => UInt8.ofNat c.toNat, [9]) := by decide +kernel

end VersionStamp.Deflate
