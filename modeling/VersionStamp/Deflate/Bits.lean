import VersionStamp.Text.Utf8

namespace VersionStamp.Deflate

/-!
# Bits

Deflated data is a sequence of bits. Of each byte the lowest bit comes first, and so it is with the
numbers in the data; only code words begin with their highest bit.
-/

/-- The bits that are left of the byte that has been begun, and the bytes behind it. -/
structure Bits where
  held : List Bool := []
  rest : Bytes

namespace Bits

def bit? : Bits → Option (Bool × Bits)
  | ⟨b :: held, rest⟩ => some (b, ⟨held, rest⟩)
  | ⟨[], byte :: rest⟩ =>
      let others := (List.range 7).map fun i => byte.toNat.testBit (i + 1)
      some (byte.toNat.testBit 0, ⟨others, rest⟩)
  | ⟨[], []⟩ => none

def number? : Nat → Bits → Option (Nat × Bits)
  | 0, s => some (0, s)
  | n + 1, s => do
      let (b, s) ← s.bit?
      let (higher, s) ← s.number? n
      some (b.toNat + 2 * higher, s)

def size (s : Bits) : Nat :=
  s.held.length + 8 * s.rest.length

example : (Bits.number? 12 ⟨[], [0xA5, 0xF3]⟩).map (·.1) = some 0x3A5 := by decide

end Bits

end VersionStamp.Deflate
