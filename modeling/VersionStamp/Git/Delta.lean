import VersionStamp.Text.Utf8

namespace VersionStamp.Git

/-!
# Deltas

A delta makes bytes from other bytes, its base. It begins with the sizes of both. Then each
instruction copies a part of the base or inserts bytes of its own.
-/

namespace Delta

/-- A size, in seven bits of each byte up to one whose highest bit is not set, and what stands
behind it. -/
def readSize? : Bytes → Option (Nat × Bytes)
  | [] => none
  | b :: rest =>
      if b < 128 then some (b.toNat, rest)
      else do
        let (more, rest) ← readSize? rest
        some (b.toNat - 128 + 128 * more, rest)

/-- The number in the bytes that are there, the lowest first: one byte for each `true`, and zero for
each `false`. -/
def readParts? : List Bool → Bytes → Option (Nat × Bytes)
  | [], rest => some (0, rest)
  | false :: parts, rest => do
      let (more, rest) ← readParts? parts rest
      some (256 * more, rest)
  | true :: _, [] => none
  | true :: parts, b :: rest => do
      let (more, rest) ← readParts? parts rest
      some (b.toNat + 256 * more, rest)

def defaultLength : Nat := 65536

/-- What the instructions make of a base. Copies stay within the base. -/
def run? (base : Bytes) : Nat → Bytes → Option Bytes
  | _, [] => some []
  | 0, _ => none
  | fuel + 1, instruction :: rest => do
      let (made, rest) ←
        if instruction ≥ 128 then do
          let present (bits : List Nat) := bits.map instruction.toNat.testBit
          let (offset, rest) ← readParts? (present [0, 1, 2, 3]) rest
          let (given, rest) ← readParts? (present [4, 5, 6]) rest
          let length := if given = 0 then defaultLength else given
          if offset + length ≤ base.length then some ((base.drop offset).take length, rest)
          else none
        else
          let length := instruction.toNat
          if length = 0 || rest.length < length then none
          else some (rest.take length, rest.drop length)
      let more ← run? base fuel rest
      some (made ++ more)

def applyTo? (base delta : Bytes) : Option Bytes := do
  let (baseSize, rest) ← readSize? delta
  let (size, instructions) ← readSize? rest
  let made ← run? base instructions.length instructions
  if baseSize = base.length && size = made.length then some made else none

example : applyTo? [1, 2, 3] [3, 5, 0x91, 1, 2, 3, 7, 8, 9] = some [2, 3, 7, 8, 9] := by
  decide +kernel

end Delta

end VersionStamp.Git
