import VersionStamp.Deflate.Bits

namespace VersionStamp.Deflate

/-!
# Codes

A code gives words of bits to the symbols from zero on. It is known by the lengths of the words
alone: shorter words come first, words of one length follow each other as numbers, and among them
the symbols are in order. A symbol of length zero has no word.
-/

/-- The numbers of words of the lengths from one on, and the symbols in the order of their words. -/
structure Code where
  counts : List Nat
  symbols : Array Nat

namespace Code

def maxLength : Nat := 15

/-- The words of the greatest length that are still free, if there are so many words of each length
and `free` beginnings, or `none` if there are too many words. -/
def vacancy? : List Nat → Nat → Option Nat
  | [], free => some free
  | count :: counts, free =>
      if 2 * free < count then none else vacancy? counts (2 * free - count)

/-- The code whose words have the given lengths. All words have to be in use, unless none is longer
than one bit. -/
def ofLengths? (lengths : List Nat) : Option Code := do
  let wordLengths := (List.range maxLength).map (· + 1)
  let counts := wordLengths.map fun n => (lengths.filter (· == n)).length
  let symbols := wordLengths.flatMap fun n =>
    lengths.zipIdx.filterMap fun (length, symbol) => if length == n then some symbol else none
  let free ← vacancy? counts 1
  if free == 0 || (counts.drop 1).all (· == 0) then some ⟨counts, symbols.toArray⟩ else none

/-- Read a word, of which `value` is the number among the words of its length, with `index` symbols
that have shorter words. -/
def walk? (symbols : Array Nat) : List Nat → Nat → Nat → Bits → Option (Nat × Bits)
  | [], _, _, _ => none
  | count :: counts, value, index, s => do
      let (b, s) ← s.bit?
      let value := value + b.toNat
      if value < count then
        let symbol ← symbols[index + value]?
        some (symbol, s)
      else walk? symbols counts (2 * (value - count)) (index + count) s

def symbol? (code : Code) (s : Bits) : Option (Nat × Bits) :=
  walk? code.symbols code.counts 0 0 s

example : (do
    let code ← ofLengths? [2, 1, 3, 3]
    let (a, s) ← code.symbol? ⟨[false, true, false, true, true, true], []⟩
    let (b, s) ← code.symbol? s
    let (c, _) ← code.symbol? s
    some [a, b, c]) = some [1, 0, 3] := by decide

end Code

end VersionStamp.Deflate
