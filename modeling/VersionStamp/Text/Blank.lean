import VersionStamp.Text

namespace VersionStamp.Text

/-!
# Blank characters and trimming

The blank characters are the 25 with the Unicode property `White_Space`. Trimming removes them at
both ends and nowhere else.
-/

/-- The ranges of the characters with the property `White_Space`. -/
def blankRanges : List (Nat × Nat) :=
  [(0x09, 0x0D), (0x20, 0x20), (0x85, 0x85), (0xA0, 0xA0), (0x1680, 0x1680), (0x2000, 0x200A),
    (0x2028, 0x2029), (0x202F, 0x202F), (0x205F, 0x205F), (0x3000, 0x3000)]

def isBlank (c : Char) : Bool :=
  blankRanges.any fun (low, high) => low ≤ c.toNat && c.toNat ≤ high

def dropEndWhile (p : Char → Bool) (t : Text) : Text :=
  (t.reverse.dropWhile p).reverse

def trim (t : Text) : Text :=
  dropEndWhile isBlank (t.dropWhile isBlank)

example : (blankRanges.map fun (low, high) => high + 1 - low).sum = 25 := rfl

example : trim "\t 1.4 0\u3000\n" = "1.4 0" := by decide

example : trim "\u200b1.4" = "\u200b1.4" := by decide

theorem dropEndWhile_nil (p : Char → Bool) : dropEndWhile p [] = [] := rfl

/-- What is left ends in no character that satisfies `p`. -/
theorem getLast?_dropEndWhile {p : Char → Bool} {t : Text} {c : Char}
    (h : (dropEndWhile p t).getLast? = some c) : p c = false := by
  have hhead : (t.reverse.dropWhile p).head? = some c := by
    simpa [dropEndWhile, List.getLast?_reverse] using h
  simpa [hhead] using List.head?_dropWhile_not p t.reverse

end VersionStamp.Text
