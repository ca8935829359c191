namespace VersionStamp

/-!
# Words with a sign

An integer fits a word of `width` bits if one bit can tell its sign and the others its size.
-/

def fitsSigned (width : Nat) (n : Int) : Bool :=
  let bound : Int := Nat.pow 2 (width - 1)
  n < bound && -bound ≤ n

example : fitsSigned 8 (-128) = true ∧ fitsSigned 8 128 = false := by decide

end VersionStamp
