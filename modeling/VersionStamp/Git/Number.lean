import VersionStamp.Decimal.Signed
import VersionStamp.Text.Octets

namespace VersionStamp.Git

/-!
# Numbers in headers and settings

A number is read from the front of some octets: blanks, a sign, and digits up to the first other
character. It has to fit the signed words of the given width.
-/

def digitValue? (c : Char) : Option Nat :=
  if c.isDigit then some (c.toNat - '0'.toNat)
  else if c.isLower then some (c.toNat - 'a'.toNat + 10)
  else if c.isUpper then some (c.toNat - 'A'.toNat + 10)
  else none

def isDigitOf (base : Nat) (c : Char) : Bool :=
  match digitValue? c with
  | some value => value < base
  | none => false

def digitsValue (base : Nat) (digits : Octets) : Nat :=
  digits.foldl (fun n c => n * base + (digitValue? c).getD 0) 0

def takeSign : Octets → Bool × Octets
  | '-' :: rest => (true, rest)
  | '+' :: rest => (false, rest)
  | rest => (false, rest)

/-- The base that the digits themselves announce, and the digits: `0x` for 16 and `0` for 8. -/
def announcedBase : Octets → Nat × Octets
  | '0' :: x :: d :: rest =>
      if x == 'x' || x == 'X' then (16, d :: rest) else (8, '0' :: x :: d :: rest)
  | '0' :: rest => (8, '0' :: rest)
  | rest => (10, rest)

/-- The number at the front and what stands behind it, or `none` if there is no digit or the number
does not fit `width` bits. Without a `base` the digits announce it. -/
def readNumber? (width : Nat) (base : Option Nat) (t : Octets) : Option (Int × Octets) :=
  let (negative, unsigned) := takeSign (t.dropWhile Octets.isSpace)
  let (base, unsigned) :=
    match base with
    | some base => (base, unsigned)
    | none => announcedBase unsigned
  let digits := unsigned.takeWhile (isDigitOf base)
  let magnitude : Int := digitsValue base digits
  let number := if negative then -magnitude else magnitude
  if digits.isEmpty || !fitsSigned width number then none
  else some (number, unsigned.drop digits.length)

example : readNumber? 32 none " 0x1fk" = some (31, ['k']) := by decide

example : readNumber? 32 (some 10) "2147483648" = none := by decide

end VersionStamp.Git
