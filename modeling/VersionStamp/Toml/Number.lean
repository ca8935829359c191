import VersionStamp.Decimal.Binary64
import VersionStamp.Decimal.Signed

namespace VersionStamp.Toml

/-!
# Numbers

An integer has to fit 64 bits with a sign. Underscores may stand between digits, one at a time.
-/

def isBinaryDigit (c : Char) : Bool :=
  c == '0' || c == '1'

def isOctalDigit (c : Char) : Bool :=
  '0' ≤ c && c ≤ '7'

def isHexDigit (c : Char) : Bool :=
  c.isDigit || ('a' ≤ c && c ≤ 'f') || ('A' ≤ c && c ≤ 'F')

/-- The digits at the front of the text, each of which may have an underscore in front of it, and
what follows them. -/
def moreDigits (isDigit : Char → Bool) : Text → Text × Text
  | '_' :: c :: rest =>
      if isDigit c then
        let (digits, rest) := moreDigits isDigit rest
        (c :: digits, rest)
      else ([], '_' :: c :: rest)
  | c :: rest =>
      if isDigit c then
        let (digits, rest) := moreDigits isDigit rest
        (c :: digits, rest)
      else ([], c :: rest)
  | [] => ([], [])

def digits? (isDigit : Char → Bool) : Text → Option (Text × Text)
  | c :: rest =>
      if isDigit c then
        let (digits, rest) := moreDigits isDigit rest
        some (c :: digits, rest)
      else none
  | [] => none

/-- The digits of a decimal number, which begin with zero only if there is no other. -/
def decimal? : Text → Option (Text × Text)
  | '0' :: rest => some (['0'], rest)
  | t => digits? Char.isDigit t

def digitValue (c : Char) : Nat :=
  if c.isDigit then c.toNat - '0'.toNat else c.toLower.toNat - 'a'.toNat + 10

def numberOf (base : Nat) (digits : Text) : Nat :=
  digits.foldl (fun n c => n * base + digitValue c) 0

def takeSign : Text → Bool × Text
  | '-' :: rest => (true, rest)
  | '+' :: rest => (false, rest)
  | t => (false, t)

def signed (negative : Bool) (n : Nat) : Int :=
  if negative then -(n : Int) else n

def readInteger? (t : Text) : Option (Int × Text) := do
  let (n, rest) ← integer t
  if fitsSigned 64 n then some (n, rest) else none
where
  unsigned (base : Nat) (isDigit : Char → Bool) (t : Text) : Option (Int × Text) :=
    (digits? isDigit t).map fun (digits, rest) => ((numberOf base digits : Int), rest)
  integer : Text → Option (Int × Text)
    | '0' :: 'x' :: rest => unsigned 16 isHexDigit rest
    | '0' :: 'o' :: rest => unsigned 8 isOctalDigit rest
    | '0' :: 'b' :: rest => unsigned 2 isBinaryDigit rest
    | t =>
        let (negative, rest) := takeSign t
        (decimal? rest).map fun (digits, rest) => (signed negative (numberOf 10 digits), rest)

def readExponent? : Text → Option (Int × Text)
  | e :: t =>
      if e == 'e' || e == 'E' then
        let (negative, rest) := takeSign t
        (digits? Char.isDigit rest).map fun (digits, rest) =>
          (signed negative (numberOf 10 digits), rest)
      else none
  | [] => none

def readFraction? : Text → Option (Text × Text)
  | '.' :: rest => digits? Char.isDigit rest
  | _ => none

/-- The floating-point number at the front of the text, and what follows it. It has a fraction or
an exponent, and is not so large that it would be infinite; a negative one may be. -/
def readFloat? (t : Text) : Option (Binary64 × Text) :=
  match takeSign t with
  | (negative, 'i' :: 'n' :: 'f' :: rest) => some (.infinite negative, rest)
  | (_, 'n' :: 'a' :: 'n' :: rest) => some (.nan, rest)
  | (negative, t) => do
      let (front, rest) ← decimal? t
      let (fraction, exponent, rest) ←
        match readFraction? rest, readExponent? rest with
        | some (fraction, rest), _ =>
            match readExponent? rest with
            | some (exponent, rest) => some (fraction, exponent, rest)
            | none => some (fraction, 0, rest)
        | none, some (exponent, rest) => some ([], exponent, rest)
        | none, none => none
      let digits := numberOf 10 (front ++ fraction)
      match Binary64.ofDecimal negative digits (exponent - fraction.length) with
      | .infinite false => none
      | x => some (x, rest)

example : readInteger? "-9_223_372_036_854_775_808]" = some (-9223372036854775808, [']']) := by
  decide +kernel

example : readInteger? "0xfF_0" = some (0xFF0, []) := by decide

example : readInteger? "01" = some (0, ['1']) := by decide

example : (readFloat? "6.25e-1 ").map (·.1.render) = some "0.625".toList := by decide +kernel

end VersionStamp.Toml
