import VersionStamp.Git.Number
import VersionStamp.Git.Problem

namespace VersionStamp.Git

/-!
# Configurations

A configuration is a sequence of settings. A setting is known by its full name, and the last of
several with one name counts. What its value means depends on who asks: it may be a truth value or
an integer.
-/

/-- A setting. A name that stands alone has no value. -/
structure Setting where
  name : Octets
  value : Option Octets
  deriving DecidableEq

abbrev Configuration := List Setting

namespace Configuration

/-- What the last setting of a name says: no value, or its value. -/
def value? (c : Configuration) (name : Octets) : Option (Option Octets) :=
  (c.reverse.find? fun setting => setting.name == name).map Setting.value

def shownValue : Option Octets → Text
  | some value => Octets.shown value
  | none => "(null)"

/-- The number of times that a suffix stands for the factor 1024. -/
def suffixPower? : Octets → Option Nat
  | [] => some 0
  | [suffix] =>
      if suffix.toLower == 'k' then some 1
      else if suffix.toLower == 'm' then some 2
      else if suffix.toLower == 'g' then some 3
      else none
  | _ => none

def scaled (number : Int) (power : Nat) : Int :=
  Int.bmod (number * Nat.pow 1024 power) (Nat.pow 2 64)

/-- The integer of 32 bits that a value is, with `k`, `m` or `g` for powers of 1024. -/
def integer? (value : Octets) : Option Int := do
  let (number, rest) ← readNumber? 64 none value
  let power ← suffixPower? rest
  if fitsSigned 32 (scaled number power) then some (scaled number power) else none

/-- The truth value that a value is. A name alone is true, a number unless it is zero. -/
def boolean? : Option Octets → Option Bool
  | none => some true
  | some value =>
      let word := value.map Char.toLower
      if ["true", "yes", "on"].any fun yes => word == yes.toList then some true
      else if ["false", "no", "off", ""].any fun no => word == no.toList then some false
      else (integer? value).map fun n => n != 0

def boolean (c : Configuration) (name : Octets) : Except Problem Bool :=
  match c.value? name with
  | none => .ok false
  | some value =>
      match boolean? value with
      | some b => .ok b
      | none => .error (.notABoolean (shownValue value))

def integer (c : Configuration) (name : Octets) : Except Problem Int :=
  match c.value? name with
  | none => .ok 0
  | some value =>
      match value.bind integer? with
      | some n => .ok n
      | none => .error (.notAnInteger (shownValue value))

example : ["0x1fk", "-1g", "17592186044417m", "2g", "1kk"].map (fun v => integer? v.toList) =
    [some 31744, some (-1073741824), some 1048576, none, none] := by decide +kernel

end Configuration

end VersionStamp.Git
