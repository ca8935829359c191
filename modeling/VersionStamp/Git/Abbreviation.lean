import VersionStamp.Git.Configuration
import VersionStamp.Git.Database

namespace VersionStamp.Git

/-!
# Abbreviated ids

An abbreviation is a beginning of the digits of an id. Without a setting it has enough digits for
the number of objects, and enough that no other object has the same. The setting `core.abbrev` is a
least length, or `auto` for a length by the number of objects alone.
-/

namespace Abbreviation

def bitLength (n : Nat) : Nat :=
  if n = 0 then 0 else n.log2 + 1

/-- The length of abbreviations among so many objects: half the bits of their number, rounded up,
and never less than 7. -/
def automaticLength (count : Nat) : Nat :=
  max 7 ((bitLength count + 1) / 2)

example : [0, 16383, 16384, 65535, 65536].map automaticLength = [7, 7, 8, 8, 9] := by decide

def leastLength : Nat := 4

def matchOf (d : Database) (id : ObjectId) (length : Nat) : Match :=
  if length < leastLength then .several else d.find (id.digits.take length)

/-- The least length, from `length` on, at which the digits of an id stand for one object alone.
There are so many lengths to try. -/
def uniqueLength (d : Database) (id : ObjectId) : Nat → Nat → Except Problem Nat
  | 0, _ => .error .ambiguousId
  | tries + 1, length =>
      match matchOf d id length with
      | .several => uniqueLength d id tries (length + 1)
      | .one _ => .ok length
      | .malformed => .error .malformedId
      | .nothing => .error (.unmatchedAbbreviation (id.digits.take length))

def lengthFrom (d : Database) (id : ObjectId) (length : Nat) : Except Problem Nat :=
  uniqueLength d id (ObjectId.length - length) length

def startLength : Nat := 7

def settingName : Text := "core.abbrev"

def isAutomatic (value : Text) : Bool :=
  value.map Char.toLower == "auto"

/-- The abbreviation of an id with at least so many digits. For the whole length the digits are
zeros. -/
def ofLength (d : Database) (id : ObjectId) (length : Int) : Except Problem Text :=
  if length < 0 ∨ length > 40 then .error (.abbreviationOutOfRange length)
  else if length = 40 then .ok ObjectId.zero.digits
  else (id.digits.take ·) <$> lengthFrom d id length.toNat

/-- The unique digits of an id: the search for them starts at the length that the setting says, and
without a setting at seven. -/
def uniqueDigits (configuration : Configuration) (d : Database) (id : ObjectId) :
    Except Problem Text :=
  match configuration.value? settingName with
  | none => (id.digits.take ·) <$> lengthFrom d id startLength
  | some value =>
      match value.bind Configuration.integer? with
      | some length => ofLength d id length
      | none => .error (.unmappedSetting (Configuration.shownValue value))

/-- How many the unique digits are. A search that fails is passed over, with the count zero. So it
is for `auto`, which is no number for the search. -/
def uniqueCount (configuration : Configuration) (d : Database) (id : ObjectId) : Nat :=
  match uniqueDigits configuration d id with
  | .ok digits => digits.length
  | .error _ => 0

def isExplicit (configuration : Configuration) : Except Problem Bool :=
  match configuration.value? settingName with
  | none => .ok false
  | some value =>
      match Octets.text? (value.getD []) with
      | some text => .ok (!isAutomatic text)
      | none => .error .undecodableSetting

/-- The abbreviation of an id of a database: its unique digits if the setting says a length, and else
as many as the number of objects asks for, or as are unique if these are more. -/
def shorten (configuration : Configuration) (d : Database) (id : ObjectId) :
    Except Problem Text := do
  if ← isExplicit configuration then uniqueDigits configuration d id
  else
    let count ← d.count
    return id.digits.take (max (automaticLength count) (uniqueCount configuration d id))

end Abbreviation

end VersionStamp.Git
