import VersionStamp.Text

namespace VersionStamp.Toml

/-!
# Dates and times

A date, a time of day, or both, is recognised and passed over; what it says is of no use here.
-/

/-- The number of exactly so many digits at the front of the text, within bounds, and what follows
it. -/
def readFixed? (count low high : Nat) (t : Text) : Option (Nat × Text) :=
  let digits := t.take count
  let number := digits.foldl (fun n c => n * 10 + (c.toNat - '0'.toNat)) 0
  if digits.length = count ∧ digits.all Char.isDigit ∧ low ≤ number ∧ number ≤ high then
    some (number, t.drop count)
  else none

def skipOne? (chars : Text) : Text → Option Text
  | c :: rest => if chars.contains c then some rest else none
  | [] => none

def isLeapYear (year : Nat) : Bool :=
  year % 4 == 0 && (year % 100 != 0 || year % 400 == 0)

def daysOfMonth (year month : Nat) : Nat :=
  if month = 2 then if isLeapYear year then 29 else 28
  else if [4, 6, 9, 11].contains month then 30
  else 31

def skipDate? (t : Text) : Option Text := do
  let (year, rest) ← readFixed? 4 0 9999 t
  let rest ← skipOne? ['-'] rest
  let (month, rest) ← readFixed? 2 1 12 rest
  let rest ← skipOne? ['-'] rest
  let (_, rest) ← readFixed? 2 1 (daysOfMonth year month) rest
  some rest

def skipTime? (t : Text) : Option Text := do
  let (_, rest) ← readFixed? 2 0 23 t
  let rest ← skipOne? [':'] rest
  let (_, rest) ← readFixed? 2 0 59 rest
  let rest ← skipOne? [':'] rest
  let (_, rest) ← readFixed? 2 0 60 rest
  match rest with
  | '.' :: c :: behind =>
      some (if c.isDigit then behind.dropWhile Char.isDigit else rest)
  | rest => some rest

def skipOffset? (t : Text) : Option Text :=
  match skipOne? ['Z', 'z'] t with
  | some rest => some rest
  | none => do
      let rest ← skipOne? ['+', '-'] t
      let (_, rest) ← readFixed? 2 0 23 rest
      let rest ← skipOne? [':'] rest
      let (_, rest) ← readFixed? 2 0 59 rest
      some rest

/-- What follows the date, the time, or both, at the front of the text. Only a date and a time
together may have an offset. -/
def skipDateTime? (t : Text) : Option Text :=
  match skipDate? t with
  | none => skipTime? t
  | some behindDate =>
      match skipOne? ['T', 't', ' '] behindDate >>= skipTime? with
      | none => some behindDate
      | some behindTime => some ((skipOffset? behindTime).getD behindTime)

example : skipDateTime? "1979-05-27 07:32:00.5-07:00 #" = some [' ', '#'] := by decide

example : skipDateTime? "1979-05-27 # day" = some " # day".toList := by decide

example : skipDateTime? "2023-02-29" = none := by decide

end VersionStamp.Toml
