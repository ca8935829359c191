import VersionStamp.Git.Number
import VersionStamp.Git.Object

namespace VersionStamp.Git

/-!
# Who made a commit, and when

An author or committer line ends in a time, in seconds since 1970, and the offset of the local
clock. Both may be missing; a time that is there has to be a number.
-/

/-- A time in seconds since 1970 and the offset of the local clock in minutes. -/
structure Moment where
  seconds : Int := 0
  offset : Int := 0
  deriving DecidableEq

def zoneNumber : Octets → Int
  | sign :: rest =>
      if sign == '+' || sign == '-' then
        match readNumber? 32 (some 10) rest with
        | some (number, _) => number
        | none => 0
      else 0
  | [] => 0

/-- The offset of a zone such as `+0530`, in minutes. Anything else is the offset zero. -/
def zoneOffset (zone : Octets) : Int :=
  let hours := (zoneNumber zone).tdiv 100
  let minutes := (zoneNumber zone).tmod 100
  if hours ≤ 14 ∧ minutes ≤ 59 then
    if zone.head? = some '-' then -(hours * 60 + minutes) else hours * 60 + minutes
  else 0

example : zoneOffset "-0530" = -330 := by decide

example : zoneOffset "+1460" = 0 := by decide

def afterLast? (c : Char) (t : Octets) : Option Octets :=
  if t.contains c then some (t.reverse.takeWhile (· != c)).reverse else none

/-- The time of a line such as `Name <name@host> 1593691200 +0000`. The last `<` and the last `>`
have to stand in this order. -/
def Moment.ofLine? (line : Octets) : Option Moment := do
  let fromOpening ← afterLast? '<' line
  let fromClosing ← afterLast? '>' line
  if fromClosing.length < fromOpening.length then
    match fromClosing with
    | _ :: first :: rest =>
        let (seconds, afterTime) ← readNumber? 64 (some 10) (first :: rest)
        match afterTime with
        | _ :: z :: zone => some ⟨seconds, zoneOffset (z :: zone)⟩
        | _ => some ⟨seconds, 0⟩
    | _ => some {}
  else none

def momentLine? (label : Text) (t : Octets) : Option (Moment × Octets) := do
  let (line, rest) ← Octets.line? t
  let content ← Octets.after? label line
  if content.isEmpty then none
  else
    let moment ← Moment.ofLine? content
    some (moment, rest)

def skipIdLines (label : Text) : Nat → Octets → Octets
  | 0, t => t
  | fuel + 1, t =>
      match idLine? label t with
      | some (_, rest) => skipIdLines label fuel rest
      | none => t

/-- What stands behind further author lines, each of which has to be well formed. -/
def skipAuthors? : Nat → Octets → Option Octets
  | 0, t => some t
  | fuel + 1, t =>
      if (Octets.after? "author " t).isSome then do
        let (_, rest) ← momentLine? "author " t
        skipAuthors? fuel rest
      else some t

/-- The time at which a commit was committed, or `none` if its header is malformed. -/
def commitMoment? (body : Octets) : Option Moment := do
  let (_, afterTree) ← idLine? "tree " body
  let afterParents := skipIdLines "parent " body.length afterTree
  let (_, afterAuthor) ← momentLine? "author " afterParents
  let afterAuthors ← skipAuthors? body.length afterAuthor
  let (moment, _) ← momentLine? "committer " afterAuthors
  some moment

end VersionStamp.Git
