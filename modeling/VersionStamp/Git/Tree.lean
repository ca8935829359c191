import VersionStamp.Git.Number
import VersionStamp.Git.Object

namespace VersionStamp.Git

/-!
# Trees

The body of a tree is a row of entries. Each has a mode in octal digits, a space, a name up to a
zero byte, and the 20 bytes of an id. Only the form of a tree matters here.
-/

/-- The highest number of 16 bits, for the modes of entries and the lengths of their names. -/
def treeLimit : Nat := 65535

def behindTreeEntry? (body : Octets) : Option Octets := do
  let first ← body.head?
  if Octets.isSpace first then none
  else
    let (mode, rest) ← readNumber? 32 (some 8) body
    let rest ← Octets.after? " " rest
    let name := rest.takeWhile (· != '\x00')
    let behind := rest.drop (name.length + 1)
    let isName := !name.isEmpty && name.length ≤ treeLimit && name.length < rest.length
    if 0 ≤ mode && mode ≤ treeLimit && isName && behind.length ≥ 20 then some (behind.drop 20)
    else none

def isTreeBody : Nat → Octets → Bool
  | _, [] => true
  | 0, _ => false
  | fuel + 1, body =>
      match behindTreeEntry? body with
      | some rest => isTreeBody fuel rest
      | none => false

example : isTreeBody 1 ("100644 a\x00" ++ List.replicate 20 'x') = true := by decide +kernel

end VersionStamp.Git
