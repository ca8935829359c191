import VersionStamp.Git.Directory
import VersionStamp.Git.Object

namespace VersionStamp.Git

/-!
# Grafts

A line of a file of grafts gives a commit other parents: there stand its id and theirs, with a space
in front of each parent. Answers do not depend on parents, but the lines have to be well formed.
-/

namespace Grafts

/-- Whether a text is a row of ids with a space in front of each. -/
def areParents : Nat → Octets → Bool
  | _, [] => true
  | fuel + 1, ' ' :: rest =>
      match ObjectId.read? rest with
      | some (_, rest) => areParents fuel rest
      | none => false
  | _, _ => false

def fault? (line : Octets) (number : Nat) : Option Problem :=
  match ObjectId.read? line with
  | none => some (.malformedGraft number)
  | some (_, parents) =>
      if areParents line.length parents then none else some (.malformedGraftParent number)

def linesOf (content : Octets) : List Octets :=
  let lines := Text.split (· == '\n') content
  if lines.getLast? == some [] then lines.dropLast else lines

def checkContent (content : Octets) : Except Problem Unit :=
  match (linesOf content).zipIdx.findSome? fun (line, index) => fault? line (index + 1) with
  | some problem => .error problem
  | none => .ok ()

def checkFile (files : Files) (place : Location) : Except Problem Unit :=
  match files.content? place with
  | some content => checkContent (Octets.ofBytes content)
  | none => .ok ()

/-- Check the grafts of a repository: those that are written by hand, and the commits at which its
own history is cut off. -/
def check (files : Files) (d : Directory) : Except Problem Unit := do
  checkFile files (d.common ++ (["info", "grafts"] : Location))
  checkFile files (d.own ++ (["shallow"] : Location))

end Grafts

end VersionStamp.Git
