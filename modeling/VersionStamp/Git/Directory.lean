import VersionStamp.Files
import VersionStamp.Git.Problem

namespace VersionStamp.Git

/-!
# Where repositories are

A repository is a directory with a file `HEAD` and the directories `objects` and `refs`. It may
share all but its HEAD with other work trees, and then a file `commondir` in it names the directory
that they share. It is looked for in `.git` at each place from a path upwards and at the place
itself. In place of the directory `.git` there may be a file that names it.
-/

/-- The directory of a repository, and the one that it shares with other work trees. -/
structure Directory where
  own : Location
  common : Location
  deriving DecidableEq

structure Discovery where
  directory : Directory
  /-- The directory around what was found. -/
  around : Location
  /-- The path of the file that names the repository, if there is one. -/
  link : Option Octets

namespace Directory

def placeOf (files : Files) (path : Octets) : Except Problem Location :=
  match files.walkOctets path with
  | .ok place => .ok place
  | .error (.system number) => .error (.unresolvedPath (Octets.shown path) number)
  | .error (.reason reason) => .error (.other reason)

def writtenPath (content : Bytes) : Octets :=
  Octets.untilNul (Octets.trimEnd (Octets.ofBytes content))

def commonPlace (files : Files) (own : Location) : Except Problem Location :=
  match files.content? (own ++ [("commondir" : Text)]) with
  | none => .ok own
  | some content =>
      let path := writtenPath content
      if Path.beginsWithDots path then
        placeOf files (Path.join (Octets.ofText (Location.path own)) path)
      else placeOf files path

/-- The repository whose directory is at a place, if there is one. -/
def at? (files : Files) (own : Location) : Except Problem (Option Directory) := do
  let common ← commonPlace files own
  if files.isFile (own ++ [("HEAD" : Text)]) &&
      files.isDirectory (common ++ [("objects" : Text)]) &&
      files.isDirectory (common ++ [("refs" : Text)]) then .ok (some ⟨own, common⟩)
  else .ok none

def dotGit : Text := ".git"

def linkedPlace (files : Files) (link : Location) (content : Bytes) : Except Problem Location :=
  match Octets.after? "gitdir:" (Octets.trimEnd (Octets.ofBytes content)) with
  | some (c :: rest) =>
      let path := (Octets.untilNul (c :: rest)).dropWhile Octets.isSpace
      placeOf files (Path.join (Octets.ofText (Location.path link.dropLast)) path)
  | _ => .error (.malformedLink (Location.path link))

def linkFile : Text := "gitdir"

/-- The path of the file in a work tree that names the repository at a place, if the repository says
so. A path that begins with dots is seen from the repository. -/
def linkPath? (files : Files) (own : Location) : Option Octets :=
  (files.content? (own ++ [linkFile])).map fun content =>
    let path := writtenPath content
    if Path.beginsWithDots path then
      Path.collapse (Path.join (Octets.ofText (Location.path own)) path)
    else path

/-- The repository at the first of some places where there is one. A file that names none ends the
search. -/
def first? (files : Files) : List Location → Except Problem (Option Discovery)
  | [] => .ok none
  | place :: places =>
      match files.entry? place with
      | none => first? files places
      | some (.file content _) =>
          if place.getLast? == some dotGit then do
            let linked ← linkedPlace files place content
            let directory? ← at? files linked
            let link := Octets.ofText (Location.path place)
            .ok (directory?.map fun directory => ⟨directory, place.dropLast, some link⟩)
          else first? files places
      | some _ => do
          match ← at? files place with
          | some directory => .ok (some ⟨directory, place.dropLast, linkPath? files place⟩)
          | none => first? files places

def candidates (place : Location) : List Location :=
  [place ++ [dotGit], place]

def upwards (place : Location) : List Location :=
  (List.range (place.length + 1)).reverse.map place.take

/-- The repository as seen from a path, among the files in the directories of the path or, without
`search`, in its last one. -/
def find (files : Files) (search : Bool) (path : Text) : Except Problem Discovery :=
  if path.contains '\x00' then .error .nulInPath
  else do
    let place ← placeOf files (Octets.ofText path)
    let places := if search then upwards place else [place]
    match ← first? files (places.flatMap candidates) with
    | some found => .ok found
    | none => .error (.noRepository path)

/-- The directory of what a name stands for. All that is below `refs` is shared, but for what
belongs to a search among commits. -/
def holderOf (d : Directory) (name : Octets) : Location :=
  if List.isPrefixOf ("refs/" : Text) name && !List.isPrefixOf ("refs/bisect/" : Text) name then
    d.common
  else d.own

example : upwards ["a", "b"] = ([["a", "b"], ["a"], []] : List (List Text)) := by decide

end Directory

end VersionStamp.Git
