import VersionStamp.Git.Reference

namespace VersionStamp.Git

/-!
# Packed references

A file of packed references has a line for each, with an id and a name. Behind it there may be a
line with the object that is known to be behind the first. The file may claim to be in the order of
names; then a name is found by halving the file, and only what is met on the way is read. Otherwise
all of it is read.
-/

/-- A record of a file in order: what stands from its beginning to the end of the file, and how many
octets of that are its own. -/
structure Record where
  tail : Octets
  size : Nat

namespace Record

def nameOffset : Nat := 41

def name (r : Record) : Octets :=
  (r.tail.drop nameOffset).takeWhile (· != '\n')

/-- How a record compares with a name. One that is cut off comes before every name. -/
def compareName (r : Record) (sought : Octets) : Ordering :=
  if (r.tail.drop (nameOffset + 1)).isEmpty then .lt else compare r.name sought

def read? (r : Record) : Option Reference := do
  let (id, _) ← ObjectId.read? r.tail
  let (name, rest) ← Octets.line? (r.tail.drop nameOffset)
  match rest with
  | '^' :: rest => do
      let (behind, _) ← ObjectId.read? rest
      some ⟨name, id, some behind⟩
  | _ => some ⟨name, id, none⟩

/-- The records of a file. A line that begins with `^` belongs to the record in front of it. -/
def ofLines : Nat → Octets → List Record
  | _, [] => []
  | 0, _ => []
  | fuel + 1, t =>
      match Octets.line? t with
      | none => [⟨t, t.length⟩]
      | some (line, rest) =>
          match rest, ofLines fuel rest with
          | '^' :: _, next :: records => ⟨t, line.length + 1 + next.size⟩ :: records
          | _, records => ⟨t, line.length + 1⟩ :: records

/-- The records in front of the one that holds the octet with a number, that one, and those behind
it. -/
def splitAt? (n : Nat) : List Record → Option (List Record × Record × List Record)
  | [] => none
  | r :: records =>
      if n < r.size then some ([], r, records)
      else
        (splitAt? (n - r.size) records).map fun (before, found, behind) =>
          (r :: before, found, behind)

def extent (records : List Record) : Nat :=
  records.foldr (fun r n => r.size + n) 0

def search? (sought : Octets) : Nat → List Record → Option Record
  | 0, _ => none
  | fuel + 1, records =>
      match splitAt? (extent records / 2) records with
      | none => none
      | some (before, found, behind) =>
          match found.compareName sought with
          | .lt => search? sought fuel behind
          | .gt => search? sought fuel before
          | .eq => some found

end Record

/-- The packed references of a repository: the lines with references, and the records if they are in
order. A file whose lines cannot all be read may still have records. -/
structure PackedReferences where
  lines : Except Problem (List Reference) := .ok []
  records? : Option (Except Problem (List Record)) := none

namespace PackedReferences

def skipComments? (line? : Octets → Option (Octets × Octets)) : Nat → Octets → Option Octets
  | fuel + 1, '#' :: rest => do
      let (_, rest) ← line? rest
      skipComments? line? fuel rest
  | _, t => some t

def plainLine? (t : Octets) : Option (Octets × Octets) := do
  let (line, rest) ← Octets.line? t
  if line.contains '\x00' then none else some (line, rest)

def readBehind? : Octets → Option (Option ObjectId × Octets)
  | '^' :: rest => do
      let (behind, rest) ← ObjectId.read? rest
      if rest.isEmpty then some (some behind, [])
      else do
        let (_, rest) ← plainLine? rest
        some (some behind, rest)
  | rest => some (none, rest)

def readLines? : Nat → Octets → Option (List Reference)
  | _, [] => some []
  | 0, _ => none
  | fuel + 1, t => do
      let (id, rest) ← ObjectId.read? t
      let rest ← Octets.after? " " rest
      let (line, rest) ← plainLine? rest
      let name := if line.getLast? == some '\r' then line.dropLast else line
      let (behind, rest) ← readBehind? rest
      let more ← readLines? fuel rest
      some (⟨name, id, behind⟩ :: more)

def title : Octets := "# pack-refs with:"

/-- Whether the first line of a file claims that the references are in order. -/
def claimsOrder (content : Octets) : Bool :=
  match Octets.after? title content >>= Octets.line? with
  | some (traits, _) => Text.occurs " sorted " traits
  | none => false

/-- What stands behind the title, if there is one. It may hold any octets up to the end of its
line. -/
def behindTitle? (content : Octets) : Option Octets :=
  if title.isPrefixOf content then (Octets.line? content).map (·.2) else some content

def orCorrupt {α : Type} : Option α → Except Problem α
  | some a => .ok a
  | none => .error .corruptPackedReferences

def ofContent (content : Octets) : PackedReferences where
  lines := orCorrupt do
    let rest ← behindTitle? content
    let rest ← skipComments? plainLine? content.length rest
    readLines? content.length rest
  records? :=
    if claimsOrder content then
      some (orCorrupt ((skipComments? Octets.line? content.length content).map
        (Record.ofLines content.length)))
    else none

/-- The reference of a name among lines: the last one has the id, and the last one with an object
behind it has that. -/
def ofLines? (lines : List Reference) (name : Octets) : Option Reference :=
  let same := lines.filter fun r => r.name == name
  same.getLast?.map fun r => ⟨name, r.id, (same.filterMap Reference.behind).getLast?⟩

def find? (p : PackedReferences) (name : Octets) : Except Problem (Option Reference) :=
  match p.records? with
  | some records? => do
      let records ← records?
      match Record.search? name (records.length + 1) records with
      | some record => some <$> orCorrupt record.read?
      | none => .ok none
  | none => do
      let lines ← p.lines
      .ok (ofLines? lines name)

def all (p : PackedReferences) : Except Problem (List Reference) := do
  let lines ← p.lines
  let names := (lines.map Reference.name).mergeSort Reference.nameLe
  .ok (names.eraseDups.filterMap (ofLines? lines))

end PackedReferences

end VersionStamp.Git
