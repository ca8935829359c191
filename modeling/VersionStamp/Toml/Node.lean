import VersionStamp.Decimal.Binary64
import VersionStamp.Toml.Layout

namespace VersionStamp.Toml

/-!
# The tree of a document

A document is a table of nodes in the order of their keys. `changeTable?` changes the table that a
path of keys leads to. A new entry stands behind the others, and an entry that is changed keeps its
place.
-/

structure Key where
  name : Text
  span : Span

inductive Scalar where
  | string (text : Text)
  | integer (n : Int)
  | float (x : Binary64)
  | boolean (b : Bool)
  | dateTime

/-- How a table came to be. -/
inductive Form where
  /-- It has a heading of its own. -/
  | headed
  /-- It was only passed by the heading of another table. -/
  | implied
  /-- It was made by a dotted key. -/
  | dotted
  /-- It stands between braces. -/
  | inlined
  deriving DecidableEq

inductive Node where
  | scalar (value : Scalar) (span : Span)
  | array (elements : List Node) (span : Span)
  | table (form : Form) (entries : List (Key × Node)) (span : Option Span)
  /-- Tables that share a heading, the last one first. -/
  | tables (latest : List Node) (span : Span)

/-- Where a node is written. A table that is nowhere written as a whole has no place. -/
def Node.span? : Node → Option Span
  | .scalar _ span => some span
  | .array _ span => some span
  | .table _ _ span => span
  | .tables _ span => some span

abbrev Entries := List (Key × Node)

namespace Entries

def find? (entries : Entries) (name : Text) : Option Node :=
  (List.find? (fun (key, _) => key.name == name) entries).map (·.2)

def replace (entries : Entries) (name : Text) (node : Node) : Entries :=
  entries.map fun (key, old) => (key, if key.name == name then node else old)

def erase (entries : Entries) (name : Text) : Entries :=
  entries.filter fun (key, _) => key.name != name

def insertNew? (entries : Entries) (key : Key) (node : Node) : Option Entries :=
  if (entries.find? key.name).isSome then none else some (entries ++ [(key, node)])

end Entries

/-- How a path of keys is followed: the form of the tables it makes where they are missing, and
which tables it may enter. -/
structure Access where
  made : Form
  enters : Form → Bool

def Access.byHeading : Access :=
  ⟨.implied, fun form => form != .inlined⟩

def Access.byDottedKey : Access :=
  ⟨.dotted, fun form => form == .implied || form == .dotted⟩

/-- Change the table that a path leads to from a table of the given form. Of tables that share a
heading the path enters the last one. -/
def changeTable? (access : Access) (change : Form → Entries → Option Entries) :
    Form → List Key → Entries → Option Entries
  | form, [], entries => change form entries
  | _, key :: path, entries =>
      match entries.find? key.name with
      | none => do
          let inner ← changeTable? access change access.made path []
          some (entries ++ [(key, .table access.made inner none)])
      | some (.table form inner span) =>
          if access.enters form then do
            let inner ← changeTable? access change form path inner
            some (entries.replace key.name (.table form inner span))
          else none
      | some (.tables (.table form inner last :: earlier) span) => do
          let inner ← changeTable? access change form path inner
          some (entries.replace key.name (.tables (.table form inner last :: earlier) span))
      | some _ => none

/-- A key with the value given for it, below the tables that the rest of a dotted key names. -/
structure Assignment where
  path : List Key
  key : Key
  value : Node

/-- The entries of a table with one more assignment. The key has to be new, and a dotted key has to
lead to a table made by dotted keys. -/
def Assignment.addTo? (a : Assignment) (entries : Entries) : Option Entries :=
  changeTable? .byDottedKey
    (fun form inner =>
      if a.path.isEmpty || form == .dotted then inner.insertNew? a.key a.value else none)
    .headed a.path entries

end VersionStamp.Toml
