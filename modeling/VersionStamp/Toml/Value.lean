import VersionStamp.Toml.DateTime
import VersionStamp.Toml.Node
import VersionStamp.Toml.Number
import VersionStamp.Toml.Quoted

namespace VersionStamp.Toml

/-!
# Keys and values

A reader takes a part of the document off the front of a text and returns it with the rest. The
brackets around a value are limited in depth, and the dotted keys in length.
-/

def isBareKeyChar (c : Char) : Bool :=
  c.isAlphanum || c == '-' || c == '_'

/-- The key at the front of the text: a string of one line, or letters, digits, `-` and `_`. -/
def readKey? (t : Text) : Option (Key × Text) :=
  match readLineString? t with
  | some (name, rest) => some (⟨name, t, rest⟩, rest)
  | none =>
      let name := t.takeWhile isBareKeyChar
      if name.isEmpty then none
      else
        let rest := t.drop name.length
        some (⟨name, t, rest⟩, rest)

def pathLimit : Nat := 79

/-- The keys of a dotted key with at most `limit` of them, and what follows with the spaces behind
the last key left out. -/
def readKeys? : Nat → Text → Option (List Key × Text)
  | 0, _ => none
  | limit + 1, t => do
      let (key, rest) ← readKey? (skipSpaces t)
      match skipSpaces rest with
      | '.' :: rest =>
          let (keys, rest) ← readKeys? limit rest
          some (key :: keys, rest)
      | rest => some ([key], rest)

def readPath? (t : Text) : Option (List Key × Key × Text) := do
  let (keys, rest) ← readKeys? pathLimit t
  let key ← keys.getLast?
  some (keys.dropLast, key, rest)

def readAssignment? (readValue : Text → Option (Node × Text)) (t : Text) :
    Option (Assignment × Text) := do
  let (path, key, rest) ← readPath? t
  match rest with
  | '=' :: rest =>
      let (value, rest) ← readValue (skipSpaces rest)
      some (⟨path, key, value⟩, rest)
  | _ => none

def readBoolean? : Text → Option (Bool × Text)
  | 't' :: 'r' :: 'u' :: 'e' :: rest => some (true, rest)
  | 'f' :: 'a' :: 'l' :: 's' :: 'e' :: rest => some (false, rest)
  | _ => none

def readScalar? (t : Text) : Option (Scalar × Text) :=
  match readString? t with
  | some (text, rest) => some (.string text, rest)
  | none =>
      match readBoolean? t with
      | some (b, rest) => some (.boolean b, rest)
      | none =>
          match skipDateTime? t with
          | some rest => some (.dateTime, rest)
          | none =>
              match readFloat? t with
              | some (x, rest) => some (.float x, rest)
              | none => (readInteger? t).map fun (n, rest) => (.integer n, rest)

def readElements? (readValue : Text → Option (Node × Text)) :
    Nat → Text → Option (List Node × Text)
  | 0, _ => none
  | fuel + 1, t =>
      match skipLayout false t with
      | ']' :: rest => some ([], rest)
      | t => do
          let (node, rest) ← readValue t
          match skipLayout false rest with
          | ',' :: rest =>
              let (nodes, rest) ← readElements? readValue fuel rest
              some (node :: nodes, rest)
          | ']' :: rest => some ([node], rest)
          | _ => none

def readAssignments? (readValue : Text → Option (Node × Text)) :
    Nat → Entries → Text → Option (Entries × Text)
  | 0, _, _ => none
  | fuel + 1, entries, t => do
      let (assignment, rest) ← readAssignment? readValue t
      let entries ← assignment.addTo? entries
      match skipSpaces rest with
      | ',' :: rest => readAssignments? readValue fuel entries rest
      | '\x7d' :: rest => some (entries, rest)
      | _ => none

/-- The brackets that may stand around a value, its own included. -/
def depthLimit : Nat := 79

/-- The value at the front of the text, with at most `depth` brackets around its parts, and what
follows it. The arrays and tables in it are read as far as `limit` parts. -/
def readNode? (limit : Nat) : Nat → Text → Option (Node × Text)
  | depth, t =>
      match depth, t with
      | depth + 1, '[' :: rest => do
          let (nodes, rest) ← readElements? (readNode? limit depth) limit rest
          some (.array nodes ⟨t, rest⟩, rest)
      | depth + 1, '\x7b' :: rest =>
          match skipSpaces rest with
          | '\x7d' :: rest => some (.table .inlined [] (some ⟨t, rest⟩), rest)
          | rest => do
              let (entries, rest) ← readAssignments? (readNode? limit depth) limit [] rest
              some (.table .inlined entries (some ⟨t, rest⟩), rest)
      | _, t => (readScalar? t).map fun (value, rest) => (.scalar value ⟨t, rest⟩, rest)

end VersionStamp.Toml
