import VersionStamp.Git.Sha1
import VersionStamp.Text.Octets

namespace VersionStamp.Git

/-!
# Objects

An object is known by its id, the 40 hexadecimal digits of the hash of its kind, its length and its
body.
-/

/-- A hexadecimal digit in lower case. -/
def ObjectId.isHexDigit (c : Char) : Bool :=
  c.isDigit || ('a' ≤ c && c ≤ 'f')

structure ObjectId where
  digits : Text
  length_digits : digits.length = 40
  isHexDigit_of_mem : ∀ c ∈ digits, ObjectId.isHexDigit c
  deriving DecidableEq

namespace ObjectId

def hexDigit? (c : Char) : Option Char :=
  if isHexDigit c then some c
  else if 'A' ≤ c && c ≤ 'F' then some c.toLower
  else none

theorem isHexDigit_toLower {c : Char} (h : 'A' ≤ c ∧ c ≤ 'F') : isHexDigit c.toLower := by
  have hle : 65 ≤ c.toNat ∧ c.toNat ≤ 70 := h
  have hmem : c.toNat ∈ List.range' 65 6 := by rw [List.mem_range'_1]; omega
  have hall : ∀ n ∈ List.range' 65 6, isHexDigit (Char.ofNat n).toLower := by decide
  have hdigit := hall c.toNat hmem
  rwa [Char.ofNat_toNat] at hdigit

theorem isHexDigit_of_hexDigit? {c d : Char} (h : hexDigit? c = some d) : isHexDigit d := by
  rw [hexDigit?] at h
  split at h
  next hc => rwa [← Option.some.inj h]
  next =>
    split at h
    next hc =>
      rw [← Option.some.inj h]
      exact isHexDigit_toLower (by simpa using hc)
    next => simp at h

theorem isHexDigit_of_mapM {t digits : Text} (h : t.mapM hexDigit? = some digits) :
    ∀ c ∈ digits, isHexDigit c := by
  induction t generalizing digits with
  | nil =>
      obtain rfl : [] = digits := by simpa using h
      simp
  | cons c t ih =>
      rw [List.mapM_cons] at h
      obtain ⟨d, hd, h⟩ := Option.bind_eq_some_iff.mp h
      obtain ⟨rest, hrest, h⟩ := Option.bind_eq_some_iff.mp h
      obtain rfl : d :: rest = digits := by simpa using h
      intro e he
      rcases List.mem_cons.mp he with rfl | he
      · exact isHexDigit_of_hexDigit? hd
      · exact ih hrest e he

def length : Nat := 40

def ofDigits? (t : Text) : Option ObjectId :=
  match hdigits : t.mapM hexDigit? with
  | some digits =>
      if hlength : digits.length = 40 then some ⟨digits, hlength, isHexDigit_of_mapM hdigits⟩
      else none
  | none => none

theorem mapM_hexDigit? {digits : Text} (h : ∀ c ∈ digits, isHexDigit c) :
    digits.mapM hexDigit? = some digits := by
  induction digits with
  | nil => rfl
  | cons c digits ih =>
      have hc : hexDigit? c = some c := if_pos (h c List.mem_cons_self)
      rw [List.mapM_cons, hc, ih fun d hd => h d (List.mem_cons_of_mem c hd)]
      rfl

/-- The digits of an id are read back as that id. -/
theorem ofDigits?_digits (id : ObjectId) : ofDigits? id.digits = some id := by
  have hmap := mapM_hexDigit? id.isHexDigit_of_mem
  rw [ofDigits?]
  split
  next digits hdigits =>
    obtain rfl : id.digits = digits := Option.some.inj (hmap.symm.trans hdigits)
    exact dif_pos id.length_digits
  next hdigits => simp [hmap] at hdigits

/-- The id written by the first 40 characters, and what stands behind it. -/
def read? (t : Octets) : Option (ObjectId × Octets) :=
  (ofDigits? (t.take 40)).map fun id => (id, t.drop 40)

def bytes (id : ObjectId) : Bytes :=
  Utf8.encode id.digits

def zero : ObjectId :=
  ⟨List.replicate 40 '0', List.length_replicate, fun c hc => by
    rw [List.eq_of_mem_replicate hc]
    decide⟩

end ObjectId

inductive Kind where
  | blob
  | tree
  | commit
  | tag
  deriving DecidableEq

def Kind.name : Kind → Text
  | .blob => "blob"
  | .tree => "tree"
  | .commit => "commit"
  | .tag => "tag"

def Kind.all : List Kind :=
  [.commit, .tree, .blob, .tag]

structure Object where
  kind : Kind
  body : Bytes
  deriving DecidableEq

/-- What stands in front of the body: `KIND LENGTH` and a zero byte. -/
def Object.header (o : Object) : Bytes :=
  Utf8.encode (o.kind.name ++ " " ++ Text.ofNat o.body.length) ++ [0]

theorem isHexDigit_hexDigit {n : Nat} (h : n < 16) : ObjectId.isHexDigit (Sha1.hexDigit n) := by
  have hall : ∀ n < 16, ObjectId.isHexDigit (Sha1.hexDigit n) := by decide
  exact hall n h

theorem isHexDigit_of_mem_digits (s : Sha1.State) : ∀ c ∈ s.digits, ObjectId.isHexDigit c := by
  intro c hc
  obtain ⟨w, -, hc⟩ := List.mem_flatMap.mp hc
  obtain ⟨shift, -, rfl⟩ := List.mem_map.mp hc
  exact isHexDigit_hexDigit (Nat.mod_lt _ (by decide))

def Object.id (o : Object) : ObjectId :=
  let hash := Sha1.hash (o.header ++ o.body)
  ⟨hash.digits, Sha1.length_digits hash, isHexDigit_of_mem_digits hash⟩

/-- The id on a header line that begins with `label`, and what stands behind the line. -/
def idLine? (label : Text) (t : Octets) : Option (ObjectId × Octets) := do
  let rest ← Octets.after? label t
  let (id, rest) ← ObjectId.read? rest
  match rest with
  | '\n' :: rest => some (id, rest)
  | _ => none

end VersionStamp.Git
