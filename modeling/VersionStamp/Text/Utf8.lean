import VersionStamp.Text

namespace VersionStamp

/-!
# Bytes and UTF-8

Bytes are read once, into characters and ill-formed pieces. A piece is as long as bytes can be the
beginning of a character, so each reader only has to say what becomes of a piece: `decode?` refuses
the whole, `decodeLossy` puts U+FFFD in its place.
-/

abbrev Bytes := List UInt8

namespace Utf8

/-- A character of which some bytes have been read: their value, how many are `missing`, and the
range in which the next one has to lie. -/
structure Partial where
  value : Nat
  missing : Nat
  low : UInt8
  high : UInt8

inductive Lead where
  | complete (c : Char)
  | begins (p : Partial)
  | illFormed

/-- What the first byte of a character says. The narrowed ranges exclude overlong forms,
surrogates and values above U+10FFFF. -/
def lead (b : UInt8) : Lead :=
  if b < 0x80 then .complete (Char.ofNat b.toNat)
  else if b < 0xC2 then .illFormed
  else if b < 0xE0 then .begins ⟨b.toNat - 0xC0, 1, 0x80, 0xBF⟩
  else if b = 0xE0 then .begins ⟨0, 2, 0xA0, 0xBF⟩
  else if b = 0xED then .begins ⟨0xD, 2, 0x80, 0x9F⟩
  else if b < 0xF0 then .begins ⟨b.toNat - 0xE0, 2, 0x80, 0xBF⟩
  else if b = 0xF0 then .begins ⟨0, 3, 0x90, 0xBF⟩
  else if b < 0xF4 then .begins ⟨b.toNat - 0xF0, 3, 0x80, 0xBF⟩
  else if b = 0xF4 then .begins ⟨4, 3, 0x80, 0x8F⟩
  else .illFormed

/-- What has been read of some bytes: the characters in reverse, with `none` for each ill-formed
piece, and the character that has begun. -/
structure Progress where
  found : List (Option Char) := []
  pending : Option Partial := none

def Progress.start (s : Progress) (b : UInt8) : Progress :=
  match lead b with
  | .complete c => ⟨some c :: s.found, none⟩
  | .begins p => ⟨s.found, some p⟩
  | .illFormed => ⟨none :: s.found, none⟩

def Progress.next (s : Progress) (b : UInt8) : Progress :=
  match s.pending with
  | none => s.start b
  | some p =>
      if p.low ≤ b ∧ b ≤ p.high then
        let value := p.value * 64 + (b.toNat - 0x80)
        if p.missing ≤ 1 then ⟨some (Char.ofNat value) :: s.found, none⟩
        else ⟨s.found, some ⟨value, p.missing - 1, 0x80, 0xBF⟩⟩
      else Progress.start ⟨none :: s.found, none⟩ b

def Progress.finish (s : Progress) : List (Option Char) :=
  (if s.pending.isSome then none :: s.found else s.found).reverse

/-- The characters of the bytes, with `none` for each ill-formed piece. -/
def scan (bytes : Bytes) : List (Option Char) :=
  (bytes.foldl Progress.next {}).finish

def decode? (bytes : Bytes) : Option Text :=
  (scan bytes).mapM id

def decodeLossy (bytes : Bytes) : Text :=
  (scan bytes).map fun c => c.getD '\uFFFD'

def encode (t : Text) : Bytes :=
  t.flatMap String.utf8EncodeChar

example : decode? [0x31, 0xC3, 0xA9, 0xF0, 0x9F, 0x98, 0x80] = some "1é😀".toList := by decide

example : decodeLossy [0xE2, 0x82, 0x41] = ['\uFFFD', 'A'] := by decide

example : decodeLossy [0xED, 0xA0, 0x80] = ['\uFFFD', '\uFFFD', '\uFFFD'] := by decide

/-- Bytes that are well formed read the same either way. -/
theorem decodeLossy_of_decode? {bytes : Bytes} {t : Text} (h : decode? bytes = some t) :
    decodeLossy bytes = t := by
  have hmap : ∀ {cs : List (Option Char)} {t : Text}, cs.mapM id = some t →
      cs.map (fun c => c.getD '\uFFFD') = t := by
    intro cs
    induction cs with
    | nil => intro t ht; simpa using ht
    | cons c cs ih =>
        intro t ht
        cases c with
        | none => simp at ht
        | some c =>
            simp only [List.mapM_cons, id_eq, Option.bind_eq_bind, Option.bind_some,
              Option.pure_def, Option.bind_eq_some_iff, Option.some.injEq] at ht
            obtain ⟨rest, hrest, rfl⟩ := ht
            simp [ih hrest]
  exact hmap h

end Utf8

end VersionStamp
