import VersionStamp.Text.Blank
import VersionStamp.Text.Utf8

namespace VersionStamp

/-!
# Octets

A file may hold any bytes. Where its words and lines matter and not its encoding, it is read as
octets: a text with one character for each byte, the one of the same number. Nothing is lost on the
way to octets and back (`bytes_ofBytes`).
-/

/-- A text whose characters, all below 256, stand for bytes. -/
abbrev Octets := List Char

namespace Octets

def ofBytes (bytes : Bytes) : Octets :=
  bytes.map fun b => Char.ofNat b.toNat

def bytes (t : Octets) : Bytes :=
  t.map fun c => UInt8.ofNat c.toNat

def ofText (t : Text) : Octets :=
  ofBytes (Utf8.encode t)

def text? (t : Octets) : Option Text :=
  Utf8.decode? (bytes t)

/-- The octets as they are shown in messages, with U+FFFD where they are not UTF-8. -/
def shown (t : Octets) : Text :=
  Utf8.decodeLossy (bytes t)

def isSpace (c : Char) : Bool :=
  c == ' ' || ('\t' ≤ c && c ≤ '\r')

def trimEnd (t : Octets) : Octets :=
  Text.dropEndWhile isSpace t

def untilNul (t : Octets) : Octets :=
  t.takeWhile (· != '\x00')

/-- What stands behind `part` at the beginning of the octets. -/
def after? (part t : Octets) : Option Octets :=
  if part.isPrefixOf t then some (t.drop part.length) else none

/-- The first line without its line feed, and what stands behind it. -/
def line? (t : Octets) : Option (Octets × Octets) :=
  match t.dropWhile (· != '\n') with
  | _ :: rest => some (t.takeWhile (· != '\n'), rest)
  | [] => none

example : shown (ofBytes [0x61, 0xC3, 0xA9, 0xFF]) = "aé\uFFFD" := by decide

theorem toNat_ofNat_toNat (b : UInt8) : (Char.ofNat b.toNat).toNat = b.toNat := by
  have hlt : b.toNat < 256 := b.toNat_lt
  have hvalid : b.toNat.isValidChar := Or.inl (by omega)
  rw [Char.ofNat, dif_pos hvalid]
  rfl

theorem bytes_ofBytes (bytes : Bytes) : Octets.bytes (ofBytes bytes) = bytes := by
  induction bytes with
  | nil => rfl
  | cons b bytes ih =>
      simp only [ofBytes, Octets.bytes, List.map_cons] at ih ⊢
      rw [ih, toNat_ofNat_toNat, UInt8.ofNat_toNat]

theorem after?_append (part rest : Octets) : after? part (part ++ rest) = some rest := by
  simp [after?]

theorem after?_eq_some_iff {part t rest : Octets} : after? part t = some rest ↔ t = part ++ rest := by
  constructor
  · intro h
    obtain ⟨hbegins, hrest⟩ := Option.ite_none_right_eq_some.mp h
    obtain ⟨behind, rfl⟩ := List.isPrefixOf_iff_prefix.mp hbegins
    rw [← Option.some.inj hrest, List.drop_left]
  · rintro rfl
    exact after?_append part rest

theorem line?_append (line rest : Octets) (h : '\n' ∉ line) :
    line? (line ++ '\n' :: rest) = some (line, rest) := by
  have hne : ∀ c ∈ line, (c != '\n') = true := by
    intro c hc
    have : c ≠ '\n' := fun heq => h (by rwa [heq] at hc)
    simpa using this
  simp [line?, List.dropWhile_append_of_pos hne, List.takeWhile_append_of_pos hne]

end Octets

end VersionStamp
