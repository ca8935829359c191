namespace VersionStamp

/-!
# Text

A text is the list of its characters. String literals coerce to texts, so messages are written as
they are printed.
-/

/-- A text, as the list of its characters. -/
abbrev Text := List Char

instance coeText : Coe String (List Char) := ⟨String.toList⟩

namespace Text

def byteLength (t : Text) : Nat :=
  t.foldr (fun c n => c.utf8Size + n) 0

def join (separator : Text) (parts : List Text) : Text :=
  separator.intercalate parts

def ofNat (n : Nat) : Text :=
  Nat.toDigits 10 n

def ofInt : Int → Text
  | .ofNat n => ofNat n
  | .negSucc n => '-' :: ofNat (n + 1)

theorem ofInt_ne_nil (n : Int) : ofInt n ≠ [] := by
  cases n with
  | ofNat n => exact Nat.toDigits_ne_nil
  | negSucc n => exact List.cons_ne_nil _ _

/-- The text with `0` in front until it has `width` characters. -/
def zeroPadded (width : Nat) (t : Text) : Text :=
  List.replicate (width - t.length) '0' ++ t

end Text

end VersionStamp
