import VersionStamp.Proofs.Text.Order

namespace VersionStamp.Text

/-!
# Numbers in a fixed number of digits

Filled up with zeros, numbers of at most so many digits have texts of one length. Such texts are in
the order of their numbers.
-/

/-- The last digits of a number. -/
def lastDigits : Nat → Nat → Text
  | 0, _ => []
  | width + 1, n => lastDigits width (n / 10) ++ [Nat.digitChar (n % 10)]

example : lastDigits 4 33 = "0033" := by decide

theorem length_lastDigits (width n : Nat) : (lastDigits width n).length = width := by
  induction width generalizing n with
  | zero => rfl
  | succ width ih => rw [lastDigits, List.length_append, ih, List.length_singleton]

theorem lastDigits_zero (width : Nat) : lastDigits width 0 = List.replicate width '0' := by
  induction width with
  | zero => rfl
  | succ width ih =>
      rw [lastDigits, Nat.zero_div, ih, List.replicate_succ']
      rfl

theorem zeroPadded_concat (width : Nat) (t : Text) (c : Char) :
    zeroPadded (width + 1) (t ++ [c]) = zeroPadded width t ++ [c] := by
  rw [zeroPadded, zeroPadded, List.length_append, List.length_singleton, Nat.add_sub_add_right,
    List.append_assoc]

/-- A number that is filled up with zeros has its last digits, if these are all that it has. -/
theorem zeroPadded_ofNat {width n : Nat} (hwidth : width ≠ 0) (hn : n < Nat.pow 10 width) :
    zeroPadded width (ofNat n) = lastDigits width n := by
  induction width generalizing n with
  | zero => exact absurd rfl hwidth
  | succ width ih =>
      by_cases hsmall : n < 10
      · have hdigits : ofNat n = [] ++ [Nat.digitChar n] := Nat.toDigits_of_lt_base hsmall
        calc
          zeroPadded (width + 1) (ofNat n) = zeroPadded width [] ++ [Nat.digitChar n] := by
            rw [hdigits, zeroPadded_concat]
          _ = lastDigits width 0 ++ [Nat.digitChar n] := by
            rw [lastDigits_zero, zeroPadded, List.append_nil, List.length_nil, Nat.sub_zero]
          _ = lastDigits (width + 1) n := by
            rw [lastDigits, Nat.div_eq_of_lt hsmall, Nat.mod_eq_of_lt hsmall]
      · have hdigits : ofNat n = ofNat (n / 10) ++ [Nat.digitChar (n % 10)] :=
          Nat.toDigits_of_base_le (by decide) (Nat.le_of_not_lt hsmall)
        have hmore : width ≠ 0 := by
          rintro rfl
          exact hsmall hn
        have hfront : n / 10 < Nat.pow 10 width := by
          change n < Nat.pow 10 width * 10 at hn
          omega
        calc
          zeroPadded (width + 1) (ofNat n) =
              zeroPadded width (ofNat (n / 10)) ++ [Nat.digitChar (n % 10)] := by
            rw [hdigits, zeroPadded_concat]
          _ = lastDigits width (n / 10) ++ [Nat.digitChar (n % 10)] := by rw [ih hmore hfront]
          _ = lastDigits (width + 1) n := rfl

/-! ## Order -/

theorem digitChar_lt_digitChar {m n : Nat} (h : m < n) (hn : n < 10) :
    Nat.digitChar m < Nat.digitChar n := by
  have hcode : (Nat.digitChar m).toNat < (Nat.digitChar n).toNat := by
    rw [Nat.toNat_digitChar_of_lt_ten (Nat.lt_trans h hn), Nat.toNat_digitChar_of_lt_ten hn]
    omega
  exact hcode

-- By induction on the digits: the numbers in front of the last digit differ, or only the last
-- digit does.
theorem lastDigits_lt_lastDigits {width m n : Nat} (h : m < n) (hn : n < Nat.pow 10 width) :
    lastDigits width m < lastDigits width n := by
  induction width generalizing m n with
  | zero =>
      change n < 1 at hn
      omega
  | succ width ih =>
      rw [lastDigits, lastDigits]
      have hle : m / 10 ≤ n / 10 := Nat.div_le_div_right (Nat.le_of_lt h)
      rcases Nat.lt_or_eq_of_le hle with hfront | hfront
      · apply append_lt_append (by rw [length_lastDigits, length_lastDigits])
        apply ih hfront
        change n < Nat.pow 10 width * 10 at hn
        omega
      · rw [hfront]
        apply List.append_left_lt
        have hlast : m % 10 < n % 10 := by omega
        have hdigit := digitChar_lt_digitChar hlast (Nat.mod_lt n (by decide))
        exact List.cons_lt_cons_iff.mpr (.inl hdigit)

end VersionStamp.Text
