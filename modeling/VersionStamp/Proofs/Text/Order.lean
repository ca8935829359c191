import Mathlib.Tactic.SplitIfs
import VersionStamp.Proofs.Text.Utf8

namespace VersionStamp

/-!
# The order of texts

Texts are in lexicographic order. It is the same by their characters and by the bytes of these,
since of two characters the higher one has the higher byte where their bytes first differ.
-/

/-- Of two lists of one length, the one that comes first still does with any list behind it. -/
theorem append_lt_append {α : Type} [LT α] {s t : List α} (hlength : s.length = t.length)
    (h : s < t) (u v : List α) : s ++ u < t ++ v := by
  induction s generalizing t with
  | nil => simp [List.length_eq_zero_iff.mp hlength.symm] at h
  | cons c s ih =>
      cases t with
      | nil => simp at hlength
      | cons d t =>
          rw [List.cons_append, List.cons_append]
          rcases List.cons_lt_cons_iff.mp h with hcd | ⟨rfl, hst⟩
          · exact List.cons_lt_cons_iff.mpr (.inl hcd)
          · exact List.cons_lt_cons_iff.mpr (.inr ⟨rfl, ih (by simpa using hlength) hst⟩)

theorem Text.compare_eq_lt_iff {s t : Text} : compare s t = .lt ↔ s < t := by
  induction s generalizing t with
  | nil => cases t <;> simp
  | cons c s ih =>
      cases t with
      | nil => simp
      | cons d t =>
          have hchar : compare c d = .lt ↔ c < d := compareOfLessAndEq_eq_lt
          rw [List.compare_cons_cons, Ordering.then_eq_lt, List.cons_lt_cons_iff, ih, hchar,
            Std.compare_eq_iff_eq]

namespace Utf8

variable {u v : Bytes}

theorem ofNat_cons_lt_iff {m n : Nat} (hm : m < 256) (hn : n < 256) :
    UInt8.ofNat m :: u < UInt8.ofNat n :: v ↔ m < n ∨ m = n ∧ u < v := by
  have hmod : m % 256 = m ∧ n % 256 = n := ⟨Nat.mod_eq_of_lt hm, Nat.mod_eq_of_lt hn⟩
  simp [List.cons_lt_cons_iff, UInt8.lt_iff_toNat_lt, ← UInt8.toNat_inj, hmod]

/-! ### Lead bytes -/

/-- The number of the first byte of a character. -/
def leadNumber (n : Nat) : Nat :=
  if n ≤ 0x7F then n
  else if n ≤ 0x7FF then n / 64 % 32 + 0xC0
  else if n ≤ 0xFFFF then n / 4096 % 16 + 0xE0
  else n / 262144 % 8 + 0xF0

/-- The first byte of a character has its lead number. -/
theorem exists_utf8EncodeChar_eq_cons (c : Char) :
    ∃ bytes, String.utf8EncodeChar c = UInt8.ofNat (leadNumber c.val.toNat) :: bytes := by
  rw [String.utf8EncodeChar, leadNumber]
  split_ifs <;> exact ⟨_, rfl⟩

theorem leadNumber_lt (n : Nat) : leadNumber n < 256 := by
  rw [leadNumber]
  split_ifs <;> omega

/-- The lead numbers of characters ascend with them. -/
theorem leadNumber_le {m n : Nat} (h : m < n) (hn : n < 0x110000) :
    leadNumber m ≤ leadNumber n := by
  rw [leadNumber, leadNumber]
  split_ifs <;> omega

/-! ### Characters -/

variable {c d : Char}

theorem utf8EncodeChar_append_lt_of_lead
    (h : leadNumber c.val.toNat < leadNumber d.val.toNat) (u v : Bytes) :
    String.utf8EncodeChar c ++ u < String.utf8EncodeChar d ++ v := by
  obtain ⟨front, hc⟩ := exists_utf8EncodeChar_eq_cons c
  obtain ⟨behind, hd⟩ := exists_utf8EncodeChar_eq_cons d
  rw [hc, hd, List.cons_append, List.cons_append]
  exact (ofNat_cons_lt_iff (leadNumber_lt _) (leadNumber_lt _)).mpr (.inl h)

theorem continuation_lt (n : Nat) : n % 64 + 0x80 < 256 := by omega

theorem utf8EncodeChar_append_lt_two (hc : 0x7F < c.val.toNat) (hd : d.val.toNat ≤ 0x7FF)
    (h : c.val.toNat < d.val.toNat) (u v : Bytes) :
    String.utf8EncodeChar c ++ u < String.utf8EncodeChar d ++ v := by
  have hlead (n : Nat) : n % 32 + 0xC0 < 256 := by omega
  rw [utf8EncodeChar_two rfl hc (by omega), utf8EncodeChar_two rfl (by omega) hd]
  simp only [List.cons_append, List.nil_append, ofNat_cons_lt_iff (hlead _) (hlead _),
    ofNat_cons_lt_iff (continuation_lt _) (continuation_lt _)]
  omega

theorem utf8EncodeChar_append_lt_three (hc : 0x7FF < c.val.toNat) (hd : d.val.toNat ≤ 0xFFFF)
    (h : c.val.toNat < d.val.toNat) (u v : Bytes) :
    String.utf8EncodeChar c ++ u < String.utf8EncodeChar d ++ v := by
  have hlead (n : Nat) : n % 16 + 0xE0 < 256 := by omega
  rw [utf8EncodeChar_three rfl hc (by omega), utf8EncodeChar_three rfl (by omega) hd]
  simp only [List.cons_append, List.nil_append, ofNat_cons_lt_iff (hlead _) (hlead _),
    ofNat_cons_lt_iff (continuation_lt _) (continuation_lt _)]
  omega

theorem utf8EncodeChar_append_lt_four (hc : 0xFFFF < c.val.toNat) (hd : d.val.toNat < 0x110000)
    (h : c.val.toNat < d.val.toNat) (u v : Bytes) :
    String.utf8EncodeChar c ++ u < String.utf8EncodeChar d ++ v := by
  have hlead (n : Nat) : n % 8 + 0xF0 < 256 := by omega
  rw [utf8EncodeChar_four rfl hc, utf8EncodeChar_four rfl (by omega)]
  simp only [List.cons_append, List.nil_append, ofNat_cons_lt_iff (hlead _) (hlead _),
    ofNat_cons_lt_iff (continuation_lt _) (continuation_lt _)]
  -- The first two bytes make a number of which `omega` has to know that it does not fall.
  have hfront : c.val.toNat / 4096 ≤ d.val.toNat / 4096 := Nat.div_le_div_right (Nat.le_of_lt h)
  rcases Nat.lt_or_eq_of_le hfront with hfront | hfront <;> omega

/-- Of two characters, the bytes of the higher one come behind those of the lower one, whatever
follows either of them: it has the higher lead byte, or else as many bytes and a higher one among
those that continue. -/
theorem utf8EncodeChar_append_lt (h : c < d) (u v : Bytes) :
    String.utf8EncodeChar c ++ u < String.utf8EncodeChar d ++ v := by
  have hlt : c.val.toNat < d.val.toNat := h
  have hd : d.val.toNat < 0x110000 := by
    rcases d.valid with hlow | ⟨-, hhigh⟩
    · exact Nat.lt_trans hlow (by decide)
    · exact hhigh
  rcases Nat.lt_or_eq_of_le (leadNumber_le hlt hd) with hlead | hlead
  · exact utf8EncodeChar_append_lt_of_lead hlead u v
  · obtain htwo | hthree | hfour : (0x7F < c.val.toNat ∧ d.val.toNat ≤ 0x7FF) ∨
        (0x7FF < c.val.toNat ∧ d.val.toNat ≤ 0xFFFF) ∨ 0xFFFF < c.val.toNat := by
      rw [leadNumber, leadNumber] at hlead
      split_ifs at hlead <;> omega
    · exact utf8EncodeChar_append_lt_two htwo.1 htwo.2 hlt u v
    · exact utf8EncodeChar_append_lt_three hthree.1 hthree.2 hlt u v
    · exact utf8EncodeChar_append_lt_four hfour hd hlt u v

theorem encode_lt_encode {s t : Text} (h : s < t) : encode s < encode t := by
  induction s generalizing t with
  | nil =>
      cases t with
      | nil => simp at h
      | cons d t =>
          rw [encode_cons]
          cases hbytes : String.utf8EncodeChar d with
          | nil => exact absurd hbytes String.utf8EncodeChar_ne_nil
          | cons b bytes => exact List.nil_lt_cons b _
  | cons c s ih =>
      cases t with
      | nil => simp at h
      | cons d t =>
          rw [encode_cons, encode_cons]
          rcases List.cons_lt_cons_iff.mp h with hcd | ⟨rfl, hst⟩
          · exact utf8EncodeChar_append_lt hcd (encode s) (encode t)
          · exact List.append_left_lt (ih hst)

end Utf8

end VersionStamp
