import VersionStamp.Text.Utf8

namespace VersionStamp.Utf8

/-!
# Reading back what is written in UTF-8

The bytes of a character are its lead byte and its continuation bytes. The lead byte fixes how many
of these follow and the range of the first one; each of them then adds six bits. Read one after the
other, the bytes of a text give its characters, with no piece left over.
-/

/-! ## Lead bytes -/

variable {b : UInt8}

theorem lead_one (h : b.toNat < 0x80) : lead b = .complete (Char.ofNat b.toNat) := by
  simp [lead, UInt8.lt_iff_toNat_lt, h]

theorem lead_two (hlow : 0xC2 ≤ b.toNat) (hhigh : b.toNat < 0xE0) :
    lead b = .begins ⟨b.toNat - 0xC0, 1, 0x80, 0xBF⟩ := by
  have h80 : ¬ b.toNat < 0x80 := by omega
  have hC2 : ¬ b.toNat < 0xC2 := by omega
  simp [lead, UInt8.lt_iff_toNat_lt, h80, hC2, hhigh]

/-- The range of the first continuation byte leaves out overlong forms and surrogates. -/
theorem lead_three (hlow : 0xE0 ≤ b.toNat) (hhigh : b.toNat < 0xF0) :
    lead b = .begins ⟨b.toNat - 0xE0, 2, if b.toNat = 0xE0 then 0xA0 else 0x80,
      if b.toNat = 0xED then 0x9F else 0xBF⟩ := by
  have h80 : ¬ b.toNat < 0x80 := by omega
  have hC2 : ¬ b.toNat < 0xC2 := by omega
  have hE0 : ¬ b.toNat < 0xE0 := by omega
  by_cases hfirst : b.toNat = 0xE0
  · simp [lead, UInt8.lt_iff_toNat_lt, ← UInt8.toNat_inj, hfirst]
  · by_cases hsurrogate : b.toNat = 0xED
    · simp [lead, UInt8.lt_iff_toNat_lt, ← UInt8.toNat_inj, hsurrogate]
    · simp [lead, UInt8.lt_iff_toNat_lt, ← UInt8.toNat_inj, h80, hC2, hE0, hhigh, hfirst,
        hsurrogate]

/-- The range of the first continuation byte leaves out overlong forms and what is above U+10FFFF. -/
theorem lead_four (hlow : 0xF0 ≤ b.toNat) (hhigh : b.toNat ≤ 0xF4) :
    lead b = .begins ⟨b.toNat - 0xF0, 3, if b.toNat = 0xF0 then 0x90 else 0x80,
      if b.toNat = 0xF4 then 0x8F else 0xBF⟩ := by
  obtain h | h | h | h | h : b.toNat = 0xF0 ∨ b.toNat = 0xF1 ∨ b.toNat = 0xF2 ∨ b.toNat = 0xF3 ∨
      b.toNat = 0xF4 := by
    omega
  all_goals simp [lead, UInt8.lt_iff_toNat_lt, ← UInt8.toNat_inj, h]

theorem next_lead {found : List (Option Char)} {p : Partial} (h : lead b = .begins p) :
    Progress.next ⟨found, none⟩ b = ⟨found, some p⟩ := by
  simp [Progress.next, Progress.start, h]

/-! ## Continuation bytes -/

section Continuation

variable {found : List (Option Char)} {value bits : Nat} {low high : UInt8}

theorem next_last (hb : b.toNat = bits + 0x80) (hlow : low ≤ b) (hhigh : b ≤ high) :
    Progress.next ⟨found, some ⟨value, 1, low, high⟩⟩ b =
      ⟨some (Char.ofNat (value * 64 + bits)) :: found, none⟩ := by
  simp [Progress.next, hlow, hhigh, hb]

theorem next_more {missing : Nat} (hb : b.toNat = bits + 0x80) (hlow : low ≤ b) (hhigh : b ≤ high) :
    Progress.next ⟨found, some ⟨value, missing + 2, low, high⟩⟩ b =
      ⟨found, some ⟨value * 64 + bits, missing + 1, 0x80, 0xBF⟩⟩ := by
  simp [Progress.next, hlow, hhigh, hb]

theorem low_le (hb : b.toNat = bits + 0x80) : 0x80 ≤ b := by
  simp [UInt8.le_iff_toNat_le, hb]

theorem le_high (hb : b.toNat = bits + 0x80) (hbits : bits < 64) : b ≤ 0xBF := by
  simp only [UInt8.le_iff_toNat_le, hb]
  change bits + 0x80 ≤ 0xBF
  omega

end Continuation

/-! ## Characters -/

section Encoding

variable {c : Char} {v : Nat}

theorem utf8EncodeChar_one (hv : c.val.toNat = v) (h : v ≤ 0x7F) :
    String.utf8EncodeChar c = [UInt8.ofNat v] := by
  rw [String.utf8EncodeChar, hv, if_pos h]

theorem utf8EncodeChar_two (hv : c.val.toNat = v) (hlow : 0x7F < v) (hhigh : v ≤ 0x7FF) :
    String.utf8EncodeChar c = [UInt8.ofNat (v / 64 % 32 + 0xC0), UInt8.ofNat (v % 64 + 0x80)] := by
  rw [String.utf8EncodeChar, hv, if_neg (by omega), if_pos hhigh]

theorem utf8EncodeChar_three (hv : c.val.toNat = v) (hlow : 0x7FF < v) (hhigh : v ≤ 0xFFFF) :
    String.utf8EncodeChar c =
      [UInt8.ofNat (v / 4096 % 16 + 0xE0), UInt8.ofNat (v / 64 % 64 + 0x80),
        UInt8.ofNat (v % 64 + 0x80)] := by
  rw [String.utf8EncodeChar, hv, if_neg (by omega), if_neg (by omega), if_pos hhigh]

theorem utf8EncodeChar_four (hv : c.val.toNat = v) (hlow : 0xFFFF < v) :
    String.utf8EncodeChar c =
      [UInt8.ofNat (v / 262144 % 8 + 0xF0), UInt8.ofNat (v / 4096 % 64 + 0x80),
        UInt8.ofNat (v / 64 % 64 + 0x80), UInt8.ofNat (v % 64 + 0x80)] := by
  rw [String.utf8EncodeChar, hv, if_neg (by omega), if_neg (by omega), if_neg (by omega)]

end Encoding

theorem toNat_ofNat {n : Nat} (h : n < 256) : (UInt8.ofNat n).toNat = n := by
  simpa using Nat.mod_eq_of_lt h

theorem toNat_ofNat_bits (n : Nat) : (UInt8.ofNat (n % 64 + 0x80)).toNat = n % 64 + 0x80 :=
  toNat_ofNat (by omega)

variable {v : Nat} (found : List (Option Char))

theorem foldl_next_one (hv : v ≤ 0x7F) :
    [UInt8.ofNat v].foldl Progress.next ⟨found, none⟩ = ⟨some (Char.ofNat v) :: found, none⟩ := by
  have hlead := lead_one (b := UInt8.ofNat v) (by rw [toNat_ofNat] <;> omega)
  rw [toNat_ofNat (by omega)] at hlead
  simp only [List.foldl_cons, List.foldl_nil, Progress.next, Progress.start, hlead]

theorem foldl_next_two (hlow : 0x7F < v) (hhigh : v ≤ 0x7FF) :
    [UInt8.ofNat (v / 64 % 32 + 0xC0), UInt8.ofNat (v % 64 + 0x80)].foldl Progress.next
        ⟨found, none⟩ = ⟨some (Char.ofNat v) :: found, none⟩ := by
  have h0 := toNat_ofNat (show v / 64 % 32 + 0xC0 < 256 by omega)
  have h1 := toNat_ofNat_bits v
  rw [List.foldl_cons, next_lead (lead_two (by omega) (by omega)), List.foldl_cons,
    next_last h1 (low_le h1) (le_high h1 (by omega)), h0, List.foldl_nil]
  congr 4
  omega

theorem foldl_next_three (hlow : 0x7FF < v) (hhigh : v ≤ 0xFFFF) (hvalid : v < 0xD800 ∨ 0xDFFF < v) :
    [UInt8.ofNat (v / 4096 % 16 + 0xE0), UInt8.ofNat (v / 64 % 64 + 0x80),
        UInt8.ofNat (v % 64 + 0x80)].foldl Progress.next ⟨found, none⟩ =
      ⟨some (Char.ofNat v) :: found, none⟩ := by
  have h0 := toNat_ofNat (show v / 4096 % 16 + 0xE0 < 256 by omega)
  have h1 := toNat_ofNat_bits (v / 64)
  have h2 := toNat_ofNat_bits v
  have hfrom : (if (UInt8.ofNat (v / 4096 % 16 + 0xE0)).toNat = 0xE0 then 0xA0 else 0x80) ≤
      UInt8.ofNat (v / 64 % 64 + 0x80) := by
    split
    next hfirst =>
      rw [UInt8.le_iff_toNat_le, h1]
      change 0xA0 ≤ _
      omega
    next => exact low_le h1
  have hto : UInt8.ofNat (v / 64 % 64 + 0x80) ≤
      if (UInt8.ofNat (v / 4096 % 16 + 0xE0)).toNat = 0xED then 0x9F else 0xBF := by
    split
    next hsurrogate =>
      rw [UInt8.le_iff_toNat_le, h1]
      change _ ≤ 0x9F
      omega
    next => exact le_high h1 (by omega)
  rw [List.foldl_cons, next_lead (lead_three (by omega) (by omega)), List.foldl_cons,
    next_more h1 hfrom hto, List.foldl_cons, next_last h2 (low_le h2) (le_high h2 (by omega)), h0,
    List.foldl_nil]
  congr 4
  omega

theorem foldl_next_four (hlow : 0xFFFF < v) (hvalid : v < 0x110000) :
    [UInt8.ofNat (v / 262144 % 8 + 0xF0), UInt8.ofNat (v / 4096 % 64 + 0x80),
        UInt8.ofNat (v / 64 % 64 + 0x80), UInt8.ofNat (v % 64 + 0x80)].foldl Progress.next
        ⟨found, none⟩ = ⟨some (Char.ofNat v) :: found, none⟩ := by
  have h0 := toNat_ofNat (show v / 262144 % 8 + 0xF0 < 256 by omega)
  have h1 := toNat_ofNat_bits (v / 4096)
  have h2 := toNat_ofNat_bits (v / 64)
  have h3 := toNat_ofNat_bits v
  have hfrom : (if (UInt8.ofNat (v / 262144 % 8 + 0xF0)).toNat = 0xF0 then 0x90 else 0x80) ≤
      UInt8.ofNat (v / 4096 % 64 + 0x80) := by
    split
    next hfirst =>
      rw [UInt8.le_iff_toNat_le, h1]
      change 0x90 ≤ _
      omega
    next => exact low_le h1
  have hto : UInt8.ofNat (v / 4096 % 64 + 0x80) ≤
      if (UInt8.ofNat (v / 262144 % 8 + 0xF0)).toNat = 0xF4 then 0x8F else 0xBF := by
    split
    next hlast =>
      rw [UInt8.le_iff_toNat_le, h1]
      change _ ≤ 0x8F
      omega
    next => exact le_high h1 (by omega)
  rw [List.foldl_cons, next_lead (lead_four (by omega) (by omega)), List.foldl_cons,
    next_more h1 hfrom hto, List.foldl_cons, next_more h2 (low_le h2) (le_high h2 (by omega)),
    List.foldl_cons, next_last h3 (low_le h3) (le_high h3 (by omega)), h0, List.foldl_nil]
  congr 4
  omega

/-- The bytes of a character give the character, where no other has begun. -/
theorem foldl_next_char (c : Char) :
    (String.utf8EncodeChar c).foldl Progress.next ⟨found, none⟩ = ⟨some c :: found, none⟩ := by
  have hc : Char.ofNat c.val.toNat = c := Char.ofNat_toNat c
  have hvalid : c.val.toNat < 0xD800 ∨ 0xDFFF < c.val.toNat ∧ c.val.toNat < 0x110000 := c.valid
  obtain h1 | h2 | h3 | h4 : c.val.toNat ≤ 0x7F ∨ (0x7F < c.val.toNat ∧ c.val.toNat ≤ 0x7FF) ∨
      (0x7FF < c.val.toNat ∧ c.val.toNat ≤ 0xFFFF) ∨ 0xFFFF < c.val.toNat := by
    omega
  · rw [utf8EncodeChar_one rfl h1, foldl_next_one found h1, hc]
  · rw [utf8EncodeChar_two rfl h2.1 h2.2, foldl_next_two found h2.1 h2.2, hc]
  · rw [utf8EncodeChar_three rfl h3.1 h3.2, foldl_next_three found h3.1 h3.2 (by omega), hc]
  · rw [utf8EncodeChar_four rfl h4, foldl_next_four found h4 (by omega), hc]

/-! ## Texts -/

theorem encode_cons (c : Char) (t : Text) :
    encode (c :: t) = String.utf8EncodeChar c ++ encode t :=
  List.flatMap_cons

theorem foldl_next_encode (found : List (Option Char)) (t : Text) :
    (encode t).foldl Progress.next ⟨found, none⟩ = ⟨(t.map some).reverse ++ found, none⟩ := by
  induction t generalizing found with
  | nil => rfl
  | cons c t ih =>
      calc
        (encode (c :: t)).foldl Progress.next ⟨found, none⟩ =
            (encode t).foldl Progress.next ⟨some c :: found, none⟩ := by
          rw [encode_cons, List.foldl_append, foldl_next_char]
        _ = ⟨(t.map some).reverse ++ some c :: found, none⟩ := ih _
        _ = ⟨((c :: t).map some).reverse ++ found, none⟩ := by simp

/-- An encoded text is read without a replacement. -/
theorem scan_encode (t : Text) : scan (encode t) = t.map some := by
  have hfold := foldl_next_encode [] t
  rw [List.append_nil] at hfold
  rw [scan, hfold, Progress.finish]
  simp

theorem decode?_encode (t : Text) : decode? (encode t) = some t := by
  rw [decode?, scan_encode]
  induction t with
  | nil => rfl
  | cons c t ih =>
      rw [List.map_cons, List.mapM_cons, ih]
      rfl

end VersionStamp.Utf8
