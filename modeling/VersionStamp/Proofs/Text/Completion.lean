import VersionStamp.Proofs.Text.Utf8

namespace VersionStamp.Utf8

/-!
# Completing a character

What has been found does not depend on what comes behind it. So bytes complete a character that has
begun exactly if they give this character and nothing else, and with the bytes before them they are
its UTF-8 form: what a lead byte says of the next bytes leaves out all others.
-/

/-! ## What is found is only added to -/

namespace Progress

variable {s : Progress} {found : List (Option Char)} {b : UInt8} {bytes : Bytes}

def onto (s : Progress) (found : List (Option Char)) : Progress :=
  ⟨s.found ++ found, s.pending⟩

theorem start_onto : (s.onto found).start b = (s.start b).onto found := by
  simp only [start, onto]
  cases lead b <;> rfl

theorem next_onto : (s.onto found).next b = (s.next b).onto found := by
  obtain ⟨before, pending⟩ := s
  cases pending with
  | none => exact start_onto
  | some p =>
      simp only [next, onto]
      split
      next => split <;> rfl
      next => exact start_onto (s := ⟨none :: before, none⟩)

theorem foldl_onto : bytes.foldl next (s.onto found) = (bytes.foldl next s).onto found := by
  induction bytes generalizing s with
  | nil => rfl
  | cons b bytes ih => rw [List.foldl_cons, next_onto, ih, List.foldl_cons]

theorem finish_onto : (s.onto found).finish = found.reverse ++ s.finish := by
  obtain ⟨before, pending⟩ := s
  cases pending <;> simp [finish, onto]

/-- If one character only has been found, it is the one that was found before, and the bytes have
found nothing. -/
theorem eq_nothing_of_foldl_onto {x y : Option Char}
    (h : bytes.foldl next (s.onto [x]) = ⟨[y], none⟩) : bytes.foldl next s = {} ∧ x = y := by
  rw [foldl_onto] at h
  generalize bytes.foldl next s = r at h
  obtain ⟨found, pending⟩ := r
  obtain ⟨hfound, rfl⟩ := Progress.mk.inj h
  have hlength := congrArg List.length hfound
  obtain rfl : found = [] := by simpa using hlength
  exact ⟨rfl, List.singleton_inj.mp hfound⟩

theorem next_ne_nothing : s.next b ≠ {} := by
  have hstart (s : Progress) : s.start b ≠ {} := by
    rw [start]
    cases lead b <;> simp
  rw [next]
  split
  next => exact hstart s
  next =>
    split
    next => split <;> simp
    next => exact hstart _

theorem eq_nil_of_foldl (h : bytes.foldl next s = {}) : bytes = [] := by
  rcases List.eq_nil_or_concat bytes with rfl | ⟨front, b, rfl⟩
  · rfl
  · rw [List.concat_eq_append, List.foldl_append] at h
    exact absurd h next_ne_nothing

end Progress

theorem finish_foldl (c : Option Char) (bytes : Bytes) :
    (bytes.foldl Progress.next ⟨[c], none⟩).finish = c :: scan bytes := by
  have honto : (⟨[c], none⟩ : Progress) = Progress.onto {} [c] := rfl
  calc
    (bytes.foldl Progress.next ⟨[c], none⟩).finish =
        ((bytes.foldl Progress.next {}).onto [c]).finish := by rw [honto, Progress.foldl_onto]
    _ = c :: scan bytes := Progress.finish_onto ..

theorem scan_of_foldl {front : Bytes} {c : Option Char}
    (h : front.foldl Progress.next {} = ⟨[c], none⟩) (bytes : Bytes) :
    scan (front ++ bytes) = c :: scan bytes := by
  calc
    scan (front ++ bytes) = (bytes.foldl Progress.next ⟨[c], none⟩).finish := by
      rw [scan, List.foldl_append, h]
    _ = c :: scan bytes := finish_foldl c bytes

/-- The bytes of a character are read as it, whatever follows them. -/
theorem scan_append_char (c : Char) (bytes : Bytes) :
    scan (String.utf8EncodeChar c ++ bytes) = some c :: scan bytes :=
  scan_of_foldl (foldl_next_char [] c) bytes

/-- Where a character stands, no other one does. -/
theorem append_utf8EncodeChar_inj {c d : Char} {rest rest' : Bytes}
    (h : String.utf8EncodeChar c ++ rest = String.utf8EncodeChar d ++ rest') :
    c = d ∧ rest = rest' := by
  have hscan := congrArg scan h
  rw [scan_append_char, scan_append_char] at hscan
  obtain rfl := Option.some.inj (List.cons.inj hscan).1
  exact ⟨rfl, List.append_cancel_left h⟩

/-! ## Characters that have begun -/

namespace Partial

def Accepts (p : Partial) (b : UInt8) : Prop :=
  p.low ≤ b ∧ b ≤ p.high

def extended (p : Partial) (b : UInt8) : Partial :=
  ⟨p.value * 64 + (b.toNat - 0x80), p.missing - 1, 0x80, 0xBF⟩

/-- The bytes with which the reading of a character ends. -/
inductive Completes : Partial → Bytes → Char → Prop
  | last {p : Partial} {b : UInt8} (hb : p.Accepts b) (hlast : p.missing ≤ 1) :
      Completes p [b] (Char.ofNat (p.extended b).value)
  | more {p : Partial} {b : UInt8} {bytes : Bytes} {c : Char} (hb : p.Accepts b)
      (hmore : ¬ p.missing ≤ 1) (hrest : Completes (p.extended b) bytes c) :
      Completes p (b :: bytes) c

variable {p : Partial} {found : List (Option Char)} {b : UInt8} {bytes : Bytes} {c : Char}

theorem next_last (hb : p.Accepts b) (hlast : p.missing ≤ 1) :
    Progress.next ⟨found, some p⟩ b = ⟨some (Char.ofNat (p.extended b).value) :: found, none⟩ :=
  (if_pos hb).trans (if_pos hlast)

theorem next_more (hb : p.Accepts b) (hmore : ¬ p.missing ≤ 1) :
    Progress.next ⟨found, some p⟩ b = ⟨found, some (p.extended b)⟩ :=
  (if_pos hb).trans (if_neg hmore)

theorem next_piece (hb : ¬ p.Accepts b) :
    Progress.next ⟨found, some p⟩ b = Progress.next ⟨none :: found, none⟩ b :=
  if_neg hb

/-- Bytes that give one character and nothing else complete it. -/
theorem completes_of_foldl (h : bytes.foldl Progress.next ⟨[], some p⟩ = ⟨[some c], none⟩) :
    p.Completes bytes c := by
  induction bytes generalizing p with
  | nil => simp at h
  | cons b bytes ih =>
      rw [List.foldl_cons] at h
      by_cases hb : p.Accepts b
      · by_cases hlast : p.missing ≤ 1
        -- Once the character is complete, a byte behind it would give something else besides.
        · rw [next_last hb hlast] at h
          obtain ⟨hnothing, hchar⟩ := Progress.eq_nothing_of_foldl_onto (s := {}) h
          obtain rfl := Progress.eq_nil_of_foldl hnothing
          obtain rfl := Option.some.inj hchar
          exact .last hb hlast
        · rw [next_more hb hlast] at h
          exact .more hb hlast (ih h)
      -- A byte that cannot come next leaves a piece, which nothing takes away again.
      · rw [next_piece hb] at h
        have hread : (b :: bytes).foldl Progress.next (Progress.onto {} [none]) =
            ⟨[some c], none⟩ := h
        cases (Progress.eq_nothing_of_foldl_onto hread).2

theorem Completes.of_last (h : p.Completes bytes c) (hlast : p.missing ≤ 1) :
    ∃ b, p.Accepts b ∧ bytes = [b] ∧ c = Char.ofNat (p.extended b).value := by
  cases h with
  | last hb => exact ⟨_, hb, rfl, rfl⟩
  | more _ hmore => exact absurd hlast hmore

theorem Completes.of_more (h : p.Completes bytes c) (hmore : ¬ p.missing ≤ 1) :
    ∃ b rest, p.Accepts b ∧ bytes = b :: rest ∧ (p.extended b).Completes rest c := by
  cases h with
  | last _ hlast => exact absurd hlast hmore
  | more hb _ hrest => exact ⟨_, _, hb, rfl, hrest⟩

/-- What has begun can be completed, if some byte is accepted next. -/
theorem exists_completes (h : p.low ≤ p.high) : ∃ bytes c, p.Completes bytes c := by
  generalize hmissing : p.missing = n
  induction n generalizing p with
  | zero => exact ⟨_, _, .last ⟨UInt8.le_refl _, h⟩ (by omega)⟩
  | succ n ih =>
      by_cases hlast : p.missing ≤ 1
      · exact ⟨_, _, .last ⟨UInt8.le_refl _, h⟩ hlast⟩
      · have hrange : (p.extended p.low).low ≤ (p.extended p.low).high :=
          show (0x80 : UInt8) ≤ 0xBF by decide
        obtain ⟨bytes, c, hrest⟩ := ih hrange (show p.missing - 1 = n by omega)
        exact ⟨_, c, .more ⟨UInt8.le_refl _, h⟩ hlast hrest⟩

end Partial

/-! ## Lead bytes -/

variable {b : UInt8} {c : Char} {bytes : Bytes} {p : Partial}

theorem lead_illFormed (h : 0x80 ≤ b.toNat) (hother : b.toNat < 0xC2 ∨ 0xF4 < b.toNat) :
    lead b = .illFormed := by
  have h80 : ¬ b.toNat < 0x80 := by omega
  rcases hother with hlow | hhigh
  · simp [lead, UInt8.lt_iff_toNat_lt, h80, hlow]
  · have hC2 : ¬ b.toNat < 0xC2 := by omega
    have hE0 : ¬ b.toNat < 0xE0 := by omega
    have hF0 : ¬ b.toNat < 0xF0 := by omega
    have hF4 : ¬ b.toNat < 0xF4 := by omega
    have hne : b.toNat ≠ 0xE0 ∧ b.toNat ≠ 0xED ∧ b.toNat ≠ 0xF0 ∧ b.toNat ≠ 0xF4 := by omega
    simp [lead, UInt8.lt_iff_toNat_lt, ← UInt8.toNat_inj, h80, hC2, hE0, hF0, hF4, hne]

/-- The lead bytes of two, three and four bytes. -/
theorem range_of_lead (h : lead b = .begins p) :
    (0xC2 ≤ b.toNat ∧ b.toNat < 0xE0) ∨ (0xE0 ≤ b.toNat ∧ b.toNat < 0xF0) ∨
      (0xF0 ≤ b.toNat ∧ b.toNat ≤ 0xF4) := by
  have hmore : 0x80 ≤ b.toNat := by
    refine Nat.le_of_not_lt fun hone => ?_
    simp [lead_one hone] at h
  have hrange : ¬ (b.toNat < 0xC2 ∨ 0xF4 < b.toNat) := by
    intro hother
    simp [lead_illFormed hmore hother] at h
  omega

theorem toNat_of_valid {v : Nat} (h : v < 0xD800 ∨ 0xDFFF < v ∧ v < 0x110000) :
    (Char.ofNat v).val.toNat = v := by
  rw [Char.ofNat, dif_pos h]
  rfl

theorem ofNat_eq (b : UInt8) {n : Nat} (h : n = b.toNat) : UInt8.ofNat n = b := by
  rw [h, UInt8.ofNat_toNat]

section

variable {P : Prop} [Decidable P] {x y : UInt8}

theorem le_of_ite_le (h : (if P then x else y) ≤ b) (hyx : y ≤ x) :
    y.toNat ≤ b.toNat ∧ (P → x.toNat ≤ b.toNat) := by
  split at h
  next hP => exact ⟨Nat.le_trans hyx h, fun _ => h⟩
  next hP => exact ⟨h, fun hP' => absurd hP' hP⟩

theorem le_of_le_ite (h : b ≤ if P then x else y) (hxy : x ≤ y) :
    b.toNat ≤ y.toNat ∧ (P → b.toNat ≤ x.toNat) := by
  split at h
  next hP => exact ⟨Nat.le_trans h hxy, fun _ => h⟩
  next hP => exact ⟨h, fun hP' => absurd hP' hP⟩

end

-- `p` stays a variable until its value is needed: unifying with `b.toNat - 0xC0` would unfold it.
theorem encode_of_two (h : lead b = .begins p) (hlow : 0xC2 ≤ b.toNat) (hhigh : b.toNat < 0xE0)
    (hbytes : p.Completes bytes c) : String.utf8EncodeChar c = b :: bytes := by
  have hp := Lead.begins.inj (h.symm.trans (lead_two hlow hhigh))
  obtain ⟨b1, ⟨hfrom, hto⟩, rfl, hc⟩ := hbytes.of_last (by simp [hp])
  have hvalue : (p.extended b1).value = (b.toNat - 0xC0) * 64 + (b1.toNat - 0x80) := by
    rw [hp]
    rfl
  rw [hp] at hfrom hto
  change 0x80 ≤ b1.toNat at hfrom
  change b1.toNat ≤ 0xBF at hto
  rw [hc, hvalue, utf8EncodeChar_two (toNat_of_valid (by omega)) (by omega) (by omega),
    ofNat_eq b (by omega), ofNat_eq b1 (by omega)]

theorem encode_of_three (h : lead b = .begins p) (hlow : 0xE0 ≤ b.toNat) (hhigh : b.toNat < 0xF0)
    (hbytes : p.Completes bytes c) : String.utf8EncodeChar c = b :: bytes := by
  have hp := Lead.begins.inj (h.symm.trans (lead_three hlow hhigh))
  obtain ⟨b1, rest, ⟨hfrom, hto⟩, rfl, hrest⟩ := hbytes.of_more (by simp [hp])
  obtain ⟨b2, ⟨hfrom2, hto2⟩, rfl, hc⟩ := hrest.of_last (show p.missing - 1 ≤ 1 by simp [hp])
  have hvalue : ((p.extended b1).extended b2).value =
      ((b.toNat - 0xE0) * 64 + (b1.toNat - 0x80)) * 64 + (b2.toNat - 0x80) := by
    rw [hp]
    rfl
  rw [hp] at hfrom hto
  -- Below A0 there is a shorter form, and above 9F there are the surrogates.
  have hfrom1 : 0x80 ≤ b1.toNat ∧ (b.toNat = 0xE0 → 0xA0 ≤ b1.toNat) :=
    le_of_ite_le hfrom (by decide)
  have hto1 : b1.toNat ≤ 0xBF ∧ (b.toNat = 0xED → b1.toNat ≤ 0x9F) :=
    le_of_le_ite hto (by decide)
  change 0x80 ≤ b2.toNat at hfrom2
  change b2.toNat ≤ 0xBF at hto2
  rw [hc, hvalue, utf8EncodeChar_three (toNat_of_valid (by omega)) (by omega) (by omega),
    ofNat_eq b (by omega), ofNat_eq b1 (by omega), ofNat_eq b2 (by omega)]

theorem encode_of_four (h : lead b = .begins p) (hlow : 0xF0 ≤ b.toNat) (hhigh : b.toNat ≤ 0xF4)
    (hbytes : p.Completes bytes c) : String.utf8EncodeChar c = b :: bytes := by
  have hp := Lead.begins.inj (h.symm.trans (lead_four hlow hhigh))
  obtain ⟨b1, after1, ⟨hfrom, hto⟩, rfl, hafter1⟩ := hbytes.of_more (by simp [hp])
  obtain ⟨b2, after2, ⟨hfrom2, hto2⟩, rfl, hafter2⟩ :=
    hafter1.of_more (show ¬ p.missing - 1 ≤ 1 by simp [hp])
  obtain ⟨b3, ⟨hfrom3, hto3⟩, rfl, hc⟩ :=
    hafter2.of_last (show p.missing - 1 - 1 ≤ 1 by simp [hp])
  have hvalue : (((p.extended b1).extended b2).extended b3).value =
      (((b.toNat - 0xF0) * 64 + (b1.toNat - 0x80)) * 64 + (b2.toNat - 0x80)) * 64 +
        (b3.toNat - 0x80) := by
    rw [hp]
    rfl
  rw [hp] at hfrom hto
  have hfrom1 : 0x80 ≤ b1.toNat ∧ (b.toNat = 0xF0 → 0x90 ≤ b1.toNat) :=
    le_of_ite_le hfrom (by decide)
  have hto1 : b1.toNat ≤ 0xBF ∧ (b.toNat = 0xF4 → b1.toNat ≤ 0x8F) :=
    le_of_le_ite hto (by decide)
  change 0x80 ≤ b2.toNat at hfrom2
  change b2.toNat ≤ 0xBF at hto2
  change 0x80 ≤ b3.toNat at hfrom3
  change b3.toNat ≤ 0xBF at hto3
  rw [hc, hvalue, utf8EncodeChar_four (toNat_of_valid (by omega)) (by omega),
    ofNat_eq b (by omega), ofNat_eq b1 (by omega), ofNat_eq b2 (by omega), ofNat_eq b3 (by omega)]

/-- What completes a lead byte is a character with it. -/
theorem utf8EncodeChar_of_completes (h : lead b = .begins p) (hbytes : p.Completes bytes c) :
    String.utf8EncodeChar c = b :: bytes := by
  rcases range_of_lead h with ⟨hlow, hhigh⟩ | ⟨hlow, hhigh⟩ | ⟨hlow, hhigh⟩
  · exact encode_of_two h hlow hhigh hbytes
  · exact encode_of_three h hlow hhigh hbytes
  · exact encode_of_four h hlow hhigh hbytes

/-- A lead byte that is complete is all of its character. -/
theorem utf8EncodeChar_of_lead (h : lead b = .complete c) : String.utf8EncodeChar c = [b] := by
  rcases Nat.lt_or_ge b.toNat 0x80 with hone | hmore
  · obtain rfl := Lead.complete.inj ((lead_one hone).symm.trans h)
    rw [String.utf8EncodeChar, toNat_of_valid (by omega), if_pos (by omega), ofNat_eq b rfl]
  · exfalso
    obtain hother | htwo | hthree | hfour :
        (b.toNat < 0xC2 ∨ 0xF4 < b.toNat) ∨ (0xC2 ≤ b.toNat ∧ b.toNat < 0xE0) ∨
          (0xE0 ≤ b.toNat ∧ b.toNat < 0xF0) ∨ (0xF0 ≤ b.toNat ∧ b.toNat ≤ 0xF4) := by
      omega
    · simp [lead_illFormed hmore hother] at h
    · simp [lead_two htwo.1 htwo.2] at h
    · simp [lead_three hthree.1 hthree.2] at h
    · simp [lead_four hfour.1 hfour.2] at h

theorem completes_of_utf8EncodeChar (h : lead b = .begins p)
    (hc : String.utf8EncodeChar c = b :: bytes) : p.Completes bytes c := by
  have hread := foldl_next_char [] c
  rw [hc, List.foldl_cons, next_lead h] at hread
  exact Partial.completes_of_foldl hread

/-- Behind a lead byte some byte is accepted. -/
theorem low_le_high_of_lead (h : lead b = .begins p) : p.low ≤ p.high := by
  rcases range_of_lead h with ⟨hlow, hhigh⟩ | ⟨hlow, hhigh⟩ | ⟨hlow, hhigh⟩
  · rw [Lead.begins.inj (h.symm.trans (lead_two hlow hhigh))]
    exact (by decide : (0x80 : UInt8) ≤ 0xBF)
  · rw [Lead.begins.inj (h.symm.trans (lead_three hlow hhigh))]
    by_cases hfirst : b.toNat = 0xE0
    · simp [hfirst]
    · rw [if_neg hfirst]
      dsimp only
      split <;> decide
  · rw [Lead.begins.inj (h.symm.trans (lead_four hlow hhigh))]
    by_cases hfirst : b.toNat = 0xF0
    · simp [hfirst]
    · rw [if_neg hfirst]
      dsimp only
      split <;> decide

end VersionStamp.Utf8
