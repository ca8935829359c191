import VersionStamp.Git.Configuration

namespace VersionStamp.Git

/-!
# Numbers that are read

Written in decimal digits, a number that fits the word is read back, with a sign or without, up to
the first character that is no digit. A text that begins with a letter is no number.
-/

/-! ## Digits -/

theorem ten_le_of_digitValue? {c : Char} {value : Nat} (hdigit : c.isDigit = false)
    (h : digitValue? c = some value) : 10 ≤ value := by
  rw [digitValue?, if_neg (by simp [hdigit])] at h
  split at h
  next =>
    have hvalue := Option.some.inj h
    omega
  next =>
    have hvalue := Option.some.inj (Option.ite_none_right_eq_some.mp h).2
    omega

theorem digitValue?_of_isDigit {c : Char} (h : c.isDigit) :
    digitValue? c = some (c.toNat - '0'.toNat) :=
  if_pos h

/-- To base ten the digits are the ASCII digits. -/
theorem isDigitOf_ten (c : Char) : isDigitOf 10 c = c.isDigit := by
  cases hdigit : c.isDigit with
  | true =>
      have hle : c.toNat ≤ 57 := by
        simp only [Char.isDigit, Bool.and_eq_true, decide_eq_true_eq] at hdigit
        exact hdigit.2
      rw [isDigitOf, digitValue?_of_isDigit hdigit]
      apply decide_eq_true
      change c.toNat - 48 < 10
      omega
  | false =>
      rw [isDigitOf]
      split
      next value hvalue =>
        exact decide_eq_false (Nat.not_lt.mpr (ten_le_of_digitValue? hdigit hvalue))
      next => rfl

-- By induction on the digits, from any number that those in front of them have.
theorem foldl_digitValue? {digits : Octets} (h : ∀ c ∈ digits, c.isDigit) (n : Nat) :
    digits.foldl (fun n c => n * 10 + (digitValue? c).getD 0) n = Nat.ofDigitChars 10 digits n := by
  induction digits generalizing n with
  | nil => rfl
  | cons c digits ih =>
      have hc := digitValue?_of_isDigit (h c List.mem_cons_self)
      calc
        (c :: digits).foldl (fun n c => n * 10 + (digitValue? c).getD 0) n =
            Nat.ofDigitChars 10 digits (n * 10 + (digitValue? c).getD 0) :=
          ih (fun d hd => h d (List.mem_cons_of_mem c hd)) _
        _ = Nat.ofDigitChars 10 digits (10 * n + (c.toNat - '0'.toNat)) := by
          rw [hc, Nat.mul_comm, Option.getD_some]
        _ = Nat.ofDigitChars 10 (c :: digits) n := rfl

/-- The digits of a number have its value. -/
theorem digitsValue_ofNat (n : Nat) : digitsValue 10 (Text.ofNat n) = n := by
  have hdigits : ∀ c ∈ Text.ofNat n, c.isDigit :=
    fun _ => Nat.isDigit_of_mem_toDigits (by decide) (by decide)
  exact (foldl_digitValue? hdigits 0).trans (Nat.ofDigitChars_toDigits (by decide) (by decide))

theorem digitsValue_zeroPadded (width : Nat) (digits : Octets) :
    digitsValue 10 (Text.zeroPadded width digits) = digitsValue 10 digits := by
  rw [Text.zeroPadded]
  induction width - digits.length with
  | zero => rfl
  | succ zeros ih => exact ih

/-! ## Numbers that are written -/

theorem isSpace_of_isDigit {c : Char} (h : c.isDigit) : Octets.isSpace c = false := by
  rw [← Bool.not_eq_true, Octets.isSpace]
  simp only [Bool.or_eq_true, Bool.and_eq_true, beq_iff_eq, decide_eq_true_eq]
  rintro (rfl | ⟨-, hle⟩)
  · exact absurd h (by decide)
  · have hle' : c.toNat ≤ 13 := hle
    have hge : 48 ≤ c.toNat := by
      simp only [Char.isDigit, Bool.and_eq_true, decide_eq_true_eq] at h
      exact h.1
    omega

theorem takeSign_cons {c : Char} {rest : Octets} (hminus : c ≠ '-') (hplus : c ≠ '+') :
    takeSign (c :: rest) = (false, c :: rest) := by
  rw [takeSign]
  · intro _ heq
    exact hminus (List.cons.inj heq).1
  · intro _ heq
    exact hplus (List.cons.inj heq).1

section

variable {width : Nat} {t digits rest : Octets}

theorem takeWhile_digits (hdigits : ∀ c ∈ digits, c.isDigit)
    (hrest : ∀ c, rest.head? = some c → c.isDigit = false) :
    (digits ++ rest).takeWhile (isDigitOf 10) = digits := by
  have hall : ∀ c ∈ digits, isDigitOf 10 c := fun c hc => by rw [isDigitOf_ten, hdigits c hc]
  have hend : rest.takeWhile (isDigitOf 10) = [] := by
    cases rest with
    | nil => rfl
    | cons c rest =>
        apply List.takeWhile_cons_of_neg
        rw [isDigitOf_ten, hrest c rfl]
        exact Bool.false_ne_true
  rw [List.takeWhile_append_of_pos hall, hend, List.append_nil]

theorem readNumber?_eq_some {negative : Bool} {number : Int}
    (hsign : takeSign (t.dropWhile Octets.isSpace) = (negative, digits ++ rest))
    (hne : digits ≠ []) (hdigits : ∀ c ∈ digits, c.isDigit)
    (hrest : ∀ c, rest.head? = some c → c.isDigit = false)
    (hnumber : (if negative then -(digitsValue 10 digits : Int) else digitsValue 10 digits) =
      number) (hfits : fitsSigned width number) :
    readNumber? width (some 10) t = some (number, rest) := by
  have hempty : digits.isEmpty = false := List.isEmpty_eq_false_iff.mpr hne
  simp [readNumber?, hsign, takeWhile_digits hdigits hrest, hnumber, hempty, hfits]

theorem takeSign_digits (hne : digits ≠ []) (hdigits : ∀ c ∈ digits, c.isDigit) :
    takeSign ((digits ++ rest).dropWhile Octets.isSpace) = (false, digits ++ rest) := by
  cases digits with
  | nil => exact absurd rfl hne
  | cons c digits =>
      have hc := hdigits c List.mem_cons_self
      have hsign : ∀ sign : Char, sign.isDigit = false → c ≠ sign := by
        rintro sign hsign rfl
        exact Bool.false_ne_true (hsign.symm.trans hc)
      rw [List.cons_append, List.dropWhile_cons_of_neg (by simp [isSpace_of_isDigit hc])]
      exact takeSign_cons (hsign '-' (by decide)) (hsign '+' (by decide))

/-- Digits are read as the number that they write. -/
theorem readNumber?_digits (hne : digits ≠ []) (hdigits : ∀ c ∈ digits, c.isDigit)
    (hrest : ∀ c, rest.head? = some c → c.isDigit = false)
    (hfits : fitsSigned width (digitsValue 10 digits)) :
    readNumber? width (some 10) (digits ++ rest) = some ((digitsValue 10 digits : Int), rest) :=
  readNumber?_eq_some (takeSign_digits hne hdigits) hne hdigits hrest rfl hfits

/-- A written integer is read back, whatever follows that is no digit. -/
theorem readNumber?_ofInt {n : Int} (hrest : ∀ c, rest.head? = some c → c.isDigit = false)
    (hfits : fitsSigned width n) :
    readNumber? width (some 10) (Text.ofInt n ++ rest) = some (n, rest) := by
  have hdigits : ∀ m, ∀ c ∈ Text.ofNat m, c.isDigit :=
    fun m _ => Nat.isDigit_of_mem_toDigits (by decide) (by decide)
  have hne : ∀ m, Text.ofNat m ≠ [] := fun m => Nat.toDigits_ne_nil
  cases n with
  | ofNat m =>
      apply readNumber?_eq_some (takeSign_digits (hne m) (hdigits m)) (hne m) (hdigits m) hrest _
        hfits
      rw [digitsValue_ofNat]
      rfl
  | negSucc m =>
      have hsign : takeSign ((Text.ofInt (.negSucc m) ++ rest).dropWhile Octets.isSpace) =
          (true, Text.ofNat (m + 1) ++ rest) := rfl
      apply readNumber?_eq_some hsign (hne (m + 1)) (hdigits (m + 1)) hrest _ hfits
      rw [digitsValue_ofNat]
      rfl

end

/-! ## Texts that are no numbers -/

theorem announcedBase_cons {c : Char} {rest : Octets} (hzero : c ≠ '0') :
    announcedBase (c :: rest) = (10, c :: rest) := by
  rw [announcedBase]
  · intro x d more heq
    exact hzero (List.cons.inj heq).1
  · intro more heq
    exact hzero (List.cons.inj heq).1

theorem readNumber?_eq_none {width : Nat} {c : Char} (rest : Octets)
    (hspace : Octets.isSpace c = false) (hminus : c ≠ '-') (hplus : c ≠ '+')
    (hdigit : c.isDigit = false) :
    readNumber? width none (c :: rest) = none := by
  have hskip : (c :: rest).dropWhile Octets.isSpace = c :: rest :=
    List.dropWhile_cons_of_neg (by simp [hspace])
  have hzero : c ≠ '0' := by
    rintro rfl
    exact absurd hdigit (by decide)
  have htake : (c :: rest).takeWhile (isDigitOf 10) = [] :=
    List.takeWhile_cons_of_neg (by simp [isDigitOf_ten, hdigit])
  simp [readNumber?, hskip, takeSign_cons hminus hplus, announcedBase_cons hzero, htake]

/-- A value that begins with `a` or `A` is no number. -/
theorem Configuration.integer?_eq_none {c : Char} (rest : Octets)
    (h : UInt8.ofNat c.toNat = 97 ∨ UInt8.ofNat c.toNat = 65) :
    integer? (c :: rest) = none := by
  have hcode : c.toNat % 256 = 97 ∨ c.toNat % 256 = 65 := by
    rcases h with h | h
    · exact .inl (congrArg UInt8.toNat h)
    · exact .inr (congrArg UInt8.toNat h)
  have hspace : Octets.isSpace c = false := by
    rw [← Bool.not_eq_true, Octets.isSpace]
    simp only [Bool.or_eq_true, Bool.and_eq_true, beq_iff_eq, decide_eq_true_eq]
    rintro (rfl | ⟨-, hle⟩)
    · exact absurd hcode (by decide)
    · have hle' : c.toNat ≤ 13 := hle
      omega
  have hdigit : c.isDigit = false := by
    rw [← Bool.not_eq_true, Char.isDigit]
    simp only [Bool.and_eq_true, decide_eq_true_eq]
    rintro ⟨-, hle⟩
    have hle' : c.toNat ≤ 57 := hle
    omega
  have hne : ∀ sign : Char, ¬ (sign.toNat % 256 = 97 ∨ sign.toNat % 256 = 65) → c ≠ sign := by
    rintro sign hsign rfl
    exact hsign hcode
  have hread : readNumber? 64 none (c :: rest) = none :=
    readNumber?_eq_none rest hspace (hne '-' (by decide)) (hne '+' (by decide)) hdigit
  simp [integer?, hread]

end VersionStamp.Git
