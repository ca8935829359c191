import VersionStamp.Git.Checkout
import VersionStamp.Proofs.Failure
import VersionStamp.Proofs.Git.Identification
import VersionStamp.Proofs.Git.Number
import VersionStamp.Proofs.Text.IllFormed

namespace VersionStamp.Git

/-!
# Which abbreviations stand for one id

Two lengths make the abbreviation of the commit at HEAD: one by the number of objects, and one from
a search for the first digits that no other id has. The search is made only without a setting, and
one that fails is passed over in silence. The abbreviation is ambiguous exactly where the length by
the number of objects is too short and there is no other.
-/

namespace Abbreviation

variable {d : Database} {id : ObjectId} {configuration : Configuration}

/-! ## The search -/

/-- The length that is found is one of those tried, and its digits have exactly one match. -/
theorem uniqueLength_eq_ok {tries length found : Nat}
    (h : uniqueLength d id tries length = .ok found) :
    length ≤ found ∧ found < length + tries ∧ ∃ other, matchOf d id found = .one other := by
  induction tries generalizing length with
  | zero => simp [uniqueLength] at h
  | succ tries ih =>
      rw [uniqueLength] at h
      split at h
      next =>
        obtain ⟨hle, hlt, hone⟩ := ih h
        exact ⟨by omega, by omega, hone⟩
      next other hone =>
        obtain rfl : length = found := by simpa using h
        exact ⟨Nat.le_refl length, by omega, other, hone⟩
      next => simp at h
      next => simp at h

theorem matchOf_of_le {length : Nat} (h : leastLength ≤ length) :
    matchOf d id length = d.find (id.digits.take length) :=
  if_neg (Nat.not_lt.mpr h)

/-- The digits that are found are those of no other object. -/
theorem identifies_of_lengthFrom {length found : Nat} (hid : d.Lists id)
    (hleast : leastLength ≤ length) (h : lengthFrom d id length = .ok found) :
    d.Identifies (id.digits.take found) id := by
  obtain ⟨hle, -, other, hone⟩ := uniqueLength_eq_ok h
  rw [matchOf_of_le (Nat.le_trans hleast hle)] at hone
  exact Database.identifies_of_find hid (List.take_prefix found id.digits) hone

/-- In an orderly database the beginning of a listed id finds its object if no other one has it, and
several objects otherwise. -/
theorem matchOf_of_isOrderly {length : Nat} (ho : d.IsOrderly) (hid : d.Lists id)
    (hleast : leastLength ≤ length) :
    matchOf d id length = .one id ∧ d.Identifies (id.digits.take length) id ∨
      matchOf d id length = .several ∧ ¬ d.Identifies (id.digits.take length) id := by
  have hbegin := List.take_prefix length id.digits
  rw [matchOf_of_le hleast]
  by_cases hunique : d.Identifies (id.digits.take length) id
  · exact Or.inl ⟨Database.find_of_identifies ho hid hbegin hunique, hunique⟩
  · refine Or.inr ⟨?_, hunique⟩
    cases hfind : d.find (id.digits.take length) with
    | nothing => exact absurd hfind (Database.find_ne_nothing hid hbegin)
    | one other => exact absurd (Database.identifies_of_find hid hbegin hfind) hunique
    | several => rfl
    | malformed => exact absurd hfind (Database.find_ne_malformed ho)

-- By induction on the tries: the search goes on as long as the digits are ambiguous, so all that
-- matters is whether those of the last length are.
theorem exists_uniqueLength_iff {tries length : Nat} (ho : d.IsOrderly) (hid : d.Lists id)
    (hleast : leastLength ≤ length) :
    (∃ found, uniqueLength d id (tries + 1) length = .ok found) ↔
      d.Identifies (id.digits.take (length + tries)) id := by
  induction tries generalizing length with
  | zero =>
      rw [uniqueLength]
      rcases matchOf_of_isOrderly ho hid hleast with ⟨hone, hunique⟩ | ⟨hseveral, hunique⟩
      · simpa [hone] using hunique
      · simpa [hseveral, uniqueLength] using hunique
  | succ tries ih =>
      rw [uniqueLength]
      rcases matchOf_of_isOrderly ho hid hleast with ⟨hone, hunique⟩ | ⟨hseveral, -⟩
      · have hlonger : id.digits.take length <+: id.digits.take (length + (tries + 1)) :=
          List.take_prefix_take_left (by omega)
        simpa [hone] using hunique.of_prefix hlonger
      · simp only [hseveral]
        rw [ih (Nat.le_succ_of_le hleast), Nat.succ_add_eq_add_succ]

/-- In an orderly database the search succeeds unless another id has all digits but the last. -/
theorem exists_lengthFrom_iff (ho : d.IsOrderly) (hid : d.Lists id) :
    (∃ found, lengthFrom d id startLength = .ok found) ↔
      d.Identifies (id.digits.take (ObjectId.length - 1)) id :=
  exists_uniqueLength_iff ho hid (by decide)

/-! ## The length by the number of objects -/

/-- The length in bits is the least one with which the number can be written. -/
theorem bitLength_le_iff {count bits : Nat} :
    bitLength count ≤ bits ↔ count < Nat.pow 2 bits := by
  rw [bitLength]
  split
  next hzero =>
    rw [hzero]
    exact iff_of_true (Nat.zero_le bits) (Nat.pow_pos (Nat.zero_lt_succ 1))
  next hne => exact Nat.log2_lt hne

theorem automaticLength_le {count : Nat} (h : count < Nat.pow 2 64) :
    automaticLength count ≤ ObjectId.length := by
  have hbits := bitLength_le_iff.mpr h
  rw [automaticLength, ObjectId.length]
  omega

theorem automaticLength_le_take {count length : Nat} (h : count < Nat.pow 2 64)
    (hle : automaticLength count ≤ length) :
    automaticLength count ≤ (id.digits.take length).length := by
  rw [List.length_take, id.length_digits]
  exact Nat.le_min.mpr ⟨hle, automaticLength_le h⟩

/-! ## The number of unique digits -/

/-- Whether the length is left to the program: there is no setting, or it says `auto`. -/
def IsImplicit (configuration : Configuration) : Prop :=
  ∀ value, configuration.value? settingName = some value →
    ∃ text, Octets.text? (value.getD []) = some text ∧ isAutomatic text

theorem eq_of_toLower_eq_a {c : Char} (h : c.toLower = 'a') : c = 'a' ∨ c = 'A' := by
  by_cases hupper : 'A' ≤ c ∧ c ≤ 'Z'
  · have hrange : 65 ≤ c.toNat ∧ c.toNat ≤ 90 := hupper
    have hmem : c.toNat ∈ List.range' 65 26 := by
      rw [List.mem_range'_1]
      omega
    have hall : ∀ n ∈ List.range' 65 26, (Char.ofNat n).toLower = 'a' → Char.ofNat n = 'A' := by
      decide
    have hc := hall c.toNat hmem
    rw [Char.ofNat_toNat] at hc
    exact .inr (hc h)
  · have hsame : c.toLower = c := dif_neg hupper
    exact .inl (hsame.symm.trans h)

/-- The word for an automatic length is no number, however its letters are cased. -/
theorem integer?_of_isAutomatic {value : Octets} {text : Text}
    (htext : Octets.text? value = some text) (hauto : isAutomatic text) :
    Configuration.integer? value = none := by
  have hbytes : Octets.bytes value = Utf8.encode text := Utf8.decode?_eq_some_iff.mp htext
  have hlower : text.map Char.toLower = "auto".toList := by simpa [isAutomatic] using hauto
  cases text with
  | nil => cases hlower
  | cons first more =>
      have hfirst := eq_of_toLower_eq_a (List.cons.inj hlower).1
      cases value with
      | nil => rcases hfirst with rfl | rfl <;> cases hbytes
      | cons c rest =>
          apply Configuration.integer?_eq_none
          rcases hfirst with rfl | rfl
          · exact .inl (List.cons.inj hbytes).1
          · exact .inr (List.cons.inj hbytes).1

/-- Without a setting a failed search for unique digits counts as none. -/
theorem uniqueCount_of_unset (hvalue : configuration.value? settingName = none) :
    uniqueCount configuration d id =
      match lengthFrom d id startLength with
      | .ok length => length
      | .error _ => 0 := by
  rw [uniqueCount, uniqueDigits, hvalue]
  cases hfound : lengthFrom d id startLength with
  | error problem => rfl
  | ok found =>
      have hle : found ≤ id.digits.length := by
        have hlt := (uniqueLength_eq_ok hfound).2.1
        rw [id.length_digits]
        simp only [startLength, ObjectId.length] at hlt
        omega
      exact List.length_take_of_le hle

/-- For `auto` the search fails, since the word is no number. -/
theorem uniqueDigits_of_isAutomatic {value : Option Octets} {text : Text}
    (hvalue : configuration.value? settingName = some value)
    (htext : Octets.text? (value.getD []) = some text) (hauto : isAutomatic text) :
    uniqueDigits configuration d id = .error (.unmappedSetting (Configuration.shownValue value)) := by
  have hnone : value.bind Configuration.integer? = none := by
    cases value with
    | none => rfl
    | some word => exact integer?_of_isAutomatic htext hauto
  simp [uniqueDigits, hvalue, hnone]

/-! ## Both lengths -/

/-- Whether the search is made, and ends with a length. -/
def Finds (configuration : Configuration) (d : Database) (id : ObjectId) (length : Nat) : Prop :=
  configuration.value? settingName = none ∧ lengthFrom d id startLength = .ok length

theorem isExplicit_of_isImplicit (hset : IsImplicit configuration) :
    isExplicit configuration = .ok false := by
  cases hvalue : configuration.value? settingName with
  | none => rw [isExplicit, hvalue]
  | some value =>
      obtain ⟨text, htext, hauto⟩ := hset value hvalue
      simp [isExplicit, hvalue, htext, hauto]

/-- Where the length is left to the program, the number of objects and the number of unique digits
make it. -/
theorem shorten_of_isImplicit (hset : IsImplicit configuration) :
    shorten configuration d id =
      (fun count => id.digits.take (max (automaticLength count) (uniqueCount configuration d id)))
        <$> d.count := by
  rw [shorten, isExplicit_of_isImplicit hset]
  cases d.count <;> rfl

theorem uniqueCount_of_finds {found : Nat} (h : Finds configuration d id found) :
    uniqueCount configuration d id = found := by
  rw [uniqueCount_of_unset h.1, h.2]

theorem uniqueCount_of_not_finds (hset : IsImplicit configuration)
    (h : ¬ ∃ found, Finds configuration d id found) : uniqueCount configuration d id = 0 := by
  cases hvalue : configuration.value? settingName with
  | none =>
      rw [uniqueCount_of_unset hvalue]
      cases hfound : lengthFrom d id startLength with
      | ok found => exact absurd ⟨found, hvalue, hfound⟩ h
      | error problem => rfl
  | some value =>
      obtain ⟨text, htext, hauto⟩ := hset value hvalue
      rw [uniqueCount, uniqueDigits_of_isAutomatic hvalue htext hauto]

/-- What an abbreviation is, with a unique length and without one. -/
theorem shorten_eq_ok {short : Text} (hset : IsImplicit configuration)
    (h : shorten configuration d id = .ok short) :
    ∃ count, d.count = .ok count ∧
      ((∃ found, Finds configuration d id found ∧
          short = id.digits.take (max (automaticLength count) found)) ∨
        (¬ ∃ found, Finds configuration d id found) ∧
          short = id.digits.take (automaticLength count)) := by
  rw [shorten_of_isImplicit hset] at h
  obtain ⟨count, hcount, rfl⟩ := map_eq_ok_iff.mp h
  refine ⟨count, hcount, ?_⟩
  by_cases hfinds : ∃ found, Finds configuration d id found
  · obtain ⟨found, hfound⟩ := hfinds
    exact Or.inl ⟨found, hfound, by rw [uniqueCount_of_finds hfound]⟩
  · exact Or.inr ⟨hfinds, by rw [uniqueCount_of_not_finds hset hfinds, Nat.max_zero]⟩

end Abbreviation

end VersionStamp.Git
