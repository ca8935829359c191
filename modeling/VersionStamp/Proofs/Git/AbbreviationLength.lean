import Mathlib.Algebra.Group.Nat.Defs
import Mathlib.Order.Bounds.Basic
import VersionStamp.Proofs.Git.ShortHash

namespace VersionStamp.Git

/-!
# The length of abbreviations

The length for `n` objects is the least `L` from seven on with `n < 4 ^ L`. It is reckoned from the
zeros in front of a word, and no step of that leaves the words. Where the setting leaves the length
to the program, the commit at HEAD is abbreviated to this length, or to its unique digits if these
are found and are more.
-/

namespace Abbreviation

variable {d : Database} {id : ObjectId} {configuration : Configuration}

/-! ## The least length -/

theorem automaticLength_le_iff {count length : Nat} :
    automaticLength count ≤ length ↔ 7 ≤ length ∧ count < 4 ^ length := by
  have hhalf : (bitLength count + 1) / 2 ≤ length ↔ bitLength count ≤ 2 * length := by omega
  have hpow : Nat.pow 2 (2 * length) = 4 ^ length := Nat.pow_mul 2 2 length
  calc
    automaticLength count ≤ length ↔ 7 ≤ length ∧ bitLength count ≤ 2 * length := by
      rw [automaticLength, Nat.max_le, hhalf]
    _ ↔ 7 ≤ length ∧ count < 4 ^ length := by rw [bitLength_le_iff, hpow]

/-- Among the lengths of seven digits or more, it is the least whose power of four is above the
number. -/
theorem isLeast_automaticLength (count : Nat) :
    IsLeast {length | 7 ≤ length ∧ count < 4 ^ length} (automaticLength count) :=
  ⟨automaticLength_le_iff.mp (Nat.le_refl _), fun _ h => automaticLength_le_iff.mpr h⟩

theorem monotone_automaticLength : Monotone automaticLength := by
  intro count more hle
  obtain ⟨hleast, hlt⟩ := automaticLength_le_iff.mp (Nat.le_refl (automaticLength more))
  exact automaticLength_le_iff.mpr ⟨hleast, Nat.lt_of_le_of_lt hle hlt⟩

/-! ## The length in words -/

def checkedSub {w : Nat} (a b : BitVec w) : Option (BitVec w) :=
  if a.usubOverflow b then none else some (a - b)

def checkedAdd {w : Nat} (a b : BitVec w) : Option (BitVec w) :=
  if a.uaddOverflow b then none else some (a + b)

def wordBits? (count : BitVec 64) : Option (BitVec 32) :=
  checkedSub 64 (count.clz.setWidth 32)

/-- The length by the number of objects, reckoned in words. -/
def wordLength? (count : BitVec 64) : Option (BitVec 64) := do
  let bits ← wordBits? count
  let more ← checkedAdd (bits.setWidth 64) 1
  some (if more / 2 ≤ 7 then 7 else more / 2)

theorem checkedSub_eq_some {w : Nat} {a b : BitVec w} (h : b.toNat ≤ a.toNat) :
    checkedSub a b = some (a - b) :=
  if_neg (by simpa [BitVec.usubOverflow] using h)

theorem checkedAdd_eq_some {w : Nat} {a b : BitVec w} (h : a.toNat + b.toNat < 2 ^ w) :
    checkedAdd a b = some (a + b) :=
  if_neg (by simpa [BitVec.uaddOverflow] using h)

theorem toNat_width (w : Nat) : (w : BitVec w).toNat = w := by
  simp

theorem toNat_clz_le {w : Nat} (x : BitVec w) : x.clz.toNat ≤ w := by
  have hle := BitVec.le_def.mp (BitVec.clz_le (x := x))
  rwa [toNat_width] at hle

/-- The bits of a number and the zeros in front of it fill the word. -/
theorem bitLength_add_toNat_clz {w : Nat} (x : BitVec w) :
    bitLength x.toNat + x.clz.toNat = w := by
  have hupper : bitLength x.toNat ≤ w - x.clz.toNat :=
    bitLength_le_iff.mpr BitVec.toNat_lt_two_pow_sub_clz
  by_cases hzero : x = 0#w
  · have hclz : x.clz.toNat = w := by
      rw [BitVec.clz_eq_iff_eq_zero.mpr hzero, toNat_width]
    omega
  · have hpos : 0 < w := by
      apply Nat.pos_of_ne_zero
      rintro rfl
      exact hzero (BitVec.eq_nil x)
    have hlower : ¬ bitLength x.toNat ≤ w - 1 - x.clz.toNat := by
      rw [bitLength_le_iff, Nat.not_lt]
      exact BitVec.two_pow_sub_clz_le_toNat_of_ne_zero hpos hzero
    have hbelow : x.clz.toNat < w := by
      have hlt := BitVec.lt_def.mp (BitVec.clz_lt_iff_ne_zero.mpr hzero)
      rwa [toNat_width] at hlt
    omega

/-- The leading zeros are never more than the bits of the word, so no difference falls below zero.
-/
theorem exists_wordBits? (count : BitVec 64) :
    ∃ bits, wordBits? count = some bits ∧ bits.toNat = bitLength count.toNat := by
  have hfill := bitLength_add_toNat_clz count
  have hzeros : (count.clz.setWidth 32).toNat = count.clz.toNat := by
    rw [BitVec.toNat_setWidth]
    omega
  have hle : (count.clz.setWidth 32).toNat ≤ (64 : BitVec 32).toNat := by
    rw [hzeros]
    exact toNat_clz_le count
  refine ⟨_, checkedSub_eq_some hle, ?_⟩
  rw [BitVec.toNat_sub_of_le (BitVec.le_def.mpr hle), hzeros]
  exact Nat.sub_eq_of_eq_add hfill.symm

theorem toNat_ite_le (a b : BitVec 64) : (if b ≤ a then a else b).toNat = max a.toNat b.toNat := by
  split
  next hle => exact (Nat.max_eq_left (BitVec.le_def.mp hle)).symm
  next hlt =>
    have hle : a.toNat ≤ b.toNat := Nat.le_of_not_le fun h => hlt (BitVec.le_def.mpr h)
    exact (Nat.max_eq_right hle).symm

/-- No step of the reckoning in words overflows, and what it gives is the length reckoned with
numbers. -/
theorem wordLength?_eq (count : BitVec 64) :
    (wordLength? count).map BitVec.toNat = some (automaticLength count.toNat) := by
  obtain ⟨bits, hbits, hlength⟩ := exists_wordBits? count
  have hfill := bitLength_add_toNat_clz count
  have hwide : (bits.setWidth 64).toNat = bitLength count.toNat := by
    rw [BitVec.toNat_setWidth]
    omega
  have hadd : (bits.setWidth 64).toNat + (1 : BitVec 64).toNat < 2 ^ 64 := by
    change (bits.setWidth 64).toNat + 1 < 2 ^ 64
    omega
  have hhalf : ((bits.setWidth 64 + 1) / 2).toNat = (bitLength count.toNat + 1) / 2 := by
    rw [BitVec.toNat_udiv, BitVec.toNat_add_of_lt hadd, hwide]
    rfl
  have hword : wordLength? count =
      some (if (bits.setWidth 64 + 1) / 2 ≤ 7 then 7 else (bits.setWidth 64 + 1) / 2) := by
    simp only [wordLength?, hbits, checkedAdd_eq_some hadd, Option.bind_eq_bind, Option.bind_some]
  calc
    (wordLength? count).map BitVec.toNat =
        some (max (7 : BitVec 64).toNat ((bits.setWidth 64 + 1) / 2).toNat) := by
      rw [hword, Option.map_some, toNat_ite_le]
    _ = some (max 7 ((bitLength count.toNat + 1) / 2)) := by
      rw [hhalf]
      rfl
    _ = some (automaticLength count.toNat) := rfl

/-! ## The length that is shown -/

/-- The length of an abbreviation among so many objects with so many unique digits. -/
def shownLength (count unique : Nat) : Nat :=
  min ObjectId.length (max (automaticLength count) unique)

theorem seven_le_shownLength (count unique : Nat) : 7 ≤ shownLength count unique := by
  rw [shownLength, automaticLength, ObjectId.length]
  omega

theorem length_take_shownLength (id : ObjectId) (count unique : Nat) :
    (id.digits.take (shownLength count unique)).length = shownLength count unique := by
  rw [List.length_take, id.length_digits]
  exact Nat.min_eq_left (Nat.min_le_left _ _)

/-- The bound by the length of an id makes no difference to the digits. -/
theorem take_shownLength (id : ObjectId) (count unique : Nat) :
    id.digits.take (shownLength count unique) =
      id.digits.take (max (automaticLength count) unique) := by
  calc
    id.digits.take (shownLength count unique) =
        id.digits.take (min (max (automaticLength count) unique) id.digits.length) := by
      rw [shownLength, id.length_digits, Nat.min_comm]
      rfl
    _ = id.digits.take (max (automaticLength count) unique) := List.take_eq_take_min.symm

theorem shorten_eq_shownLength (hset : IsImplicit configuration) :
    shorten configuration d id =
      (fun count => id.digits.take (shownLength count (uniqueCount configuration d id))) <$>
        d.count := by
  simp only [take_shownLength]
  exact shorten_of_isImplicit hset

end Abbreviation

namespace Checkout

open Abbreviation

/-- The length by the number of objects is the least whose power of four is above that number, it
never falls as objects are added, and no step in words of 64 bits leaves these. Where the length is
left to the program, the commit at HEAD is abbreviated to this length or to its unique digits,
whichever is more, and never to fewer than seven digits or to more than there are. -/
theorem shortHash_eq_take {c : Checkout} {head : Commit}
    (hset : IsImplicit c.configuration) (hhead : c.headCommit = .ok head) :
    (∀ count, IsLeast {length | 7 ≤ length ∧ count < 4 ^ length} (automaticLength count)) ∧
    Monotone automaticLength ∧
    (∀ count : BitVec 64,
      (wordLength? count).map BitVec.toNat = some (automaticLength count.toNat)) ∧
    (∀ count unique, 7 ≤ shownLength count unique ∧
      (head.id.digits.take (shownLength count unique)).length = shownLength count unique) ∧
    c.shortHash = (fun count => head.id.digits.take
      (shownLength count (uniqueCount c.configuration c.database head.id))) <$>
        c.database.count := by
  refine ⟨isLeast_automaticLength, monotone_automaticLength, wordLength?_eq,
    fun count unique => ⟨?_, ?_⟩, ?_⟩
  · exact seven_le_shownLength count unique
  · exact length_take_shownLength head.id count unique
  · rw [shortHash, hhead]
    exact shorten_eq_shownLength hset

def collidingUnset : Checkout :=
  { colliding with configuration := [] }

def collidingUnset.release : ObjectId :=
  ⟨colliding.releaseDigits, rfl, List.all_eq_true.mp rfl⟩

theorem lengths_collidingUnset :
    uniqueCount [] collidingUnset.database collidingUnset.release = 8 ∧
      collidingUnset.database.count.toOption = some 2 := by
  decide +kernel

/-- Seven digits would do for two objects, and eight are unique. -/
theorem shortHash_eq_take_collidingUnset :
    ∃ head, collidingUnset.headCommit = .ok head ∧
      collidingUnset.shortHash = .ok (head.id.digits.take 8) := by
  obtain ⟨head, hhead, hdigits⟩ := Option.map_eq_some_iff.mp answers_colliding.2.1
  have hhead' : collidingUnset.headCommit = .ok head := toOption_eq_some_iff.mp hhead
  have hid : head.id = collidingUnset.release := by
    rw [← Option.some_inj, ← ObjectId.ofDigits?_digits, hdigits]
    exact ObjectId.ofDigits?_digits collidingUnset.release
  obtain ⟨hunique, hcount⟩ := lengths_collidingUnset
  have hset : IsImplicit collidingUnset.configuration := nofun
  obtain ⟨-, -, -, -, hshort⟩ := shortHash_eq_take hset hhead'
  have hlength : shownLength 2
      (uniqueCount collidingUnset.configuration collidingUnset.database head.id) = 8 := by
    rw [hid]
    exact congrArg (shownLength 2) hunique
  refine ⟨head, hhead', ?_⟩
  rw [hshort, toOption_eq_some_iff.mp hcount, ← hlength]
  rfl

end Checkout

end VersionStamp.Git
