import VersionStamp.Version

namespace VersionStamp

/-!
# Snapshots in the order of packages

The comparison of dpkg takes two texts apart into words without digits and the numbers behind them,
and compares these in turn. Within a word a tilde comes before everything else, also before the end.
What two texts have in common in front of characters that are no digits makes no difference, so a
snapshot is compared with its base version at the tilde behind it, and two snapshots of a base
version are compared at their dates.
-/

namespace PackageOrder

/-- Two lists compared place by place, with `none` behind the end of the shorter one. -/
def inTurn {α : Type} (compare : Option α → Option α → Ordering) (xs ys : List α) : Ordering :=
  (List.zipWithAll compare xs ys).foldr Ordering.then .eq

/-- The rank of a character within a word. The end of the word has rank 0. -/
def rank : Option Char → Int
  | none => 0
  | some c => if c = '~' then -1 else if c.isAlpha then c.toNat else c.toNat + 256

def compareRanks (c d : Option Char) : Ordering :=
  Ord.compare (rank c) (rank d)

def compareWords : Text → Text → Ordering :=
  inTurn compareRanks

/-- The number that digits are, whether or not it has zeros in front. -/
def number (digits : Text) : Nat :=
  Nat.ofDigitChars 10 digits 0

structure Part where
  word : Text := []
  digits : Text := []
  deriving DecidableEq

def Part.compare (p q : Part) : Ordering :=
  (compareWords p.word q.word).then (Ord.compare (number p.digits) (number q.digits))

/-- The comparison of the parts. A part that is missing is empty. -/
def compareParts : List Part → List Part → Ordering :=
  inTurn fun p q => (p.getD {}).compare (q.getD {})

def push (c : Char) (parts : List Part) : List Part :=
  let first := parts.headD {}
  if !c.isDigit then { first with word := c :: first.word } :: parts.tail
  else if first.word = [] then { first with digits := c :: first.digits } :: parts.tail
  else ⟨[], [c]⟩ :: parts

def parts (t : Text) : List Part :=
  t.foldr push []

def compare (s t : Text) : Ordering :=
  compareParts (parts s) (parts t)

example : compare "1.3.0~rc1" "1.3.0" = .lt := by decide

example : compare "1.10+b" "1.09z" = .gt := by decide

example : compare "1.0a" "1.00+" = .lt := by decide

/-! ## What makes no difference -/

section InTurn

variable {α : Type} {compare : Option α → Option α → Ordering}

theorem inTurn_eq (hnone : compare none none = .eq) (xs ys : List α) :
    inTurn compare xs ys = (compare xs.head? ys.head?).then (inTurn compare xs.tail ys.tail) := by
  cases xs with
  | nil => cases ys <;> simp [inTurn, hnone]
  | cons x xs => cases ys <;> cases xs <;> rfl

theorem inTurn_self (hself : ∀ x, compare x x = .eq) (xs : List α) :
    inTurn compare xs xs = .eq := by
  induction xs with
  | nil => rfl
  | cons x xs ih => rw [inTurn_eq (hself none), hself, Ordering.eq_then, List.tail_cons, ih]

end InTurn

variable {c : Char} {s t digits rest : Text}

theorem compareRanks_self (c : Option Char) : compareRanks c c = .eq :=
  Std.compare_self

theorem compareWords_eq (s t : Text) :
    compareWords s t = (compareRanks s.head? t.head?).then (compareWords s.tail t.tail) :=
  inTurn_eq (compareRanks_self none) s t

theorem compareWords_cons_self (c : Char) (s t : Text) :
    compareWords (c :: s) (c :: t) = compareWords s t := by
  calc
    compareWords (c :: s) (c :: t) =
        (compareRanks (some c) (some c)).then (compareWords s t) := compareWords_eq _ _
    _ = compareWords s t := by rw [compareRanks_self, Ordering.eq_then]

theorem Part.compare_self (p : Part) : p.compare p = .eq := by
  have hwords : compareWords p.word p.word = .eq := inTurn_self compareRanks_self p.word
  rw [Part.compare, hwords, Std.compare_self, Ordering.eq_then]

theorem compareParts_eq (ps qs : List Part) :
    compareParts ps qs =
      ((ps.headD {}).compare (qs.headD {})).then (compareParts ps.tail qs.tail) := by
  rw [compareParts, inTurn_eq (Part.compare_self {})]
  simp

theorem compareParts_cons_self (p : Part) (ps qs : List Part) :
    compareParts (p :: ps) (p :: qs) = compareParts ps qs := by
  calc
    compareParts (p :: ps) (p :: qs) = (p.compare p).then (compareParts ps qs) :=
      compareParts_eq _ _
    _ = compareParts ps qs := by rw [Part.compare_self, Ordering.eq_then]

/-- A character in front that is no digit belongs to the first word. -/
theorem compareParts_push (hc : c.isDigit = false) (ps qs : List Part) :
    compareParts (push c ps) (push c qs) = compareParts ps qs := by
  rw [compareParts_eq, compareParts_eq ps qs]
  simp [push, hc, Part.compare, compareWords_cons_self]

def EndsDigits (t : Text) : Prop :=
  ∀ c, t.head? = some c → c.isDigit = false

theorem endsDigits_cons (hc : c.isDigit = false) (t : Text) : EndsDigits (c :: t) := by
  intro d hd
  rwa [← Option.some.inj hd]

theorem parts_cons (c : Char) (t : Text) : parts (c :: t) = push c (parts t) := rfl

/-- Digits that are not followed by another one are a part of their own. -/
theorem parts_digits_append (hdigits : ∀ c ∈ digits, c.isDigit = true) (hne : digits ≠ [])
    (hrest : EndsDigits rest) : parts (digits ++ rest) = ⟨[], digits⟩ :: parts rest := by
  induction digits with
  | nil => exact absurd rfl hne
  | cons c digits ih =>
      have hc : c.isDigit = true := hdigits c List.mem_cons_self
      rw [List.cons_append, parts_cons]
      by_cases hdigits' : digits = []
      · subst hdigits'
        cases rest with
        | nil => simp [parts, push, hc]
        | cons d rest =>
            have hd : d.isDigit = false := hrest d rfl
            simp [parts_cons, push, hc, hd]
      · rw [ih (fun d hd => hdigits d (List.mem_cons_of_mem c hd)) hdigits']
        simp [push, hc]

theorem endsDigits_append (hs : EndsDigits s) (ht : EndsDigits t) : EndsDigits (s ++ t) := by
  cases s with
  | nil => exact ht
  | cons d s => exact endsDigits_cons (hs d rfl) (s ++ t)

/-- The digits in front of a text are split off from what follows them. -/
theorem exists_digits_append (hc : c.isDigit = true) (t : Text) :
    ∃ digits back, c :: t = digits ++ back ∧ (∀ d ∈ digits, d.isDigit = true) ∧ digits ≠ [] ∧
      EndsDigits back := by
  refine ⟨(c :: t).takeWhile Char.isDigit, (c :: t).dropWhile Char.isDigit,
    List.takeWhile_append_dropWhile.symm, List.all_eq_true.mp List.all_takeWhile, ?_, ?_⟩
  · simp [hc]
  · intro d hd
    simpa [hd] using List.head?_dropWhile_not Char.isDigit (c :: t)

/-- What two texts begin with makes no difference if neither of them goes on with a digit. The
induction takes off a character that is no digit, or else all the digits up to the next such one. -/
theorem compare_append (hs : EndsDigits s) (ht : EndsDigits t) (front : Text) :
    compare (front ++ s) (front ++ t) = compare s t := by
  induction hlength : front.length using Nat.strongRecOn generalizing front with
  | ind n ih =>
  cases front with
  | nil => rfl
  | cons c front =>
      by_cases hc : c.isDigit = true
      · obtain ⟨digits, back, hsplit, hdigits, hne, hback⟩ := exists_digits_append hc front
        have hshorter : back.length < n := by
          have hpos := List.length_pos_iff.mpr hne
          rw [← hlength, hsplit, List.length_append]
          omega
        calc
          compare (c :: front ++ s) (c :: front ++ t) =
              compare (digits ++ (back ++ s)) (digits ++ (back ++ t)) := by
            rw [hsplit, List.append_assoc, List.append_assoc]
          _ = compare (back ++ s) (back ++ t) := by
            rw [compare, parts_digits_append hdigits hne (endsDigits_append hback hs),
              parts_digits_append hdigits hne (endsDigits_append hback ht), compareParts_cons_self]
            rfl
          _ = compare s t := ih back.length hshorter back rfl
      · have hshorter : front.length < n := by
          rw [← hlength]
          exact Nat.lt_succ_self _
        calc
          compare (c :: front ++ s) (c :: front ++ t) = compare (front ++ s) (front ++ t) :=
            compareParts_push (by simpa using hc) _ _
          _ = compare s t := ih front.length hshorter front rfl

/-- A tilde comes before the end. -/
theorem compare_append_tilde (t rest : Text) : compare (t ++ '~' :: rest) t = .lt := by
  have htilde : EndsDigits ('~' :: rest) := endsDigits_cons (by decide) rest
  have hend : EndsDigits [] := nofun
  calc
    compare (t ++ '~' :: rest) t = compare (t ++ '~' :: rest) (t ++ []) := by rw [List.append_nil]
    _ = compare ('~' :: rest) [] := compare_append htilde hend t
    _ = .lt := by
      rw [compare, parts_cons, compareParts_eq]
      rfl

/-- Numbers behind the same character are compared before what follows them. -/
theorem compare_numbers {digits digits' rest rest' : Text} (hc : c.isDigit = false)
    (hdigits : ∀ d ∈ digits, d.isDigit = true) (hne : digits ≠ []) (hrest : EndsDigits rest)
    (hdigits' : ∀ d ∈ digits', d.isDigit = true) (hne' : digits' ≠ []) (hrest' : EndsDigits rest') :
    compare (c :: (digits ++ rest)) (c :: (digits' ++ rest')) =
      (Ord.compare (number digits) (number digits')).then (compare rest rest') := by
  calc
    compare (c :: (digits ++ rest)) (c :: (digits' ++ rest')) =
        compare (digits ++ rest) (digits' ++ rest') := compareParts_push hc _ _
    _ = (Ord.compare (number digits) (number digits')).then (compare rest rest') := by
      rw [compare, parts_digits_append hdigits hne hrest, parts_digits_append hdigits' hne' hrest',
        compareParts_eq]
      rfl

end PackageOrder

/-! ## Dates -/

structure Numeral (width : Nat) where
  digits : Text
  isDigit : ∀ c ∈ digits, c.isDigit = true
  length_eq : digits.length = width

namespace Numeral

def value {width : Nat} (n : Numeral width) : Nat :=
  PackageOrder.number n.digits

theorem ne_nil {width : Nat} (n : Numeral (width + 1)) : n.digits ≠ [] := by
  intro hnil
  have hlength := n.length_eq
  simp [hnil] at hlength

end Numeral

structure WrittenDate where
  year : Numeral 4
  month : Numeral 2
  day : Numeral 2

namespace WrittenDate

def text (d : WrittenDate) : Text :=
  d.year.digits ++ '-' :: (d.month.digits ++ '-' :: d.day.digits)

def Earlier (d e : WrittenDate) : Prop :=
  d.year.value < e.year.value ∨ d.year.value = e.year.value ∧
    (d.month.value < e.month.value ∨ d.month.value = e.month.value ∧ d.day.value < e.day.value)

instance (d e : WrittenDate) : Decidable (d.Earlier e) :=
  inferInstanceAs (Decidable (_ ∨ _ ∧ (_ ∨ _ ∧ _)))

variable {first second : WrittenDate} {rest rest' : Text}

open PackageOrder

/-- Behind a tilde dates are compared before what follows them. -/
theorem compare_text (hrest : EndsDigits rest) (hrest' : EndsDigits rest') :
    PackageOrder.compare ('~' :: (first.text ++ rest)) ('~' :: (second.text ++ rest')) =
      (Ord.compare first.year.value second.year.value).then
        ((Ord.compare first.month.value second.month.value).then
          ((Ord.compare first.day.value second.day.value).then
            (PackageOrder.compare rest rest'))) := by
  have hdash : ∀ t : Text, EndsDigits ('-' :: t) := endsDigits_cons (by decide)
  simp only [text, List.append_assoc, List.cons_append]
  rw [compare_numbers (by decide) first.year.isDigit first.year.ne_nil (hdash _)
      second.year.isDigit second.year.ne_nil (hdash _),
    compare_numbers (by decide) first.month.isDigit first.month.ne_nil (hdash _)
      second.month.isDigit second.month.ne_nil (hdash _),
    compare_numbers (by decide) first.day.isDigit first.day.ne_nil hrest
      second.day.isDigit second.day.ne_nil hrest']
  rfl

/-- A snapshot of an earlier day comes first, whatever follows the dates. -/
theorem compare_text_of_earlier (h : first.Earlier second) (hrest : EndsDigits rest)
    (hrest' : EndsDigits rest') :
    PackageOrder.compare ('~' :: (first.text ++ rest)) ('~' :: (second.text ++ rest')) = .lt := by
  rw [compare_text hrest hrest']
  rcases h with hyear | ⟨hyear, hmonth | ⟨hmonth, hday⟩⟩
  · rw [Nat.compare_eq_lt.mpr hyear, Ordering.lt_then]
  · rw [Nat.compare_eq_eq.mpr hyear, Ordering.eq_then, Nat.compare_eq_lt.mpr hmonth,
      Ordering.lt_then]
  · rw [Nat.compare_eq_eq.mpr hyear, Ordering.eq_then, Nat.compare_eq_eq.mpr hmonth,
      Ordering.eq_then, Nat.compare_eq_lt.mpr hday, Ordering.lt_then]

end WrittenDate

namespace Version

open PackageOrder

/-- A snapshot comes before its base version, whatever its date and hash are, and snapshots of a
base version come in the order of their dates, whatever their hashes are. -/
theorem snapshot_precedes (b : BaseVersion) :
    (∀ date hash, PackageOrder.compare (snapshot b date hash).render b.text = .lt) ∧
    ∀ first second : WrittenDate, first.Earlier second → ∀ hash hash',
      PackageOrder.compare (snapshot b first.text hash).render
        (snapshot b second.text hash').render = .lt := by
  have hrender : ∀ date hash, (snapshot b date hash).render =
      b.text ++ '~' :: (date ++ '~' :: 'g' :: (hash ++ ("~snapshot" : Text))) := by
    intro date hash
    simp [render]
  have htilde : ∀ t : Text, EndsDigits ('~' :: t) := endsDigits_cons (by decide)
  constructor
  · intro date hash
    rw [hrender]
    exact compare_append_tilde b.text _
  · intro first second h hash hash'
    rw [hrender, hrender]
    calc
      PackageOrder.compare
          (b.text ++ '~' :: (first.text ++ '~' :: 'g' :: (hash ++ ("~snapshot" : Text))))
          (b.text ++ '~' :: (second.text ++ '~' :: 'g' :: (hash' ++ ("~snapshot" : Text)))) =
          PackageOrder.compare ('~' :: (first.text ++ '~' :: 'g' :: (hash ++ ("~snapshot" : Text))))
            ('~' :: (second.text ++ '~' :: 'g' :: (hash' ++ ("~snapshot" : Text)))) :=
        compare_append (htilde _) (htilde _) b.text
      _ = .lt := WrittenDate.compare_text_of_earlier h (htilde _) (htilde _)

def alphaBase : BaseVersion :=
  ⟨"1.3~~α.09", by decide⟩

def newYearsEve : WrittenDate where
  year := ⟨"0999", List.all_eq_true.mp rfl, rfl⟩
  month := ⟨"12", List.all_eq_true.mp rfl, rfl⟩
  day := ⟨"31", List.all_eq_true.mp rfl, rfl⟩

def newYear : WrittenDate where
  year := ⟨"1000", List.all_eq_true.mp rfl, rfl⟩
  month := ⟨"01", List.all_eq_true.mp rfl, rfl⟩
  day := ⟨"01", List.all_eq_true.mp rfl, rfl⟩

theorem snapshot_precedes_newYear :
    newYearsEve.Earlier newYear ∧
      PackageOrder.compare "1.3~~α.09~0999-12-31~g9f~snapshot"
        "1.3~~α.09~1000-01-01~g0a~snapshot" = .lt := by
  have hearlier : newYearsEve.Earlier newYear := by decide
  exact ⟨hearlier, (snapshot_precedes alphaBase).2 _ _ hearlier "9f" "0a"⟩

end Version

end VersionStamp
