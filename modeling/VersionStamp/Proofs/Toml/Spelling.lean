import VersionStamp.Toml.Value

namespace VersionStamp.Toml

/-!
# Spelling a string

Between double quotes a character stands for itself, unless it is a quote, a backslash or a control
character, or it is escaped: by a letter of its own, or by the digits of its number in either case.
Every text has a spelling, and every spelling of a text is read as that text.
-/

/-- The number that hexadecimal digits give behind those that have given a value. -/
def hexValue? (value : Nat) (digits : Text) : Option Nat :=
  digits.foldlM (fun value c => (hexDigit? c).map (value * 16 + ·)) value

/-- The first text between double quotes is the second one. -/
inductive Spells : Text → Text → Prop where
  | nil : Spells [] []
  | plain {spelling text : Text} (c : Char) (hplain : isPlain c) (hquote : c ≠ '"')
      (hescape : c ≠ '\\') (h : Spells spelling text) : Spells (c :: spelling) (c :: text)
  | letter {spelling text : Text} (letter c : Char) (hletter : escaped? letter = some c)
      (h : Spells spelling text) : Spells ('\\' :: letter :: spelling) (c :: text)
  | number {spelling text : Text} (mark : Char) (digits : Text) (c : Char)
      (hmark : (mark, digits.length) ∈ [('u', 4), ('U', 8)])
      (hdigits : hexValue? 0 digits = some c.toNat) (h : Spells spelling text) :
      Spells ('\\' :: mark :: (digits ++ spelling)) (c :: text)

/-! ## Every text has a spelling -/

def escapeChar (c : Char) : Text :=
  if c = '"' ∨ c = '\\' then ['\\', c]
  else if isPlain c then [c]
  else ['\\', 'u', '0', '0', Nat.digitChar (c.toNat / 16), Nat.digitChar (c.toNat % 16)]

def escape (t : Text) : Text :=
  t.flatMap escapeChar

theorem hexDigit?_digitChar : ∀ d < 16, hexDigit? (Nat.digitChar d) = some d := by
  decide

theorem lt_of_not_isPlain {c : Char} (h : ¬ isPlain c) : c.toNat < 256 := by
  simp only [isPlain, Bool.or_eq_true, Bool.and_eq_true, decide_eq_true_eq, bne_iff_ne, ne_eq] at h
  omega

theorem spells_escapeChar (c : Char) {spelling text : Text} (h : Spells spelling text) :
    Spells (escapeChar c ++ spelling) (c :: text) := by
  unfold escapeChar
  split
  next hc =>
    refine .letter c c ?_ h
    rcases hc with rfl | rfl <;> rfl
  next hc =>
    split
    next hplain => exact .plain c hplain (fun hq => hc (.inl hq)) (fun hb => hc (.inr hb)) h
    next hplain =>
      have hlt := lt_of_not_isPlain hplain
      have hhigh := hexDigit?_digitChar (c.toNat / 16) (by omega)
      have hlow := hexDigit?_digitChar (c.toNat % 16) (by omega)
      have hzero : hexDigit? '0' = some 0 := by decide
      refine .number 'u' ['0', '0', Nat.digitChar (c.toNat / 16), Nat.digitChar (c.toNat % 16)] c
        (by simp) ?_ h
      simp only [hexValue?, List.foldlM_cons, List.foldlM_nil, hzero, hhigh, hlow, Option.map_some,
        Option.bind_eq_bind, Option.bind_some, Option.pure_def, Option.some.injEq]
      omega

/-- There is a spelling of every text. -/
theorem spells_escape (t : Text) : Spells (escape t) t := by
  induction t with
  | nil => exact .nil
  | cons c t ih =>
      rw [escape, List.flatMap_cons]
      exact spells_escapeChar c ih

/-! ## Every spelling is read -/

section Reading

variable {found rest : Text} {c : Char}

theorem scalar?_toNat (c : Char) : scalar? c.toNat = some c := by
  have hvalid : c.toNat.isValidChar := c.valid
  rw [scalar?, if_pos hvalid, Char.ofNat_toNat]

/-- The digits of an escape are read as the character with their value. -/
theorem readBasic_number {value : Nat} {digits : Text} (hne : digits ≠ [])
    (h : hexValue? value digits = some c.toNat) :
    readBasic false (.number digits.length value) found (digits ++ rest) =
      readBasic false .plain (c :: found) rest := by
  induction digits generalizing value with
  | nil => exact absurd rfl hne
  | cons d digits ih =>
      obtain ⟨value', hvalue', hrest⟩ := Option.bind_eq_some_iff.mp h
      obtain ⟨digit, hdigit, rfl⟩ := Option.map_eq_some_iff.mp hvalue'
      cases digits with
      | nil =>
          have hc : value * 16 + digit = c.toNat := Option.some.inj hrest
          simp [readBasic, BasicMode.settle, hdigit, hc, scalar?_toNat]
      | cons d' digits =>
          rw [← ih (by simp) hrest]
          simp [readBasic, BasicMode.settle, hdigit]

/-- Every spelling is read as its text, up to the quote behind it. -/
theorem readBasic_spells {spelling text : Text} (h : Spells spelling text) :
    readBasic false .plain found (spelling ++ '"' :: rest) = some (found.reverse ++ text, rest) := by
  induction h generalizing found with
  | nil => simp [readBasic, BasicMode.settle]
  | plain c hplain hquote hescape h ih =>
      simp only [List.cons_append, readBasic, BasicMode.settle]
      simp [hplain, hquote, hescape, ih]
  | letter letter c hletter h ih =>
      have hu : letter ≠ 'u' := by
        rintro rfl
        cases hletter
      have hU : letter ≠ 'U' := by
        rintro rfl
        cases hletter
      simp [readBasic, BasicMode.settle, hu, hU, hletter, ih]
  | @number spelling text mark digits c hmark hdigits h ih =>
      have hne : digits ≠ [] := by
        rintro rfl
        simp at hmark
      have hstart : readBasic false .plain found
          ('\\' :: mark :: (digits ++ (spelling ++ '"' :: rest))) =
            readBasic false (.number digits.length 0) found
              (digits ++ (spelling ++ '"' :: rest)) := by
        simp only [List.mem_cons, Prod.mk.injEq, List.not_mem_nil, or_false] at hmark
        rcases hmark with ⟨rfl, hlength⟩ | ⟨rfl, hlength⟩
        · simp [readBasic, BasicMode.settle, hlength]
        · simp [readBasic, BasicMode.settle, hlength]
      calc
        readBasic false .plain found ('\\' :: mark :: (digits ++ spelling) ++ '"' :: rest) =
            readBasic false (.number digits.length 0) found
              (digits ++ (spelling ++ '"' :: rest)) := by
          rw [List.cons_append, List.cons_append, List.append_assoc, hstart]
        _ = readBasic false .plain (c :: found) (spelling ++ '"' :: rest) :=
          readBasic_number hne hdigits
        _ = some ((c :: found).reverse ++ text, rest) := ih
        _ = some (found.reverse ++ c :: text, rest) := by simp

/-- A string that is spelled is read, if there is no third quote behind an empty one. -/
theorem readString?_spells {spelling text : Text} (h : Spells spelling text)
    (hrest : rest.head? ≠ some '"') :
    readString? ('"' :: (spelling ++ '"' :: rest)) = some (text, rest) := by
  have hline : readLineString? ('"' :: (spelling ++ '"' :: rest)) = some (text, rest) := by
    rw [readLineString?, readBasic_spells h]
    rfl
  rw [← hline]
  cases h with
  | nil =>
      cases rest with
      | nil => rfl
      | cons c rest => simp_all [readString?]
  | plain c hplain hquote hescape h => simp [readString?, hquote]
  | letter letter c hletter h => simp [readString?]
  | number mark digits c hmark hdigits h => simp [readString?]

theorem readNode?_spells {spelling text : Text} (h : Spells spelling text)
    (hrest : rest.head? ≠ some '"') (limit depth : Nat) :
    readNode? limit depth ('"' :: (spelling ++ '"' :: rest)) =
      some (.scalar (.string text) ⟨'"' :: (spelling ++ '"' :: rest), rest⟩, rest) := by
  have hscalar : readScalar? ('"' :: (spelling ++ '"' :: rest)) = some (.string text, rest) := by
    rw [readScalar?, readString?_spells h hrest]
  have hnode : readNode? limit depth ('"' :: (spelling ++ '"' :: rest)) =
      (readScalar? ('"' :: (spelling ++ '"' :: rest))).map fun p =>
        (.scalar p.1 ⟨'"' :: (spelling ++ '"' :: rest), p.2⟩, p.2) := by
    cases depth <;> rfl
  rw [hnode, hscalar]
  rfl

end Reading

end VersionStamp.Toml
