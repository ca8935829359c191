import VersionStamp.Version

namespace VersionStamp

/-!
# Reading a printed version back

A base version is any text with a dot, so it may itself look like a snapshot. The date, the hash and
the word behind it have no tilde, though, so the last three tildes of a printed snapshot are the ones
that separate its parts. A tag without a tilde is no snapshot. Reading from the right end therefore
gives back every version that is printed from such parts, and nothing else.
-/

namespace Text

def splitLast? (c : Char) : Text → Option (Text × Text)
  | [] => none
  | d :: rest =>
      match splitLast? c rest with
      | some (front, back) => some (d :: front, back)
      | none => if d = c then some ([], rest) else none

/-- The pieces of a text between its last `n` characters `c`, or between all of them if there are
fewer. -/
def splitAtLast (c : Char) : Nat → Text → List Text
  | 0, t => [t]
  | n + 1, t =>
      match splitLast? c t with
      | some (front, back) => splitAtLast c n front ++ [back]
      | none => [t]

variable {c : Char} {t front back : Text}

theorem splitLast?_eq_none_iff : splitLast? c t = none ↔ c ∉ t := by
  induction t with
  | nil => simp [splitLast?]
  | cons d rest ih =>
      rw [splitLast?]
      cases hrest : splitLast? c rest with
      | some halves =>
          have hmem : c ∈ rest := by
            apply Decidable.byContradiction
            intro hc
            rw [ih.mpr hc] at hrest
            cases hrest
          simp [hmem]
      | none =>
          have hmem : c ∉ rest := ih.mp hrest
          simp [hmem, eq_comm]

theorem splitLast?_append (h : c ∉ back) : splitLast? c (front ++ c :: back) = some (front, back) := by
  induction front with
  | nil => simp [splitLast?, splitLast?_eq_none_iff.mpr h]
  | cons d front ih => simp [splitLast?, ih]

/-- A text is split at the last occurrence of the character. -/
theorem splitLast?_eq_some_iff :
    splitLast? c t = some (front, back) ↔ t = front ++ c :: back ∧ c ∉ back := by
  constructor
  · intro h
    induction t generalizing front with
    | nil => cases h
    | cons d rest ih =>
        rw [splitLast?] at h
        cases hrest : splitLast? c rest with
        | some halves =>
            rw [hrest] at h
            cases h
            obtain ⟨hsplit, hback⟩ := ih hrest
            exact ⟨congrArg (d :: ·) hsplit, hback⟩
        | none =>
            rw [hrest] at h
            obtain ⟨rfl, heq⟩ := Option.ite_none_right_eq_some.mp h
            cases heq
            exact ⟨rfl, splitLast?_eq_none_iff.mp hrest⟩
  · rintro ⟨rfl, hback⟩
    exact splitLast?_append hback

theorem splitAtLast_of_not_mem (h : c ∉ t) (n : Nat) : splitAtLast c n t = [t] := by
  cases n with
  | zero => rfl
  | succ n => rw [splitAtLast, splitLast?_eq_none_iff.mpr h]

theorem splitAtLast_append (h : c ∉ back) (n : Nat) :
    splitAtLast c (n + 1) (front ++ c :: back) = splitAtLast c n front ++ [back] := by
  rw [splitAtLast, splitLast?_append h]

theorem splitAtLast_ne_nil (c : Char) (n : Nat) (t : Text) : splitAtLast c n t ≠ [] := by
  cases n with
  | zero => simp [splitAtLast]
  | succ n =>
      rw [splitAtLast]
      split <;> simp

theorem not_mem_of_splitAtLast_eq_singleton {n : Nat} {piece : Text}
    (h : splitAtLast c (n + 1) t = [piece]) : t = piece ∧ c ∉ t := by
  rw [splitAtLast] at h
  cases hlast : splitLast? c t with
  | none =>
      rw [hlast] at h
      exact ⟨List.singleton_inj.mp h, splitLast?_eq_none_iff.mp hlast⟩
  | some halves =>
      rw [hlast] at h
      have hpieces : splitAtLast c n halves.1 ++ [halves.2] = [] ++ [piece] := h
      obtain ⟨hnil, -⟩ := List.append_inj' hpieces rfl
      exact absurd hnil (splitAtLast_ne_nil c n halves.1)

theorem exists_of_splitAtLast_eq_append {n : Nat} {piece : Text} (pieces : List Text)
    (hpieces : pieces ≠ []) (h : splitAtLast c (n + 1) t = pieces ++ [piece]) :
    ∃ front, t = front ++ c :: piece ∧ c ∉ piece ∧ splitAtLast c n front = pieces := by
  rw [splitAtLast] at h
  cases hlast : splitLast? c t with
  | none =>
      rw [hlast] at h
      have hsingle : [] ++ [t] = pieces ++ [piece] := h
      obtain ⟨hnil, -⟩ := List.append_inj' hsingle rfl
      exact absurd hnil.symm hpieces
  | some halves =>
      obtain ⟨front, back⟩ := halves
      rw [hlast] at h
      obtain ⟨hfront, hback⟩ := List.append_inj' h rfl
      obtain rfl := List.singleton_inj.mp hback
      obtain ⟨hsplit, hmem⟩ := splitLast?_eq_some_iff.mp hlast
      exact ⟨front, hsplit, hmem, hfront⟩

end Text

namespace Version

/-- A version whose tag, or whose date and hash, have no tilde. -/
def IsPlain : Version → Prop
  | .release tag => '~' ∉ tag
  | .snapshot _ date hash => '~' ∉ date ∧ '~' ∉ hash

instance : DecidablePred IsPlain
  | .release tag => inferInstanceAs (Decidable ('~' ∉ tag))
  | .snapshot _ date hash => inferInstanceAs (Decidable ('~' ∉ date ∧ '~' ∉ hash))

/-- The plain version that is printed as a text. -/
def ofRendered? (t : Text) : Option Version :=
  match Text.splitAtLast '~' 3 t with
  | [tag] => some (.release tag)
  | [base, date, 'g' :: hash, ['s', 'n', 'a', 'p', 's', 'h', 'o', 't']] =>
      (BaseVersion.ofText base).toOption.map fun base => .snapshot base date hash
  | _ => none

theorem render_snapshot (base : BaseVersion) (date hash : Text) :
    (snapshot base date hash).render =
      base.text ++ '~' :: date ++ '~' :: ('g' :: hash) ++ '~' :: ("snapshot" : Text) := by
  simp [render]

/-- The last three tildes of a snapshot separate its parts, whatever the base version is. -/
theorem splitAtLast_render_snapshot (base : BaseVersion) {date hash : Text} (hdate : '~' ∉ date)
    (hhash : '~' ∉ hash) :
    Text.splitAtLast '~' 3 (snapshot base date hash).render =
      [base.text, date, 'g' :: hash, "snapshot"] := by
  have hhash' : '~' ∉ 'g' :: hash := by simp [hhash]
  calc
    Text.splitAtLast '~' 3 (snapshot base date hash).render =
        Text.splitAtLast '~' 2 (base.text ++ '~' :: date ++ '~' :: ('g' :: hash)) ++
          [("snapshot" : Text)] := by rw [render_snapshot, Text.splitAtLast_append (by decide)]
    _ = Text.splitAtLast '~' 1 (base.text ++ '~' :: date) ++ ['g' :: hash] ++
        [("snapshot" : Text)] := by
      rw [Text.splitAtLast_append hhash']
    _ = [base.text, date, 'g' :: hash, "snapshot"] := by
      rw [Text.splitAtLast_append hdate]
      rfl

/-- A plain version is read back from its text. -/
theorem ofRendered?_render {v : Version} (hv : v.IsPlain) : ofRendered? v.render = some v := by
  cases v with
  | release tag => simp only [ofRendered?, render, Text.splitAtLast_of_not_mem hv]
  | snapshot base date hash =>
      rw [ofRendered?, splitAtLast_render_snapshot base hv.1 hv.2]
      change (BaseVersion.ofText base.text).toOption.map _ = _
      rw [BaseVersion.ofText_text]
      rfl

/-- Four pieces around the last three tildes are those of a snapshot, if the last two say so. -/
theorem render_of_splitAtLast {t date hash : Text} {base : BaseVersion}
    (h : Text.splitAtLast '~' 3 t = [base.text, date, 'g' :: hash, "snapshot"]) :
    (snapshot base date hash).IsPlain ∧ (snapshot base date hash).render = t := by
  obtain ⟨t₂, rfl, -, h₂⟩ :=
    Text.exists_of_splitAtLast_eq_append [base.text, date, 'g' :: hash] (by simp) h
  obtain ⟨t₁, rfl, hhash, h₁⟩ :=
    Text.exists_of_splitAtLast_eq_append [base.text, date] (by simp) h₂
  obtain ⟨t₀, rfl, hdate, h₀⟩ :=
    Text.exists_of_splitAtLast_eq_append [base.text] (by simp) h₁
  obtain rfl : t₀ = base.text := List.singleton_inj.mp h₀
  have hhash' : '~' ∉ hash := fun hmem => hhash (List.mem_cons_of_mem _ hmem)
  exact ⟨⟨hdate, hhash'⟩, render_snapshot base date hash⟩

/-- Only what is the text of a plain version is read as this version. -/
theorem ofRendered?_eq_some_iff {t : Text} {v : Version} :
    ofRendered? t = some v ↔ v.IsPlain ∧ v.render = t := by
  constructor
  · intro h
    rw [ofRendered?] at h
    split at h
    next tag htag =>
      obtain rfl := Option.some.inj h
      obtain ⟨rfl, htilde⟩ := Text.not_mem_of_splitAtLast_eq_singleton htag
      exact ⟨htilde, rfl⟩
    next text date hash hpieces =>
      obtain ⟨base, hbase, rfl⟩ := Option.map_eq_some_iff.mp h
      have htext : base.text = text := by
        cases hof : BaseVersion.ofText text with
        | error why => simp [hof, Except.toOption] at hbase
        | ok b =>
            obtain rfl : b = base := by simpa [hof, Except.toOption] using hbase
            exact BaseVersion.ofText_eq_ok_iff.mp hof
      subst htext
      exact render_of_splitAtLast hpieces
    next => cases h
  · rintro ⟨hv, rfl⟩
    exact ofRendered?_render hv

/-- Plain versions that are printed alike are equal: the pieces around the last three tildes are the
parts of a snapshot, and reading them gives back just the version that was printed. -/
theorem render_unambiguous :
    (∀ v w : Version, v.IsPlain → w.IsPlain → v.render = w.render → v = w) ∧
    (∀ (base : BaseVersion) (date hash : Text), '~' ∉ date → '~' ∉ hash →
      Text.splitAtLast '~' 3 (snapshot base date hash).render =
        [base.text, date, 'g' :: hash, "snapshot"]) ∧
    (∀ (t : Text) (v : Version), ofRendered? t = some v ↔ v.IsPlain ∧ v.render = t) := by
  refine ⟨fun v w hv hw h => ?_, fun base date hash => splitAtLast_render_snapshot base,
    fun t v => ofRendered?_eq_some_iff⟩
  apply Option.some.inj
  calc
    some v = ofRendered? v.render := (ofRendered?_render hv).symm
    _ = ofRendered? w.render := by rw [h]
    _ = some w := ofRendered?_render hw

def nestedBase : BaseVersion :=
  ⟨"1.3.0~2020-07-01~gaaaaaaa~snapshot", by decide⟩

theorem render_unambiguous_nested :
    (snapshot nestedBase "2020-07-02" "4f336a2").IsPlain ∧
      ofRendered? "1.3.0~2020-07-01~gaaaaaaa~snapshot~2020-07-02~g4f336a2~snapshot" =
        some (snapshot nestedBase "2020-07-02" "4f336a2") := by
  have hplain : (snapshot nestedBase "2020-07-02" "4f336a2").IsPlain := by decide
  exact ⟨hplain, (render_unambiguous.2.2 _ _).mpr ⟨hplain, rfl⟩⟩

end Version

end VersionStamp
