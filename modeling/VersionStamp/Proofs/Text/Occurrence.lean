import Mathlib.Data.List.Infix
import VersionStamp.Text.Search

namespace VersionStamp.Text

/-!
# Where a part begins

If no occurrence of a part begins in the front of a text, the search for the part and its removal
leave the front alone and go on behind it. An end mark, a last character that the part does not
have elsewhere, shows this across every seam.
-/

/-- No occurrence of `part` begins in `s`, also none that reaches into `t` behind it. -/
def Avoids (part s t : Text) : Prop :=
  ∀ u, u <:+ s → u ≠ [] → ¬ part <+: u ++ t

theorem avoids_nil (part t : Text) : Avoids part [] t := by
  intro u hu hne
  exact absurd (List.suffix_nil.mp hu) hne

theorem avoids_cons_iff {part s t : Text} {c : Char} :
    Avoids part (c :: s) t ↔ ¬ part <+: c :: (s ++ t) ∧ Avoids part s t := by
  constructor
  · intro h
    refine ⟨h (c :: s) (List.suffix_refl _) (by simp), fun u hu => h u ?_⟩
    exact hu.trans (List.suffix_cons c s)
  · rintro ⟨hc, hs⟩ u hu hne
    rcases List.suffix_cons_iff.mp hu with rfl | hu
    · exact hc
    · exact hs u hu hne

/-- A beginning of two texts is one of the first text, or reaches into the second one. -/
theorem prefix_append_cases {part s t : Text} (h : part <+: s ++ t) :
    part <+: s ∨ ∃ u, u ≠ [] ∧ part = s ++ u ∧ u <+: t := by
  rcases List.prefix_or_prefix_of_prefix h (List.prefix_append s t) with hin | ⟨u, rfl⟩
  · exact .inl hin
  · by_cases hu : u = []
    · exact .inl (by simp [hu])
    · exact .inr ⟨u, hu, rfl, (List.prefix_append_right_inj s).mp h⟩

/-! ## Search -/

theorem before?_of_prefix {part t : Text} (h : part <+: t) : before? part t = some [] := by
  have hprefix := List.isPrefixOf_iff_prefix.mpr h
  cases t with
  | nil => rw [List.prefix_nil.mp h]; rfl
  | cons c rest => rw [before?_cons, if_pos hprefix]

theorem before?_append {part s t : Text} (h : Avoids part s t) :
    before? part (s ++ t) = (before? part t).map (s ++ ·) := by
  induction s with
  | nil => simp
  | cons c s ih =>
      obtain ⟨hc, hs⟩ := avoids_cons_iff.mp h
      have hprefix : part.isPrefixOf (c :: (s ++ t)) = false := by
        rw [← Bool.not_eq_true, List.isPrefixOf_iff_prefix]
        exact hc
      calc
        before? part (c :: s ++ t) = (before? part (s ++ t)).map (c :: ·) := by
          rw [List.cons_append, before?_cons, hprefix, if_neg Bool.false_ne_true]
        _ = ((before? part t).map (s ++ ·)).map (c :: ·) := by rw [ih hs]
        _ = (before? part t).map (c :: s ++ ·) := Option.map_map ..

theorem before?_nil (part : Text) : before? part [] = if part.isEmpty then some [] else none := by
  rw [before?, indexFrom?]
  split <;> rfl

/-- The front that is found ends where the first occurrence begins. -/
theorem before?_eq_some_iff {part t front : Text} :
    before? part t = some front ↔
      ∃ back, t = front ++ (part ++ back) ∧ Avoids part front (part ++ back) := by
  constructor
  · intro h
    induction t generalizing front with
    | nil =>
        rw [before?_nil] at h
        split at h
        next hempty =>
          obtain rfl := Option.some.inj h
          exact ⟨[], by simp [List.isEmpty_iff.mp hempty], avoids_nil part _⟩
        next => cases h
    | cons c rest ih =>
        rw [before?_cons] at h
        split at h
        next hprefix =>
          obtain rfl := Option.some.inj h
          obtain ⟨back, hback⟩ := List.isPrefixOf_iff_prefix.mp hprefix
          exact ⟨back, hback.symm, avoids_nil part _⟩
        next hprefix =>
          obtain ⟨tail, htail, rfl⟩ := Option.map_eq_some_iff.mp h
          obtain ⟨back, rfl, havoids⟩ := ih htail
          refine ⟨back, rfl, avoids_cons_iff.mpr ⟨?_, havoids⟩⟩
          rwa [← List.isPrefixOf_iff_prefix]
  · rintro ⟨back, rfl, havoids⟩
    rw [before?_append havoids, before?_of_prefix (List.prefix_append _ _)]
    simp

/-- The search fails just if there is no occurrence. -/
theorem before?_eq_none_iff {part t : Text} : before? part t = none ↔ ¬ part <:+: t := by
  rw [← occurs_iff, before?, occurs]
  cases indexFrom? part 0 t <;> simp

/-! ## Removal -/

theorem removeFrom_skip {part p t : Text} :
    removeFrom part p.length [] (p ++ t) = removeFrom part 0 [] t := by
  induction p with
  | nil => rfl
  | cons c p ih => exact ih

theorem removeAll_append_self (part t : Text) :
    removeAll part (part ++ t) = removeAll part t := by
  cases part with
  | nil => rfl
  | cons c p =>
      have hprefix : (c :: p).isPrefixOf (c :: p ++ t) = true :=
        List.isPrefixOf_iff_prefix.mpr (List.prefix_append _ _)
      simp only [removeAll, List.isEmpty_cons, Bool.false_eq_true, if_false]
      rw [List.cons_append] at hprefix ⊢
      rw [removeFrom, if_pos hprefix]
      exact removeFrom_skip

/-- Removal leaves a front in which no occurrence begins. -/
theorem removeAll_append {part s t : Text} (h : Avoids part s t) :
    removeAll part (s ++ t) = s ++ removeAll part t := by
  by_cases hpart : part.isEmpty
  · simp [removeAll, hpart]
  · simp only [removeAll, hpart, Bool.false_eq_true, if_false]
    induction s with
    | nil => rfl
    | cons c s ih =>
        obtain ⟨hc, hs⟩ := avoids_cons_iff.mp h
        have hprefix : part.isPrefixOf (c :: (s ++ t)) = false := by
          rw [← Bool.not_eq_true, List.isPrefixOf_iff_prefix]
          exact hc
        calc
          removeFrom part 0 [] (c :: s ++ t) = removeFrom part 0 [c] (s ++ t) := by
            rw [List.cons_append, removeFrom, hprefix, if_neg Bool.false_ne_true]
          _ = c :: removeFrom part 0 [] (s ++ t) := removeFrom_eq_append ..
          _ = c :: s ++ removeFrom part 0 [] t := congrArg (c :: ·) (ih hs)

/-! ## What is left of a part -/

/-- The front that the search for a part cuts off has no occurrence of it. -/
theorem not_isInfix_getD_before? {part : Text} (hpart : part ≠ []) (t : Text) :
    ¬ part <:+: (before? part t).getD t := by
  cases hbefore : before? part t with
  | none => exact before?_eq_none_iff.mp hbefore
  | some front =>
      obtain ⟨back, -, havoids⟩ := before?_eq_some_iff.mp hbefore
      rintro ⟨x, y, rfl⟩
      have hfront : part ++ y <:+ x ++ part ++ y := ⟨x, by rw [List.append_assoc]⟩
      apply havoids (part ++ y) hfront
      · exact List.append_ne_nil_of_left_ne_nil hpart y
      · exact ⟨y ++ (part ++ back), by rw [List.append_assoc]⟩

theorem not_mem_getD_before?_singleton (c : Char) (t : Text) : c ∉ (before? [c] t).getD t := by
  rw [← List.singleton_infix_iff]
  exact not_isInfix_getD_before? (List.cons_ne_nil c []) t

/-- No character is left that has been removed. -/
theorem not_mem_removeAll_singleton (c : Char) (t : Text) : c ∉ removeAll [c] t := by
  rw [removeAll, if_neg (by simp)]
  induction t with
  | nil => simp [removeFrom]
  | cons e rest ih =>
      rw [removeFrom]
      split
      next => exact ih
      next hprefix =>
        have hne : c ≠ e := by
          rintro rfl
          simp at hprefix
        rw [removeFrom_eq_append]
        simp [hne, ih]

/-! ## End marks -/

variable {q : Char} {body s t : Text}

/-- A part does not reach across a character that it does not have. -/
theorem prefix_of_not_mem {part : Text} (hq : q ∉ part) (h : part <+: s ++ q :: t) : part <+: s := by
  rcases prefix_append_cases h with hin | ⟨u, hu, rfl, hbegin⟩
  · exact hin
  · rcases List.prefix_cons_iff.mp hbegin with rfl | ⟨rest, rfl, -⟩
    · exact absurd rfl hu
    · simp at hq

theorem avoids_concat_of_not_mem {part : Text} (hq : q ∉ part) (h : ¬ part <:+: s) :
    Avoids part (s ++ [q]) t := by
  intro u hu hne hpart
  obtain ⟨v, rfl, hv⟩ := (List.suffix_concat_iff.mp hu).resolve_left hne
  rw [List.append_assoc] at hpart
  exact h ((prefix_of_not_mem hq hpart).isInfix.trans hv.isInfix)

/-- What stands in front of the first mark of a text. -/
theorem eq_of_append_mark {x y rest : Text} (hx : q ∉ x) (hy : q ∉ y)
    (h : x ++ q :: rest = y ++ q :: t) : x = y := by
  induction x generalizing y with
  | nil =>
      cases y with
      | nil => rfl
      | cons d y =>
          have hqd : q = d := (List.cons.inj h).1
          exact absurd (by simp [hqd]) hy
  | cons c x ih =>
      cases y with
      | nil =>
          have hcq : c = q := (List.cons.inj h).1
          exact absurd (by simp [hcq]) hx
      | cons d y =>
          obtain ⟨rfl, htail⟩ := List.cons.inj h
          rw [ih (fun hq => hx (List.mem_cons_of_mem _ hq))
            (fun hq => hy (List.mem_cons_of_mem _ hq)) htail]

/-- In front of its own next occurrence a part with an end mark begins nowhere that lacks the
mark. -/
theorem avoids_append_self (hs : q ∉ s) (hbody : q ∉ body) :
    Avoids (body ++ [q]) s (body ++ [q] ++ t) := by
  rintro u hu hne ⟨rest, hrest⟩
  have huq : q ∉ u := fun hq => hs (hu.subset hq)
  have heq : body ++ q :: rest = u ++ body ++ q :: t := by simpa using hrest
  have hbody' : body = u ++ body := eq_of_append_mark hbody (by simp [huq, hbody]) heq
  exact hne (by simpa using hbody')

/-- A part with an end mark begins nowhere in a text up to its only mark, unless it ends there. -/
theorem avoids_of_not_suffix (hs : q ∉ s) (hbody : q ∉ body) (h : ¬ body <:+ s) :
    Avoids (body ++ [q]) (s ++ [q]) t := by
  rintro u hu hne ⟨rest, hrest⟩
  obtain ⟨v, rfl, hv⟩ := (List.suffix_concat_iff.mp hu).resolve_left hne
  have heq : body ++ q :: rest = v ++ q :: t := by simpa using hrest
  have hbody' : body = v := eq_of_append_mark hbody (fun hq => hs (hv.subset hq)) heq
  exact h (hbody' ▸ hv)

end VersionStamp.Text
