import Mathlib.Data.List.Infix
import VersionStamp.Proofs.Text.Occurrence

namespace VersionStamp.Text

/-!
# Parts that cannot overlap

Two parts are separate if neither occurs in the other and neither ends in what the other begins
with. Occurrences of two separate parts in a text have no character in common. So removing the one
leaves every occurrence of the other where it is, and what stands in front of such an occurrence is
rid of the removed part as if it were a text of its own.
-/

variable {part other s t : Text}

/-! ## Removal on both sides of a seam -/

/-- Each occurrence of `part` that begins in `s` also ends there, although `t` follows. -/
def StaysWithin (part s t : Text) : Prop :=
  ∀ u, u <:+ s → u ≠ [] → part <+: u ++ t → part <+: u

theorem removeFrom_append {skip : Nat} (h : StaysWithin part s t) (hskip : skip ≤ s.length) :
    removeFrom part skip [] (s ++ t) = removeFrom part skip [] s ++ removeFrom part 0 [] t := by
  induction s generalizing skip with
  | nil =>
      obtain rfl := Nat.le_zero.mp hskip
      rfl
  | cons c s ih =>
      have hs : StaysWithin part s t := fun u hu => h u (hu.trans (List.suffix_cons c s))
      cases skip with
      | succ skip => exact ih hs (Nat.le_of_succ_le_succ hskip)
      | zero =>
          rw [List.cons_append, removeFrom, removeFrom]
          simp only [List.isPrefixOf_iff_prefix]
          by_cases hpart : part <+: c :: s
          · have hlength : part.length - 1 ≤ s.length := Nat.sub_le_of_le_add hpart.length_le
            have hlonger : part <+: c :: (s ++ t) := hpart.trans (List.prefix_append (c :: s) t)
            rw [if_pos hlonger, if_pos hpart]
            exact ih hs hlength
          · have hlonger : ¬ part <+: c :: (s ++ t) := fun hpast =>
              hpart (h (c :: s) (List.suffix_refl _) (List.cons_ne_nil c s) hpast)
            rw [if_neg hlonger, if_neg hpart]
            calc
              removeFrom part 0 [c] (s ++ t) = [c] ++ removeFrom part 0 [] (s ++ t) :=
                removeFrom_eq_append ..
              _ = [c] ++ (removeFrom part 0 [] s ++ removeFrom part 0 [] t) := by
                rw [ih hs (Nat.zero_le _)]
              _ = removeFrom part 0 [c] s ++ removeFrom part 0 [] t := by
                rw [removeFrom_eq_append part 0 [c] s, List.append_assoc]
                rfl

/-- Removal works apart on two texts if no occurrence begins in the first and ends in the second. -/
theorem removeAll_append_of_staysWithin (h : StaysWithin part s t) :
    removeAll part (s ++ t) = removeAll part s ++ removeAll part t := by
  rw [removeAll, removeAll, removeAll]
  split
  · rfl
  · exact removeFrom_append h (Nat.zero_le _)

/-! ## Search in front of an occurrence -/

theorem Avoids.append_right (h : Avoids part s t) (hlength : part.length ≤ t.length) (more : Text) :
    Avoids part s (t ++ more) := by
  intro u hu hne hpart
  have hlonger : part.length ≤ (u ++ t).length := by
    rw [List.length_append]
    exact Nat.le_add_left_of_le hlength
  rw [← List.append_assoc, List.isPrefix_append_of_length hlonger] at hpart
  exact h u hu hne hpart

/-- What stands in front of the first occurrence does not depend on what stands behind a later
one. -/
theorem before?_append_self (part s t : Text) :
    ∃ front, before? part (s ++ (part ++ t)) = some front ∧ front <+: s ∧
      before? part (s ++ part) = some front := by
  cases hfound : before? part (s ++ part) with
  | none => exact absurd (List.suffix_append s part).isInfix (before?_eq_none_iff.mp hfound)
  | some front =>
      obtain ⟨back, hback, havoids⟩ := before?_eq_some_iff.mp hfound
      have hfront : front.length ≤ s.length := by
        have hlength := congrArg List.length hback
        simp only [List.length_append] at hlength
        omega
      have hprefix : front <+: s := by
        apply List.prefix_of_prefix_length_le _ (List.prefix_append s part) hfront
        rw [hback]
        exact List.prefix_append front _
      refine ⟨front, before?_eq_some_iff.mpr ⟨back ++ t, ?_, ?_⟩, hprefix, rfl⟩
      · rw [← List.append_assoc, hback]
        simp only [List.append_assoc]
      · rw [← List.append_assoc]
        apply havoids.append_right
        simp

/-! ## Separate parts -/

/-- The part does not occur in `other`, and does not end in anything that `other` begins with. -/
structure EndsClear (part other : Text) : Prop where
  not_infix : ¬ part <:+: other
  not_prefix : ∀ u, u <:+ part → u ≠ part → u ≠ [] → ¬ u <+: other

instance (part other : Text) : Decidable (EndsClear part other) :=
  decidable_of_iff (occurs part other = false ∧
      ∀ u ∈ part.tails, u ≠ part → u ≠ [] → ¬ u <+: other) (by
    rw [← Bool.not_eq_true, occurs_iff]
    simp only [List.mem_tails]
    exact ⟨fun h => ⟨h.1, h.2⟩, fun h => ⟨h.1, h.2⟩⟩)

/-- No occurrence of the one part can overlap an occurrence of the other. -/
structure Separate (part other : Text) : Prop where
  left : EndsClear part other
  right : EndsClear other part

instance (part other : Text) : Decidable (Separate part other) :=
  decidable_of_iff (EndsClear part other ∧ EndsClear other part)
    ⟨fun h => ⟨h.1, h.2⟩, fun h => ⟨h.1, h.2⟩⟩

namespace Separate

variable (h : Separate part other)
include h

/-- An occurrence of `part` in front of one of `other` does not reach into it. -/
theorem staysWithin (s back : Text) : StaysWithin part s (other ++ back) := by
  intro u _ hne hpart
  rcases prefix_append_cases hpart with hwithin | ⟨v, hv, rfl, hbegin⟩
  · exact hwithin
  · exfalso
    have hproper : v ≠ u ++ v := fun heq => hne (by simpa using heq)
    rcases prefix_append_cases hbegin with hin | ⟨w, -, rfl, -⟩
    · exact h.left.not_prefix v (List.suffix_append u v) hproper hv hin
    · exact h.right.not_infix ⟨u, w, by simp⟩

/-- No occurrence of `part` begins in one of `other`. -/
theorem avoids (back : Text) : Avoids part other back := by
  intro u hu hne hpart
  rcases prefix_append_cases hpart with hin | ⟨v, -, rfl, -⟩
  · exact h.left.not_infix (hin.isInfix.trans hu.isInfix)
  · have hout : u <+: u ++ v := List.prefix_append u v
    by_cases hwhole : u = other
    · exact h.right.not_infix (hwhole ▸ hout.isInfix)
    · exact h.right.not_prefix u hu hwhole hne hout

theorem removeAll_append (s back : Text) :
    removeAll part (s ++ (other ++ back)) =
      removeAll part s ++ (other ++ removeAll part back) := by
  rw [removeAll_append_of_staysWithin (h.staysWithin s back), Text.removeAll_append (h.avoids back)]

end Separate

end VersionStamp.Text
