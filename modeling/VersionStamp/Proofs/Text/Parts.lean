import VersionStamp.Text.Blank
import VersionStamp.Text.Lines
import VersionStamp.Text.Search

namespace VersionStamp.Text

/-!
# Parts of a text

Cutting a text, trimming it and removing a part of it keep the characters that are left in their
order. A piece between the characters of a class has none of the class.
-/

variable {p : Char → Bool} {part s t piece : Text}

theorem dropEndWhile_isPrefix (p : Char → Bool) (t : Text) : dropEndWhile p t <+: t := by
  have hsuffix : t.reverse.dropWhile p <:+ t.reverse := List.dropWhile_suffix p
  rw [dropEndWhile]
  simpa using List.reverse_prefix.mpr hsuffix

theorem trim_isInfix (t : Text) : trim t <:+: t := by
  apply List.IsInfix.trans (dropEndWhile_isPrefix isBlank (t.dropWhile isBlank)).isInfix
  exact (List.dropWhile_suffix isBlank).isInfix

theorem before?_isPrefix (h : before? part t = some s) : s <+: t := by
  obtain ⟨n, -, rfl⟩ := Option.map_eq_some_iff.mp h
  exact List.take_prefix n t

theorem getD_before?_isPrefix (part t : Text) : (before? part t).getD t <+: t := by
  cases h : before? part t with
  | none => exact List.prefix_refl t
  | some front => exact before?_isPrefix h

/-- Removal takes characters away and changes no order. -/
theorem removeFrom_sublist (part : Text) (skip : Nat) (t : Text) :
    (removeFrom part skip [] t).Sublist t := by
  induction t generalizing skip with
  | nil => exact List.Sublist.refl []
  | cons c rest ih =>
      cases skip with
      | succ skip => exact (ih skip).cons c
      | zero =>
          rw [removeFrom]
          split
          · exact (ih _).cons c
          · rw [removeFrom_eq_append]
            exact (ih 0).cons_cons c

theorem removeAll_sublist (part t : Text) : (removeAll part t).Sublist t := by
  rw [removeAll]
  split
  · exact List.Sublist.refl t
  · exact removeFrom_sublist part 0 t

/-- No piece has a character at which the text is split. -/
theorem not_of_mem_split (h : piece ∈ split p t) : ∀ c ∈ piece, p c = false := by
  induction t generalizing piece with
  | nil =>
      have hpiece : piece = [] := List.mem_singleton.mp h
      simp [hpiece]
  | cons c rest ih =>
      rw [split_cons] at h
      split at h
      next =>
        rcases List.mem_cons.mp h with rfl | h
        · simp
        · exact ih h
      next hc =>
        cases hrest : split p rest with
        | nil => exact absurd hrest (split_ne_nil p rest)
        | cons first more =>
            rw [hrest] at h ih
            rcases List.mem_cons.mp h with rfl | h
            · intro d hd
              rcases List.mem_cons.mp hd with rfl | hd
              · simpa using hc
              · exact ih List.mem_cons_self d hd
            · exact ih (List.mem_cons_of_mem first h)

end VersionStamp.Text
