import VersionStamp.Proofs.Text.Parts

namespace VersionStamp.Text

/-!
# What trimming takes away

Characters of the class that is trimmed make no difference at the end at which they are taken away.
-/

variable {p : Char → Bool} {t u : Text}

theorem mem_dropWhile {c : Char} (hc : c ∈ t) (hp : p c = false) : c ∈ t.dropWhile p := by
  rw [← List.takeWhile_append_dropWhile (p := p) (l := t), List.mem_append] at hc
  rcases hc with htaken | hleft
  · have hall := List.all_eq_true.mp (List.all_takeWhile (p := p) (l := t)) c htaken
    rw [hp] at hall
    cases hall
  · exact hleft

theorem mem_dropEndWhile {c : Char} (hc : c ∈ t) (hp : p c = false) : c ∈ dropEndWhile p t := by
  rw [dropEndWhile, List.mem_reverse]
  exact mem_dropWhile (List.mem_reverse.mpr hc) hp

structure IsTrimmed (t : Text) : Prop where
  head : ∀ c, t.head? = some c → isBlank c = false
  last : ∀ c, t.getLast? = some c → isBlank c = false

/-- A trimmed text has no blank at an end. -/
theorem isTrimmed_trim (t : Text) : IsTrimmed (trim t) where
  head c hc := by
    obtain ⟨rest, hrest⟩ := dropEndWhile_isPrefix isBlank (t.dropWhile isBlank)
    have hhead : (t.dropWhile isBlank).head? = some c := by
      rw [trim] at hc
      rw [← hrest, List.head?_append, hc, Option.some_or]
    simpa [hhead] using List.head?_dropWhile_not isBlank t
  last _ hc := getLast?_dropEndWhile hc

/-- Only blanks are trimmed away. -/
theorem mem_trim {c : Char} (hc : c ∈ t) (hblank : isBlank c = false) : c ∈ trim t :=
  mem_dropEndWhile (mem_dropWhile hc hblank) hblank

theorem dropEndWhile_append (hu : ∀ c ∈ u, p c) : dropEndWhile p (t ++ u) = dropEndWhile p t := by
  have hreverse : ∀ c ∈ u.reverse, p c := fun c hc => hu c (List.mem_reverse.mp hc)
  calc
    dropEndWhile p (t ++ u) = ((u.reverse ++ t.reverse).dropWhile p).reverse := by
      rw [dropEndWhile, List.reverse_append]
    _ = (t.reverse.dropWhile p).reverse := by rw [List.dropWhile_append_of_pos hreverse]
    _ = dropEndWhile p t := rfl

theorem dropEndWhile_of_getLast? (h : ∀ c, t.getLast? = some c → p c = false) :
    dropEndWhile p t = t := by
  have hhead : t.reverse.dropWhile p = t.reverse := by
    cases hreverse : t.reverse with
    | nil => rfl
    | cons c rest =>
        have hlast : t.getLast? = some c := by
          rw [← List.head?_reverse, hreverse]
          rfl
        rw [List.dropWhile_cons_of_neg (by simp [h c hlast])]
  rw [dropEndWhile, hhead, List.reverse_reverse]

/-- What is taken away from the end are so many times the character. -/
theorem exists_replicate_dropEndWhile (c : Char) (t : Text) :
    ∃ n, dropEndWhile (· == c) t ++ List.replicate n c = t := by
  have htaken : ∀ d ∈ t.reverse.takeWhile (· == c), d = c := by
    intro d hd
    have hall := List.all_eq_true.mp (List.all_takeWhile (p := (· == c)) (l := t.reverse)) d hd
    simpa using hall
  refine ⟨(t.reverse.takeWhile (· == c)).length, ?_⟩
  have hsplit := congrArg List.reverse
    (List.takeWhile_append_dropWhile (p := (· == c)) (l := t.reverse))
  rw [List.reverse_append, List.reverse_reverse, List.eq_replicate_of_mem htaken,
    List.reverse_replicate] at hsplit
  exact hsplit

theorem trim_blank_append (ht : ∀ c ∈ t, isBlank c) : trim (t ++ u) = trim u := by
  rw [trim, List.dropWhile_append_of_pos ht, trim]

theorem trim_append_blank (hu : ∀ c ∈ u, isBlank c) : trim (t ++ u) = trim t := by
  rw [trim, trim, List.dropWhile_append]
  split
  next hempty =>
    have hnil : (u ++ []).dropWhile isBlank = [] := List.dropWhile_append_of_pos hu
    rw [List.append_nil] at hnil
    rw [hnil, List.isEmpty_iff.mp hempty]
  next => exact dropEndWhile_append hu

end VersionStamp.Text
