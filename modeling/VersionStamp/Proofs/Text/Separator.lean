import VersionStamp.Proofs.Text.Occurrence
import VersionStamp.Text.Lines

namespace VersionStamp.Text

/-!
# Joined with a separator and cut at it

A joined text is cut at the first separator in it, which need not be one that it was joined with: the
end of a part and the beginning of the separator behind it may make up another. That takes a
separator that begins with what it ends in. With any other one the parts are found again, as long as
none of them has a separator within.
-/

variable {separator s t : Text}

/-- The pieces of a text between the occurrences of a non-empty `separator`, behind the next `skip`
characters, which belong to an occurrence already found. -/
def splitFrom (separator : Text) : Nat → Text → List Text
  | _, [] => [[]]
  | skip + 1, _ :: rest => splitFrom separator skip rest
  | 0, c :: rest =>
      if separator.isPrefixOf (c :: rest) then
        [] :: splitFrom separator (separator.length - 1) rest
      else toFirstPiece c (splitFrom separator 0 rest)

/-- The pieces of a text between the occurrences of a non-empty `separator`, each looked for behind
the one before it. -/
def splitOn (separator t : Text) : List Text :=
  splitFrom separator 0 t

theorem splitFrom_skip (separator skipped t : Text) :
    splitFrom separator skipped.length (skipped ++ t) = splitOn separator t := by
  induction skipped with
  | nil => rfl
  | cons c skipped ih => exact ih

theorem splitOn_separator_append (h : separator ≠ []) (t : Text) :
    splitOn separator (separator ++ t) = [] :: splitOn separator t := by
  cases separator with
  | nil => exact absurd rfl h
  | cons c rest =>
      have hbegins : (c :: rest).isPrefixOf (c :: (rest ++ t)) = true :=
        List.isPrefixOf_iff_prefix.mpr (List.prefix_append (c :: rest) t)
      rw [splitOn, List.cons_append, splitFrom, if_pos hbegins]
      exact congrArg ([] :: ·) (splitFrom_skip (c :: rest) rest t)

theorem splitOn_cons_of_not_isPrefix {c : Char} (h : ¬ separator <+: c :: t) :
    splitOn separator (c :: t) = toFirstPiece c (splitOn separator t) := by
  rw [splitOn, splitFrom, if_neg (by rwa [List.isPrefixOf_iff_prefix])]
  rfl

theorem splitOn_append (hne : separator ≠ []) (h : Avoids separator s (separator ++ t)) :
    splitOn separator (s ++ (separator ++ t)) = s :: splitOn separator t := by
  induction s with
  | nil => exact splitOn_separator_append hne t
  | cons c s ih =>
      obtain ⟨hc, hs⟩ := avoids_cons_iff.mp h
      calc
        splitOn separator (c :: s ++ (separator ++ t)) =
            toFirstPiece c (splitOn separator (s ++ (separator ++ t))) :=
          splitOn_cons_of_not_isPrefix hc
        _ = toFirstPiece c (s :: splitOn separator t) := by rw [ih hs]
        _ = (c :: s) :: splitOn separator t := rfl

theorem splitOn_of_not_infix (h : ¬ separator <:+: s) : splitOn separator s = [s] := by
  induction s with
  | nil => rfl
  | cons c s ih =>
      obtain ⟨hbegin, hinfix⟩ := not_or.mp (mt List.infix_cons_iff.mpr h)
      rw [splitOn_cons_of_not_isPrefix hbegin, ih hinfix, toFirstPiece]

/-- The text begins with nothing that it ends in, but itself. -/
def IsUnbordered (t : Text) : Prop :=
  ∀ u, u <:+ t → u ≠ t → u ≠ [] → ¬ u <+: t

instance (t : Text) : Decidable (IsUnbordered t) :=
  decidable_of_iff (∀ u ∈ t.tails, u ≠ t → u ≠ [] → ¬ u <+: t) (by
    simp only [List.mem_tails]
    rfl)

/-- In front of an unbordered separator no other one begins that reaches into it. -/
theorem IsUnbordered.avoids (hseparator : IsUnbordered separator) (h : ¬ separator <:+: s)
    (t : Text) : Avoids separator s (separator ++ t) := by
  intro u hu hne hbegin
  rcases prefix_append_cases hbegin with hwithin | ⟨v, hv, hsplit, hinto⟩
  · exact h (hwithin.isInfix.trans hu.isInfix)
  · -- The two overlap in `v`, which both ends the separator and begins it.
    have hproper : v ≠ separator := fun heq => hne (by simpa [heq] using hsplit)
    have hend : v <:+ separator := hsplit ▸ List.suffix_append u v
    have hfront : v <+: separator :=
      List.prefix_of_prefix_length_le hinto (List.prefix_append separator t) hend.length_le
    exact hseparator v hend hproper hv hfront

-- By induction on the parts: the first separator is the one behind the first part.
theorem splitOn_join {parts : List Text} (hseparator : IsUnbordered separator)
    (hne : parts ≠ []) (hparts : ∀ part ∈ parts, ¬ separator <:+: part) :
    splitOn separator (join separator parts) = parts := by
  induction parts with
  | nil => exact absurd rfl hne
  | cons part parts ih =>
      have hpart : ¬ separator <:+: part := hparts part List.mem_cons_self
      cases parts with
      | nil => rw [join, List.intercalate_singleton, splitOn_of_not_infix hpart]
      | cons next more =>
          have hsome : separator ≠ [] := fun hnil => hpart (hnil ▸ List.nil_infix)
          have hrest := ih (List.cons_ne_nil next more) fun other hother =>
            hparts other (List.mem_cons_of_mem part hother)
          calc
            splitOn separator (join separator (part :: next :: more)) =
                splitOn separator (part ++ (separator ++ join separator (next :: more))) := by
              rw [join, join, List.intercalate_cons_cons, List.append_assoc]
            _ = part :: splitOn separator (join separator (next :: more)) :=
              splitOn_append hsome (hseparator.avoids hpart _)
            _ = part :: next :: more := by rw [hrest]

example : splitOn ", " "a,, b, ,c" = (["a,", "b", ",c"] : List Text) := by decide

end VersionStamp.Text
