import VersionStamp.Text

namespace VersionStamp.Text

/-!
# Finding and removing a part of a text

Occurrences are looked for from left to right. Removal takes the leftmost occurrence, goes on
behind it, and does not look at what the removal brings together.
-/

/-- The place of the first occurrence of `part`, counted from `n`. -/
def indexFrom? (part : Text) (n : Nat) : Text → Option Nat
  | [] => if part.isEmpty then some n else none
  | c :: rest =>
      if part.isPrefixOf (c :: rest) then some n else indexFrom? part (n + 1) rest

def before? (part t : Text) : Option Text :=
  (indexFrom? part 0 t).map fun n => t.take n

def occurs (part t : Text) : Bool :=
  (indexFrom? part 0 t).isSome

/-- Removal of the occurrences of a non-empty `part`, behind the next `skip` characters, which
belong to an occurrence already found. What is `kept` so far stands in reverse. -/
def removeFrom (part : Text) : Nat → Text → Text → Text
  | _, kept, [] => kept.reverse
  | skip + 1, kept, _ :: rest => removeFrom part skip kept rest
  | 0, kept, c :: rest =>
      if part.isPrefixOf (c :: rest) then removeFrom part (part.length - 1) kept rest
      else removeFrom part 0 (c :: kept) rest

/-- The text without the occurrences of `part`. The empty part leaves every text as it is. -/
def removeAll (part t : Text) : Text :=
  if part.isEmpty then t else removeFrom part 0 [] t

example : removeAll "ab" "aabbab" = "ab" := by decide

example : removeAll "aa" "aaa" = "a" := by decide

example : before? "" "x" = some [] := by decide

theorem indexFrom?_succ (part : Text) (n : Nat) (t : Text) :
    indexFrom? part (n + 1) t = (indexFrom? part n t).map (· + 1) := by
  induction t generalizing n with
  | nil => simp [indexFrom?]
  | cons c rest ih =>
      rw [indexFrom?, indexFrom?]
      split
      · rfl
      · exact ih (n + 1)

theorem before?_cons (part : Text) (c : Char) (rest : Text) :
    before? part (c :: rest) =
      if part.isPrefixOf (c :: rest) then some [] else (before? part rest).map (c :: ·) := by
  rw [before?, indexFrom?]
  split
  · rfl
  · rw [indexFrom?_succ, before?]
    cases indexFrom? part 0 rest <;> rfl

theorem occurs_cons (part : Text) (c : Char) (rest : Text) :
    occurs part (c :: rest) = (part.isPrefixOf (c :: rest) || occurs part rest) := by
  rw [occurs, indexFrom?]
  split
  · simp_all
  · rw [indexFrom?_succ, occurs]
    simp_all

theorem occurs_iff {part t : Text} : occurs part t = true ↔ part <:+: t := by
  induction t with
  | nil => cases part <;> simp [occurs, indexFrom?]
  | cons c rest ih =>
      rw [occurs_cons, Bool.or_eq_true, ih, List.isPrefixOf_iff_prefix, List.infix_cons_iff]

theorem removeFrom_eq_append (part : Text) (skip : Nat) (kept t : Text) :
    removeFrom part skip kept t = kept.reverse ++ removeFrom part skip [] t := by
  induction t generalizing skip kept with
  | nil => simp [removeFrom]
  | cons c rest ih =>
      cases skip with
      | succ skip => simpa [removeFrom] using ih skip kept
      | zero =>
          rw [removeFrom, removeFrom]
          split
          · exact ih _ kept
          · rw [ih 0 (c :: kept), ih 0 [c]]
            simp

end VersionStamp.Text
