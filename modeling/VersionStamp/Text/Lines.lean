import VersionStamp.Text

namespace VersionStamp.Text

/-!
# Lines

`split` cuts a text at every character of a class. Cut at each carriage return and each line feed,
a text gives its lines and some empty pieces besides, one inside every pair of the two.
-/

def toFirstPiece (c : Char) : List Text → List Text
  | [] => [[c]]
  | piece :: pieces => (c :: piece) :: pieces

/-- The pieces of a text between the characters that satisfy `p`: one more than these. -/
def split (p : Char → Bool) (t : Text) : List Text :=
  t.foldr (fun c pieces => if p c then [] :: pieces else toFirstPiece c pieces) [[]]

def isLineBreak (c : Char) : Bool :=
  c == '\n' || c == '\r'

def joinLines (t : Text) : Text :=
  t.filter fun c => !isLineBreak c

theorem split_cons (p : Char → Bool) (c : Char) (rest : Text) :
    split p (c :: rest) = if p c then [] :: split p rest else toFirstPiece c (split p rest) :=
  rfl

theorem split_ne_nil (p : Char → Bool) (t : Text) : split p t ≠ [] := by
  cases t with
  | nil => simp [split]
  | cons c rest =>
      rw [split_cons]
      split
      · simp
      · unfold toFirstPiece
        split <;> simp

theorem split_of_all_not {p : Char → Bool} {t : Text} (h : ∀ c ∈ t, p c = false) :
    split p t = [t] := by
  induction t with
  | nil => rfl
  | cons c rest ih =>
      simp [split_cons, toFirstPiece, h c (by simp), ih fun d hd => h d (by simp [hd])]

theorem split_append_cons {p : Char → Bool} {s t : Text} {c : Char}
    (hs : ∀ d ∈ s, p d = false) (hc : p c = true) :
    split p (s ++ c :: t) = s :: split p t := by
  induction s with
  | nil => simp [split_cons, hc]
  | cons d s ih =>
      simp [split_cons, toFirstPiece, hs d (by simp), ih fun e he => hs e (by simp [he])]

end VersionStamp.Text
