import VersionStamp.Proofs.Text.LineEnd

namespace VersionStamp.Text

/-!
# Lines and pieces

Cut at every break, a text gives its lines and some empty pieces: one within every line end of two
breaks, and one behind the last line end. These, and the kind of each line end, make no difference
to the pieces that hold something.
-/

/-- The lines of a text. A carriage return and a line feed behind it are one line end, and there is
no line behind the last line end. -/
def lines : Text → List Text
  | [] => []
  | '\r' :: '\n' :: rest => [] :: lines rest
  | c :: rest => if isLineBreak c then [] :: lines rest else toFirstPiece c (lines rest)

example : lines "a\r\r\n\nb\n" = (["a", "", "", "b"] : List Text) := by decide

/-- The second text is the first one with line ends of other kinds. A carriage return and a line
feed may be rewritten as the one line end that they are, or each for itself. -/
inductive EndsRewritten : Text → Text → Prop where
  | nil : EndsRewritten [] []
  | cons {c : Char} {s t : Text} (hc : isLineBreak c = false) (h : EndsRewritten s t) :
      EndsRewritten (c :: s) (c :: t)
  | lineEnd (before after : LineEnd) {s t : Text} (h : EndsRewritten s t) :
      EndsRewritten (before.text ++ s) (after.text ++ t)

theorem EndsRewritten.line_append {line s t : Text} (hline : IsLine line)
    (h : EndsRewritten s t) : EndsRewritten (line ++ s) (line ++ t) := by
  induction line with
  | nil => exact h
  | cons c line ih =>
      apply EndsRewritten.cons (hline c List.mem_cons_self)
      exact ih fun e he => hline e (List.mem_cons_of_mem c he)

/-! ## Pieces that hold something -/

def filled (pieces : List Text) : List Text :=
  pieces.filter fun piece => !piece.isEmpty

theorem filled_nil_cons (pieces : List Text) : filled ([] :: pieces) = filled pieces := rfl

theorem filled_eq_append (pieces : List Text) :
    filled pieces = filled [pieces.headD []] ++ filled pieces.tail := by
  cases pieces with
  | nil => rfl
  | cons piece pieces => exact List.filter_append [piece] pieces

theorem find?_filled {p : Text → Bool} (hp : p [] = false) (pieces : List Text) :
    (filled pieces).find? p = pieces.find? p := by
  rw [filled, List.find?_filter]
  congr 1
  funext piece
  cases piece with
  | nil => simp [hp]
  | cons c piece => simp

theorem headD_toFirstPiece (c : Char) (pieces : List Text) :
    (toFirstPiece c pieces).headD [] = c :: pieces.headD [] := by
  cases pieces <;> rfl

theorem tail_toFirstPiece (c : Char) (pieces : List Text) :
    (toFirstPiece c pieces).tail = pieces.tail := by
  cases pieces <;> rfl

/-- The same first piece, and behind it the same pieces but for empty ones. To have no piece at all
is the same as to have an empty one. -/
structure SameFilled (xs ys : List Text) : Prop where
  headD_eq : xs.headD [] = ys.headD []
  filled_tail_eq : filled xs.tail = filled ys.tail

namespace SameFilled

variable {xs ys : List Text}

theorem filled_eq (h : SameFilled xs ys) : filled xs = filled ys := by
  calc
    filled xs = filled [xs.headD []] ++ filled xs.tail := filled_eq_append xs
    _ = filled [ys.headD []] ++ filled ys.tail := by rw [h.headD_eq, h.filled_tail_eq]
    _ = filled ys := (filled_eq_append ys).symm

theorem toFirstPiece (h : SameFilled xs ys) (c : Char) :
    SameFilled (toFirstPiece c xs) (toFirstPiece c ys) where
  headD_eq := by rw [headD_toFirstPiece, headD_toFirstPiece, h.headD_eq]
  filled_tail_eq := by rw [tail_toFirstPiece, tail_toFirstPiece, h.filled_tail_eq]

end SameFilled

/-- To split a text at every break, or at line ends of two characters once, gives the same pieces
but for empty ones. -/
theorem sameFilled_split_lines (t : Text) : SameFilled (split isLineBreak t) (lines t) := by
  fun_induction lines t with
  | case1 => exact ⟨rfl, rfl⟩
  | case2 rest ih =>
      have hsplit : split isLineBreak ('\r' :: '\n' :: rest) =
          [] :: [] :: split isLineBreak rest := rfl
      rw [hsplit]
      exact ⟨rfl, ih.filled_eq⟩
  | case3 c rest _ hc ih =>
      rw [split_cons, if_pos hc]
      exact ⟨rfl, ih.filled_eq⟩
  | case4 c rest _ hc ih =>
      rw [split_cons, if_neg hc]
      exact ih.toFirstPiece c

theorem split_lineEnd_append (ending : LineEnd) (t : Text) :
    ∃ pieces, split isLineBreak (ending.text ++ t) = [] :: pieces ∧
      filled pieces = filled (split isLineBreak t) := by
  have hline : IsLine [] := by simp [IsLine]
  have hsplit := split_line_append hline ending t
  cases ending <;> exact ⟨_, hsplit, rfl⟩

/-- Rewritten line ends leave the same pieces but for empty ones. -/
theorem EndsRewritten.sameFilled {s t : Text} (h : EndsRewritten s t) :
    SameFilled (split isLineBreak s) (split isLineBreak t) := by
  induction h with
  | nil => exact ⟨rfl, rfl⟩
  | cons hc _ ih =>
      rw [split_cons, split_cons, hc]
      exact ih.toFirstPiece _
  | lineEnd before after _ ih =>
      obtain ⟨xs, hxs, hfilled⟩ := split_lineEnd_append before _
      obtain ⟨ys, hys, hfilled'⟩ := split_lineEnd_append after _
      rw [hxs, hys]
      exact ⟨rfl, by simp only [List.tail_cons, hfilled, hfilled', ih.filled_eq]⟩

end VersionStamp.Text
