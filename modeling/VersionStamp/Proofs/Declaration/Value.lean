import VersionStamp.Proofs.Declaration.Reading
import VersionStamp.Proofs.Text.LineEnd
import VersionStamp.Proofs.Text.Parts

namespace VersionStamp.Declaration

/-!
# What a declared value is made of

A declared value has been cut out of one line of the text: its characters stand there in the same
order, and no line break is among them.
-/

variable {d : Declaration} {text line value : Text}

/-- A value has no character that its line has not, and has them in the same order. -/
theorem sublist_of_value? {marker suffix : Text} (h : value? marker suffix line = some value) :
    value.Sublist line := by
  rw [value?] at h
  split at h
  next =>
    obtain rfl := Option.some.inj h
    apply (Text.trim_isInfix _).sublist.trans
    apply (Text.getD_before?_isPrefix suffix _).sublist.trans
    exact Text.removeAll_sublist marker line
  next => cases h

/-- The line that declares a value. -/
theorem exists_line_of_declares (h : d.Declares text value) :
    ∃ line, Text.IsLine line ∧ value? d.marker d.suffix line = some value := by
  obtain ⟨before, line, after, hsplit, -, hvalue⟩ := h
  have hline : line ∈ text.split Text.isLineBreak := by
    rw [hsplit]
    exact List.mem_append_right before List.mem_cons_self
  exact ⟨line, Text.not_of_mem_split hline, hvalue⟩

theorem isLine_of_declares (h : d.Declares text value) : Text.IsLine value := by
  obtain ⟨line, hline, hvalue⟩ := exists_line_of_declares h
  exact fun c hc => hline c ((sublist_of_value? hvalue).subset hc)

end VersionStamp.Declaration
