import VersionStamp.Proofs.Repository.TagLines
import VersionStamp.Proofs.Text.LineEnd
import VersionStamp.Proofs.Text.Utf8
import VersionStamp.Repository.Program
import VersionStamp.Repository.Rehearsal

namespace VersionStamp

/-!
# Reading what a git program prints

A git program prints its answers on lines that end in a line feed, with or without a carriage
return. Each query reads them in its own way: the path without line breaks, a tag on each line, the
date and the hash without the blanks around them. Facts that survive this are printable, and then
the program answers with just these facts.
-/

/-- Whether a line ends as a git program ends it. -/
def LineEnd.isPrinted : LineEnd → Bool
  | .lf | .crlf => true
  | .cr => false

namespace Text

def IsPrinted (lines : List Text) (output : Text) : Prop :=
  ∃ ended : List (Text × LineEnd), ended.map Prod.fst = lines ∧
    (∀ l ∈ ended, l.2.isPrinted) ∧ output = ofLines ended

theorem isPrinted_singleton_iff {line output : Text} :
    IsPrinted [line] output ↔ ∃ ending : LineEnd, ending.isPrinted ∧ output = line ++ ending.text := by
  constructor
  · rintro ⟨ended, hlines, hended, rfl⟩
    obtain ⟨⟨_, ending⟩, rfl, rfl⟩ := List.map_eq_singleton_iff.mp hlines
    exact ⟨ending, hended _ List.mem_cons_self, by simp [ofLines]⟩
  · rintro ⟨ending, hprinted, rfl⟩
    exact ⟨[(line, ending)], rfl, by simpa using hprinted, by simp [ofLines]⟩

theorem joinLines_of_isPrinted {line output : Text} (hline : IsLine line)
    (h : IsPrinted [line] output) : joinLines output = line := by
  obtain ⟨ending, -, rfl⟩ := isPrinted_singleton_iff.mp h
  have hkept : line.filter (fun c => !isLineBreak c) = line :=
    List.filter_eq_self.mpr fun c hc => by simp [hline c hc]
  have hending : ending.text.filter (fun c => !isLineBreak c) = [] := by
    cases ending <;> rfl
  calc
    joinLines (line ++ ending.text) = line.filter (fun c => !isLineBreak c) ++
        ending.text.filter (fun c => !isLineBreak c) := by rw [joinLines, List.filter_append]
    _ = line := by rw [hkept, hending, List.append_nil]

theorem trim_of_isPrinted {line output : Text} (hline : trim line = line)
    (h : IsPrinted [line] output) : trim output = line := by
  obtain ⟨ending, -, rfl⟩ := isPrinted_singleton_iff.mp h
  have hending : ending.text.all isBlank = true := by
    cases ending <;> decide
  rw [trim_append_blank (List.all_eq_true.mp hending), hline]

end Text

namespace TagSet

theorem lists_of_isPrinted {names : List Text} {output : Text} (h : Text.IsPrinted names output) :
    Lists names output := by
  obtain ⟨ended, rfl, hended, rfl⟩ := h
  induction ended with
  | nil => exact .nothing 0
  | cons first rest ih =>
      obtain ⟨name, ending⟩ := first
      have hprinted : ending.isPrinted := hended (name, ending) List.mem_cons_self
      have hrest := ih fun l hl => hended l (List.mem_cons_of_mem _ hl)
      cases ending with
      | lf => simpa [Text.ofLines, LineEnd.text] using Lists.line name 0 hrest
      | crlf => simpa [Text.ofLines, LineEnd.text] using Lists.line name 1 hrest
      | cr => cases hprinted

theorem names_ofOutput_of_isPrinted {names : List Text} {output : Text}
    (hnames : ∀ name ∈ names, IsName name) (h : Text.IsPrinted names output) :
    (ofOutput output).names = names :=
  names_ofOutput_of_lists (lists_of_isPrinted h) hnames

end TagSet

end VersionStamp
