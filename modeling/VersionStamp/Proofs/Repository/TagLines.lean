import VersionStamp.Proofs.Text.Parts
import VersionStamp.Proofs.Text.Trim
import VersionStamp.TagSet

namespace VersionStamp

/-!
# Tags on lines

A line of an output names one tag or none: the carriage returns at its end are no part of the name,
and nothing else may be left. So names that can stand on lines of their own are read back from every
output that lists them, whatever carriage returns and blank lines it has besides. Conversely every
output lists just the names that are read from it.
-/

namespace Text

/-- A text is one line, or it has a first line with a line feed and a text behind it. -/
@[elab_as_elim]
theorem lineFeed_induction {motive : Text → Prop}
    (last : ∀ line, '\n' ∉ line → motive line)
    (more : ∀ line rest, '\n' ∉ line → motive rest → motive (line ++ '\n' :: rest))
    (t : Text) : motive t := by
  induction hlength : t.length using Nat.strongRecOn generalizing t with
  | ind n ih =>
    by_cases hlf : '\n' ∈ t
    · obtain ⟨line, rest, rfl, hline⟩ := List.eq_append_cons_of_mem hlf
      have hshorter : rest.length < n := by
        simp only [← hlength, List.length_append, List.length_cons]
        omega
      exact more line rest hline (ih rest.length hshorter rest rfl)
    · exact last t hlf

end Text

namespace TagSet

variable {line name output : Text} {names : List Text}

/-! ## One line -/

def named (line : Text) : List Text :=
  [Text.dropEndWhile (· == '\r') line].filter (!·.isEmpty)

theorem beq_lf_eq_false (hline : '\n' ∉ line) : ∀ c ∈ line, (c == '\n') = false := by
  intro c hc
  have hne : c ≠ '\n' := fun heq => hline (heq ▸ hc)
  simpa using hne

theorem names_ofOutput_line (hline : '\n' ∉ line) : (ofOutput line).names = named line := by
  rw [ofOutput, Text.split_of_all_not (beq_lf_eq_false hline)]
  rfl

/-- The first line of an output is read apart from the others. -/
theorem names_ofOutput_append (hline : '\n' ∉ line) (t : Text) :
    (ofOutput (line ++ '\n' :: t)).names = named line ++ (ofOutput t).names := by
  simp only [ofOutput, named]
  rw [Text.split_append_cons (beq_lf_eq_false hline) rfl, List.map_cons, ← List.singleton_append,
    List.filter_append]

/-- A name that can stand on a line of its own. -/
structure IsName (name : Text) : Prop where
  ne_nil : name ≠ []
  not_lf : '\n' ∉ name
  not_cr_last : name.getLast? ≠ some '\r'

instance (name : Text) : Decidable (IsName name) :=
  decidable_of_iff (name ≠ [] ∧ '\n' ∉ name ∧ name.getLast? ≠ some '\r')
    ⟨fun h => ⟨h.1, h.2.1, h.2.2⟩, fun h => ⟨h.1, h.2, h.3⟩⟩

/-- Whatever the output is, the tags read from it could stand on lines of their own. -/
theorem isName_of_mem_names (h : name ∈ (ofOutput output).names) : IsName name := by
  obtain ⟨hkept, hne⟩ := List.mem_filter.mp h
  obtain ⟨line, hline, rfl⟩ := List.mem_map.mp hkept
  refine ⟨by simpa using hne, fun hlf => ?_, fun hcr => ?_⟩
  · have hmem : '\n' ∈ line := (Text.dropEndWhile_isPrefix _ line).subset hlf
    exact absurd (Text.not_of_mem_split hline '\n' hmem) (by decide)
  · exact absurd (Text.getLast?_dropEndWhile hcr) (by decide)

theorem named_of_isName (hname : IsName name) (n : Nat) :
    named (name ++ List.replicate n '\r') = [name] := by
  have hreturns : ∀ c ∈ List.replicate n '\r', (c == '\r') = true := by simp
  have hlast : ∀ c, name.getLast? = some c → (c == '\r') = false := by
    intro c hc
    have hne : c ≠ '\r' := fun heq => hname.not_cr_last (heq ▸ hc)
    simpa using hne
  have hkept : Text.dropEndWhile (· == '\r') (name ++ List.replicate n '\r') = name := by
    calc
      Text.dropEndWhile (· == '\r') (name ++ List.replicate n '\r') =
          Text.dropEndWhile (· == '\r') name := Text.dropEndWhile_append hreturns
      _ = name := Text.dropEndWhile_of_getLast? hlast
  rw [named, hkept]
  simp [hname.ne_nil]

theorem named_replicate (n : Nat) : named (List.replicate n '\r') = [] := by
  have hreturns : ∀ c ∈ List.replicate n '\r', (c == '\r') = true := by simp
  have hnothing : Text.dropEndWhile (· == '\r') (List.replicate n '\r') = [] := by
    simpa [Text.dropEndWhile_nil] using Text.dropEndWhile_append (t := []) hreturns
  rw [named, hnothing]
  rfl

/-- A line is of carriage returns alone, or it is a name with carriage returns behind it. -/
theorem named_cases (line : Text) :
    (∃ n, line = List.replicate n '\r' ∧ named line = []) ∨
      ∃ name n, line = name ++ List.replicate n '\r' ∧ named line = [name] := by
  obtain ⟨n, hn⟩ := Text.exists_replicate_dropEndWhile '\r' line
  by_cases hnil : Text.dropEndWhile (· == '\r') line = []
  · refine .inl ⟨n, ?_, by simp [named, hnil]⟩
    rwa [hnil, List.nil_append, eq_comm] at hn
  · exact .inr ⟨_, n, hn.symm, by simp [named, hnil]⟩

/-! ## All lines -/

/-- An output that lists some names, each on a line of its own and in their order. Carriage returns
may stand in front of a line feed, lines may be of these alone, and the last line need not end. -/
inductive Lists : List Text → Text → Prop
  | nothing (n : Nat) : Lists [] (List.replicate n '\r')
  | last (name : Text) (n : Nat) : Lists [name] (name ++ List.replicate n '\r')
  | skip (n : Nat) {names : List Text} {output : Text} (rest : Lists names output) :
      Lists names (List.replicate n '\r' ++ '\n' :: output)
  | line (name : Text) (n : Nat) {names : List Text} {output : Text} (rest : Lists names output) :
      Lists (name :: names) (name ++ List.replicate n '\r' ++ '\n' :: output)

theorem lf_not_mem_replicate (n : Nat) : '\n' ∉ List.replicate n '\r' := by
  simp

theorem IsName.lf_not_mem (hname : IsName name) (n : Nat) :
    '\n' ∉ name ++ List.replicate n '\r' := by
  simp [hname.not_lf]

-- By induction on the listing: each of its lines adds what it names.
theorem names_ofOutput_of_lists (h : Lists names output) (hnames : ∀ name ∈ names, IsName name) :
    (ofOutput output).names = names := by
  induction h with
  | nothing n => rw [names_ofOutput_line (lf_not_mem_replicate n), named_replicate]
  | last name n =>
      have hname : IsName name := hnames name List.mem_cons_self
      rw [names_ofOutput_line (hname.lf_not_mem n), named_of_isName hname]
  | @skip n names output _ ih =>
      calc
        (ofOutput (List.replicate n '\r' ++ '\n' :: output)).names =
            named (List.replicate n '\r') ++ (ofOutput output).names :=
          names_ofOutput_append (lf_not_mem_replicate n) output
        _ = names := by rw [named_replicate, ih hnames, List.nil_append]
  | @line name n names output _ ih =>
      have hname : IsName name := hnames name List.mem_cons_self
      have hrest := ih fun other hother => hnames other (List.mem_cons_of_mem name hother)
      calc
        (ofOutput (name ++ List.replicate n '\r' ++ '\n' :: output)).names =
            named (name ++ List.replicate n '\r') ++ (ofOutput output).names :=
          names_ofOutput_append (hname.lf_not_mem n) output
        _ = name :: names := by rw [named_of_isName hname, hrest, List.singleton_append]

/-- Every output lists the names that are read from it. -/
theorem lists_names_ofOutput (output : Text) : Lists (ofOutput output).names output := by
  induction output using Text.lineFeed_induction with
  | last line hline =>
      rw [names_ofOutput_line hline]
      rcases named_cases line with ⟨n, rfl, hnamed⟩ | ⟨name, n, rfl, hnamed⟩
      · rw [hnamed]
        exact .nothing n
      · rw [hnamed]
        exact .last name n
  | more line rest hline ih =>
      rw [names_ofOutput_append hline]
      rcases named_cases line with ⟨n, rfl, hnamed⟩ | ⟨name, n, rfl, hnamed⟩
      · rw [hnamed]
        exact .skip n ih
      · rw [hnamed]
        exact .line name n ih

def toOutput (tags : TagSet) : Text :=
  tags.names.flatMap (· ++ ['\n'])

theorem lists_toOutput (tags : TagSet) : Lists tags.names tags.toOutput := by
  obtain ⟨names⟩ := tags
  induction names with
  | nil => exact .nothing 0
  | cons name names ih =>
      have hline := Lists.line name 0 ih
      simpa [toOutput] using hline

/-- Names that can stand on lines of their own are read from an output exactly if it lists them. All
names that are read from an output are of this kind, and printed one on each line they are read back
in their order and with their repetitions. -/
theorem names_ofOutput_eq_iff :
    (∀ (names : List Text) (output : Text), (∀ name ∈ names, IsName name) →
      ((ofOutput output).names = names ↔ Lists names output)) ∧
    ∀ output : Text, (∀ name ∈ (ofOutput output).names, IsName name) ∧
      ofOutput (ofOutput output).toOutput = ofOutput output := by
  have hread : ∀ text : Text, ∀ name ∈ (ofOutput text).names, IsName name :=
    fun _ _ => isName_of_mem_names
  refine ⟨fun names text hnames => ⟨?_, fun h => names_ofOutput_of_lists h hnames⟩,
    fun text => ⟨hread text, ?_⟩⟩
  · rintro rfl
    exact lists_names_ofOutput text
  · exact congrArg TagSet.mk (names_ofOutput_of_lists (lists_toOutput (ofOutput text)) (hread text))

def untidyNames : List Text :=
  ["1.3.0", "\rv1\r3", "1.3.0"]

/-- A blank line, lines with several carriage returns at the end or none, a name that has one within,
and no last line feed. -/
def untidyOutput : Text :=
  "\r\n1.3.0\r\r\n\n\rv1\r3\n1.3.0\r"

theorem names_ofOutput_eq_iff_untidy :
    (∀ name ∈ untidyNames, IsName name) ∧ (ofOutput untidyOutput).names = untidyNames := by
  have hnames : ∀ name ∈ untidyNames, IsName name := by decide
  have hlists : Lists untidyNames untidyOutput :=
    .skip 1 (.line "1.3.0" 2 (.skip 0 (.line "\rv1\r3" 0 (.last "1.3.0" 1))))
  exact ⟨hnames, (names_ofOutput_eq_iff.1 _ _ hnames).mpr hlists⟩

end TagSet

end VersionStamp
