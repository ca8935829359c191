import VersionStamp.Proofs.Toml.Assignment
import VersionStamp.Toml.Document

namespace VersionStamp.Toml

/-!
# Reading lines

Each line of a document that is written is read as the statement it says, and the document as the
list of these. Where a statement stands does not matter, only what it says.
-/

inductive Outline where
  | heading (h : List Text × Text × Bool)
  | assignment (a : List Text × Text × Content)

def Heading.outline (h : Heading) : List Text × Text × Bool :=
  (h.path.map Key.name, h.key.name, h.repeated)

def Statement.outline : Statement → Outline
  | .heading h => .heading h.outline
  | .assignment a => .assignment a.outline

inductive Line where
  | heading (table : Text)
  | assignment (path : List Text) (name : Text) (v : WrittenValue)

namespace Line

def text : Line → Text
  | .heading table => '[' :: (table ++ [']', '\n'])
  | .assignment path name v => dottedKey path name ++ ' ' :: '=' :: ' ' :: (v.text ++ ['\n'])

def outline : Line → Outline
  | .heading table => .heading ([], table, false)
  | .assignment path name v => .assignment (path, name, v.content)

/-- Whether the line can be read: its keys are bare and not too many, and no table in it has a name
twice. -/
def IsReadable : Line → Prop
  | .heading table => IsBare table
  | .assignment path name v =>
      path.length < pathLimit ∧ (∀ n ∈ path ++ [name], IsBare n) ∧ v.IsDistinct

end Line

section Statements

variable {limit : Nat} {rest : Text}

theorem Line.exists_text_cons {line : Line} (h : line.IsReadable) :
    ∃ c more, line.text = c :: more ∧ (c = '[' ∨ isBareKeyChar c) := by
  cases line with
  | heading table => exact ⟨'[', _, rfl, .inl rfl⟩
  | assignment path name v =>
      obtain ⟨c, more, htext, hc⟩ := exists_dottedKey_cons h.2.1
      exact ⟨c, _, by rw [text, htext, List.cons_append], .inr hc⟩

/-- A line stands as it is behind layout and behind a byte order mark. -/
theorem skipLayout_cons {c : Char} (h : c = '[' ∨ isBareKeyChar c) :
    skipLayout false (c :: rest) = c :: rest ∧ skipMark (c :: rest) = c :: rest := by
  have hne : ∀ d, ¬ isBareKeyChar d → d ≠ '[' → c ≠ d := by
    rintro d hd hbracket rfl
    rcases h with h | h
    · exact hbracket h
    · exact hd h
  have hbreak : c ≠ '\n' := hne _ (by decide) (by decide)
  have hreturn : c ≠ '\r' := hne _ (by decide) (by decide)
  have hspace : c ≠ ' ' := hne _ (by decide) (by decide)
  have htab : c ≠ '\t' := hne _ (by decide) (by decide)
  have hcomment : c ≠ '#' := hne _ (by decide) (by decide)
  have hmark : c ≠ '\uFEFF' := hne _ (by decide) (by decide)
  constructor
  · simp [skipLayout, beginsBreak, isSpace, hbreak, hreturn, hspace, htab, hcomment]
  · simp [skipMark, hmark]

theorem readStatement?_heading {t : Text} {c : Char} {more : Text} (ht : t = c :: more)
    (hc : c ≠ '[') :
    readStatement? limit ('[' :: t) =
      (readHeading? false ('[' :: t) t).bind fun (heading, rest) =>
        (readTrailer? rest).bind fun rest => some (.heading heading, rest) := by
  subst ht
  unfold readStatement?
  split
  next heq => exact absurd (List.cons.inj (List.cons.inj heq).2).1 hc
  next heq =>
    obtain rfl := (List.cons.inj heq).2
    rfl
  next hone => exact absurd rfl (hone _)

theorem readStatement?_assignment {t : Text} {c : Char} {more : Text} (ht : t = c :: more)
    (hc : c ≠ '[') :
    readStatement? limit t =
      (readAssignment? (readNode? limit depthLimit) t).bind fun (assignment, rest) =>
        (readTrailer? rest).bind fun rest => some (.assignment assignment, rest) := by
  subst ht
  unfold readStatement?
  split
  next heq => exact absurd (List.cons.inj heq).1 hc
  next heq => exact absurd (List.cons.inj heq).1 hc
  next => rfl

theorem exists_readHeading? {table : Text} (hbare : IsBare table) (start rest : Text) :
    ∃ h : Heading, h.outline = ([], table, false) ∧
      readHeading? false start (dottedKey [] table ++ ']' :: '\n' :: rest) =
        some (h, '\n' :: rest) := by
  have hends : EndsKey (']' :: '\n' :: rest) := by
    rintro c ⟨⟩
    decide
  have hskip : skipSpaces (']' :: '\n' :: rest) = ']' :: '\n' :: rest := rfl
  obtain ⟨keys, key, hkeys, rfl, hpath⟩ := exists_readPath? [] (by decide)
    (by simpa using hbare) hends (by simp [hskip])
  obtain rfl := List.map_eq_nil_iff.mp hkeys
  refine ⟨⟨[], key, false, start, '\n' :: rest⟩, rfl, ?_⟩
  rw [readHeading?, hpath]
  rfl

/-- A line is read back as the statement that it makes, up to its break. -/
theorem Line.exists_readStatement? {line : Line} (h : line.IsReadable)
    (hlimit : line.text.length ≤ limit) (rest : Text) :
    ∃ s : Statement, s.outline = line.outline ∧
      readStatement? limit (line.text ++ rest) = some (s, rest) := by
  cases line with
  | heading table =>
      have hbare : IsBare table := h
      obtain ⟨c, more, htable, hc⟩ := hbare.exists_cons
      obtain ⟨heading, hheading, hread⟩ := exists_readHeading? hbare
        ('[' :: (dottedKey [] table ++ ']' :: '\n' :: rest)) rest
      have htext : (Line.heading table).text ++ rest =
          '[' :: (dottedKey [] table ++ ']' :: '\n' :: rest) := by
        simp [text, dottedKey]
      have hstart : dottedKey [] table ++ ']' :: '\n' :: rest =
          c :: (more ++ ']' :: '\n' :: rest) := by
        rw [htable]
        rfl
      refine ⟨.heading heading, congrArg Outline.heading hheading, ?_⟩
      rw [htext, readStatement?_heading hstart (ne_of_isBareKeyChar hc (by decide)), hread]
      rfl
  | assignment path name v =>
      obtain ⟨hpath, hbare, hdistinct⟩ := h
      obtain ⟨c, more, hkey, hc⟩ := exists_dottedKey_cons hbare
      have hlength : v.text.length ≤ limit := by
        simp only [text, List.length_append, List.length_cons] at hlimit
        omega
      have hbreak : ('\n' :: rest).head? ≠ some '"' := by simp
      obtain ⟨node, hnode, hvalue⟩ := v.exists_readNode? hdistinct hbreak hlength 78
      obtain ⟨a, ha, hread⟩ := exists_readAssignment? hpath hbare (v.skipSpaces_text _) hvalue
      have htext : (assignment path name v).text ++ rest =
          dottedKey path name ++ ' ' :: '=' :: ' ' :: (v.text ++ '\n' :: rest) := by
        simp [text]
      have hstart : dottedKey path name ++ ' ' :: '=' :: ' ' :: (v.text ++ '\n' :: rest) =
          c :: (more ++ ' ' :: '=' :: ' ' :: (v.text ++ '\n' :: rest)) := by
        rw [hkey]
        rfl
      refine ⟨.assignment a, by rw [Statement.outline, ha, hnode]; rfl, ?_⟩
      rw [htext, readStatement?_assignment hstart (ne_of_isBareKeyChar hc (by decide)), depthLimit,
        hread]
      rfl

theorem exists_readStatements? {lines : List Line} (h : ∀ line ∈ lines, line.IsReadable)
    {fuel : Nat} (hfuel : (lines.flatMap Line.text).length < fuel) :
    ∃ statements, statements.map Statement.outline = lines.map Line.outline ∧
      readStatements? fuel (lines.flatMap Line.text) = some statements := by
  -- any fuel that is longer than the text is enough, so the induction can be on the lines
  induction lines generalizing fuel with
  | nil =>
      obtain ⟨fuel, rfl⟩ := Nat.exists_eq_add_one.mpr hfuel
      exact ⟨[], rfl, rfl⟩
  | cons line lines ih =>
      obtain ⟨fuel, rfl⟩ := Nat.exists_eq_add_one.mpr (Nat.zero_lt_of_lt hfuel)
      have hline := h line List.mem_cons_self
      obtain ⟨c, more, htext, hc⟩ := Line.exists_text_cons hline
      have hpos : 0 < line.text.length := by simp [htext]
      simp only [List.flatMap_cons, List.length_append] at hfuel ⊢
      have hlimit : line.text.length ≤ fuel := by omega
      have hfuel : (lines.flatMap Line.text).length < fuel := by omega
      obtain ⟨s, hs, hread⟩ := line.exists_readStatement? hline hlimit (lines.flatMap Line.text)
      obtain ⟨statements, hstatements, hmore⟩ :=
        ih (fun l hl => h l (List.mem_cons_of_mem _ hl)) hfuel
      refine ⟨s :: statements, by rw [List.map_cons, List.map_cons, hs, hstatements], ?_⟩
      rw [htext, List.cons_append] at hread ⊢
      rw [readStatements?, (skipLayout_cons hc).1]
      simp only [hread, hmore, Option.bind_eq_bind, Option.bind_some]

end Statements

end VersionStamp.Toml
