import VersionStamp.Proofs.Toml.Lines

namespace VersionStamp.Toml

/-!
# Tables in a document

A table of strings stands below a heading, or in front of all headings: as dotted keys, between
which others may stand, or between braces. However the tables are arranged, the document has the
fields of each of them, in the order in which they are written.
-/

abbrev WrittenTable := Text × List WrittenField

/-- What may stand in front of the headings. -/
inductive Opening where
  | dotted (table : Text) (f : WrittenField)
  | inlined (table : Text) (fields : List WrittenField)

namespace Opening

def table : Opening → Text
  | .dotted table _ => table
  | .inlined table _ => table

def fields : Opening → List WrittenField
  | .dotted _ f => [f]
  | .inlined _ fields => fields

def isDotted : Opening → Bool
  | .dotted .. => true
  | .inlined .. => false

def line : Opening → Line
  | .dotted table f => .assignment [table] f.name f.written
  | .inlined table fields => .assignment [] table (.table fields)

def outline : Opening → List Text × Text × Content
  | .dotted table f => ([table], f.content)
  | .inlined table fields => ([], table, .table (fields.map WrittenField.content))

theorem outline_line (o : Opening) : o.line.outline = .assignment o.outline := by
  cases o <;> rfl

def group (o : Opening) : WrittenTable :=
  (o.table, o.fields)

end Opening

def fieldsOf (groups : List WrittenTable) (table : Text) : List WrittenField :=
  groups.flatMap fun g => if g.1 = table then g.2 else []

/-- What groups say about a table. -/
def said? (groups : List WrittenTable) (table : Text) : Option Content :=
  if table ∈ groups.map Prod.fst then
    some (.table ((fieldsOf groups table).map WrittenField.content))
  else none

/-- What stands in front of the headings, and the tables below headings. -/
structure Arrangement where
  front : List Opening
  headed : List WrittenTable

namespace Arrangement

def groups (A : Arrangement) : List WrittenTable :=
  A.front.map Opening.group ++ A.headed

def tables (A : Arrangement) : List Text :=
  A.groups.map Prod.fst

def fields (A : Arrangement) (table : Text) : List WrittenField :=
  fieldsOf A.groups table

def lines (A : Arrangement) : List Line :=
  A.front.map Opening.line ++ A.headed.flatMap fun (table, fields) =>
    .heading table :: fields.map fun f => .assignment [] f.name f.written

def text (A : Arrangement) : Text :=
  A.lines.flatMap Line.text

/-- Whether each table stands in one place or only in dotted keys, and has no name twice. -/
structure IsConsistent (A : Arrangement) : Prop where
  notations : A.front.Pairwise fun o o' => o.table = o'.table → o.isDotted ∧ o'.isDotted
  headings : (A.headed.map Prod.fst).Nodup
  apart : ∀ o ∈ A.front, o.table ∉ A.headed.map Prod.fst
  names : ∀ table ∈ A.tables, ((A.fields table).map WrittenField.name).Nodup

end Arrangement

/-! ## What groups say -/

section Groups

variable {groups : List WrittenTable} {table : Text} {fields : List WrittenField}

theorem fieldsOf_append (groups more : List WrittenTable) (table : Text) :
    fieldsOf (groups ++ more) table = fieldsOf groups table ++ fieldsOf more table := by
  simp [fieldsOf]

theorem fieldsOf_cons_self (groups : List WrittenTable) :
    fieldsOf ((table, fields) :: groups) table = fields ++ fieldsOf groups table := by
  simp [fieldsOf]

theorem fieldsOf_append_cons_self (groups more : List WrittenTable) :
    fieldsOf (groups ++ (table, fields) :: more) table =
      fieldsOf groups table ++ fields ++ fieldsOf more table := by
  calc
    fieldsOf (groups ++ (table, fields) :: more) table =
        fieldsOf groups table ++ fieldsOf ((table, fields) :: more) table := fieldsOf_append ..
    _ = fieldsOf groups table ++ (fields ++ fieldsOf more table) := by rw [fieldsOf_cons_self]
    _ = fieldsOf groups table ++ fields ++ fieldsOf more table := (List.append_assoc ..).symm

theorem fieldsOf_eq_nil (h : table ∉ groups.map Prod.fst) : fieldsOf groups table = [] := by
  simp only [fieldsOf, List.flatMap_eq_nil_iff]
  intro g hg
  have hne : g.1 ≠ table := fun heq => h (heq ▸ List.mem_map_of_mem hg)
  rw [if_neg hne]

theorem said?_append_self (fields : List WrittenField) :
    said? (groups ++ [(table, fields)]) table =
      some (.table ((fieldsOf groups table ++ fields).map WrittenField.content)) := by
  simp [said?, fieldsOf]

theorem said?_append_ne {other : Text} (h : other ≠ table) :
    said? (groups ++ [(table, fields)]) other = said? groups other := by
  have hmem : other ∈ (groups ++ [(table, fields)]).map Prod.fst ↔ other ∈ groups.map Prod.fst := by
    simp [h]
  have hnone : fieldsOf [(table, fields)] other = [] := fieldsOf_eq_nil (by simpa using h)
  simp only [said?, hmem, fieldsOf_append, hnone, List.append_nil]

end Groups

/-! ## Changes of one entry -/

namespace Entries

/-- The entries of a table have been changed at one name, where there is a node now. -/
structure Updates (entries entries' : Entries) (name : Text) (node : Node) : Prop where
  found : entries'.find? name = some node
  others : ∀ other, other ≠ name → entries'.find? other = entries.find? other

variable {entries entries' : Entries} {name : Text} {node : Node}

theorem updates_append {key : Key} (h : entries.find? key.name = none) :
    Updates entries (entries ++ [(key, node)]) key.name node := by
  constructor
  · have hnone : List.find? (fun e : Key × Node => e.1.name == key.name) entries = none := by
      simpa [find?] using h
    simp [find?, List.find?_append, hnone]
  · intro other hother
    simp [find?, List.find?_append, hother.symm]

theorem updates_replace {old : Node} (h : entries.find? name = some old) :
    Updates entries (entries.replace name node) name node := by
  have hreplace : ∀ other, (entries.replace name node).find? other =
      (List.find? (fun e : Key × Node => e.1.name == other) entries).map
        fun e => if e.1.name == name then node else e.2 := by
    intro other
    rw [find?, replace, List.find?_map, Option.map_map]
    rfl
  constructor
  · obtain ⟨e, he, -⟩ := Option.map_eq_some_iff.mp h
    have hname := List.find?_some he
    calc
      (entries.replace name node).find? name =
          (some e).map fun e => if e.1.name == name then node else e.2 := by rw [hreplace, he]
      _ = some node := by rw [Option.map_some, if_pos hname]
  · intro other hother
    rw [hreplace, find?]
    cases he : List.find? (fun e : Key × Node => e.1.name == other) entries with
    | none => rfl
    | some e =>
        have hname : e.1.name = other := by simpa using List.find?_some he
        simp [hname, hother]

/-- The entries are the tables of the groups. -/
def Shows (entries : Entries) (groups : List WrittenTable) : Prop :=
  ∀ table, (entries.find? table).map Node.content = said? groups table

theorem Shows.find?_eq_none {groups : List WrittenTable} (h : entries.Shows groups)
    {table : Text} (hnew : table ∉ groups.map Prod.fst) : entries.find? table = none := by
  have hsaid := h table
  rw [said?, if_neg hnew] at hsaid
  exact Option.map_eq_none_iff.mp hsaid

/-- A further group is shown if the node of its table has the fields of all groups so far. -/
theorem Shows.append {groups : List WrittenTable} {fields : List WrittenField}
    (h : entries.Shows groups) (hu : Updates entries entries' name node)
    (hnode : node.content =
      .table ((fieldsOf groups name ++ fields).map WrittenField.content)) :
    entries'.Shows (groups ++ [(name, fields)]) := by
  intro table
  by_cases heq : table = name
  · subst heq
    calc
      (entries'.find? table).map Node.content = some node.content := by
        rw [hu.found, Option.map_some]
      _ = some (.table ((fieldsOf groups table ++ fields).map WrittenField.content)) := by
        rw [hnode]
      _ = said? (groups ++ [(table, fields)]) table := (said?_append_self ..).symm
  · calc
      (entries'.find? table).map Node.content = (entries.find? table).map Node.content := by
        rw [hu.others table heq]
      _ = said? groups table := h table
      _ = said? (groups ++ [(name, fields)]) table := (said?_append_ne heq).symm

end Entries

/-! ## In front of the headings -/

section Front

open Entries (Updates Shows)

variable {entries : Entries}

/-- A dotted key adds a field behind those that its table has already. -/
theorem exists_addTo?_dotted {a : Assignment} {table name : Text} {c : Content} {inner : Entries}
    (ha : a.outline = ([table], name, c))
    (hfind : (entries.find? table = none ∧ inner = []) ∨
      ∃ span, entries.find? table = some (.table .dotted inner span))
    (hnew : inner.find? name = none) :
    ∃ entries' key node span, (key.name, node.content) = (name, c) ∧
      a.addTo? entries = some entries' ∧
        Updates entries entries' table (.table .dotted (inner ++ [(key, node)]) span) := by
  obtain ⟨path, key, value⟩ := a
  obtain ⟨hpath, hpair⟩ := Prod.mk.inj ha
  obtain ⟨outer, rfl, rfl⟩ := List.map_eq_singleton_iff.mp hpath
  obtain ⟨rfl, rfl⟩ := Prod.mk.inj hpair
  rcases hfind with ⟨hnone, rfl⟩ | ⟨span, hsome⟩
  · refine ⟨_, key, value, none, rfl, ?_, Entries.updates_append hnone⟩
    have hempty : Entries.find? [] key.name = none := rfl
    simp [Assignment.addTo?, changeTable?, hnone, Access.byDottedKey, Entries.insertNew?, hempty]
  · refine ⟨_, key, value, span, rfl, ?_, Entries.updates_replace hsome⟩
    simp only at hnew
    simp [Assignment.addTo?, changeTable?, hsome, Access.byDottedKey, Entries.insertNew?, hnew]

/-- The entries are the tables of the openings, and a table of dotted keys is still open. -/
structure Holds (entries : Entries) (done : List Opening) : Prop where
  shows : entries.Shows (done.map Opening.group)
  dotted : ∀ o ∈ done, o.isDotted → ∃ inner span,
    entries.find? o.table = some (.table .dotted inner span)

theorem Holds.append {entries' : Entries} {done : List Opening} {o : Opening} {node : Node}
    (h : Holds entries done) (hu : Updates entries entries' o.table node)
    (hnode : node.content = .table
      ((fieldsOf (done.map Opening.group) o.table ++ o.fields).map WrittenField.content))
    (hform : ∀ p ∈ done ++ [o], p.isDotted → p.table = o.table →
      ∃ inner span, node = .table .dotted inner span) :
    Holds entries' (done ++ [o]) := by
  constructor
  · rw [List.map_append]
    exact h.shows.append hu hnode
  · intro p hp hdotted
    by_cases heq : p.table = o.table
    · obtain ⟨inner, span, rfl⟩ := hform p hp hdotted heq
      exact ⟨inner, span, by rw [heq, hu.found]⟩
    · -- a table of dotted keys that is not the changed one is open as before
      have hdone : p ∈ done := by
        rcases List.mem_append.mp hp with hp | hp
        · exact hp
        · obtain rfl := List.mem_singleton.mp hp
          exact absurd rfl heq
      rw [hu.others p.table heq]
      exact h.dotted p hdone hdotted

/-- What dotted keys have made of a table so far, which is nothing in front of the first one. -/
theorem Holds.exists_inner {done : List Opening} (h : Holds entries done) {table : Text}
    (hdots : ∀ p ∈ done, p.table = table → p.isDotted) :
    ∃ inner : Entries,
      inner.content = (fieldsOf (done.map Opening.group) table).map WrittenField.content ∧
        ((entries.find? table = none ∧ inner = []) ∨
          ∃ span, entries.find? table = some (.table .dotted inner span)) := by
  by_cases hmem : table ∈ (done.map Opening.group).map Prod.fst
  · obtain ⟨p, hp, rfl⟩ : ∃ p ∈ done, p.table = table := by
      simpa [Opening.group] using hmem
    obtain ⟨inner, span, hfind⟩ := h.dotted p hp (hdots p hp rfl)
    have hsaid := h.shows p.table
    rw [hfind, Option.map_some, said?, if_pos hmem, Node.content, entryContents_eq] at hsaid
    exact ⟨inner, Content.table.inj (Option.some.inj hsaid), .inr ⟨span, hfind⟩⟩
  · refine ⟨[], ?_, .inl ⟨h.shows.find?_eq_none hmem, rfl⟩⟩
    rw [fieldsOf_eq_nil hmem]
    rfl

/-- The next opening is accepted, since no name of its table is taken. -/
theorem Holds.exists_addTo? {done : List Opening} {o : Opening} {a : Assignment}
    (h : Holds entries done)
    (hdots : ∀ p ∈ done, p.table = o.table → p.isDotted ∧ o.isDotted)
    (hnames : ((fieldsOf (done.map Opening.group) o.table ++ o.fields).map
      WrittenField.name).Nodup)
    (ha : a.outline = o.outline) :
    ∃ entries', a.addTo? entries = some entries' ∧ Holds entries' (done ++ [o]) := by
  cases o with
  | inlined table fields =>
      -- a table between braces has no opening before it, as both would have to be dotted
      have hother : ∀ p ∈ done, p.table ≠ table := by
        intro p hp heq
        exact absurd (hdots p hp heq).2 (by simp [Opening.isDotted])
      have hnew : table ∉ (done.map Opening.group).map Prod.fst := by
        simpa [Opening.group] using hother
      have hnone := h.shows.find?_eq_none hnew
      obtain ⟨key, node, hpair, hadd⟩ := exists_addTo?_new ha hnone
      obtain ⟨rfl, hnode⟩ := Prod.mk.inj hpair
      refine ⟨_, hadd, h.append (Entries.updates_append hnone) ?_ ?_⟩
      · rw [hnode, Opening.table, fieldsOf_eq_nil hnew]
        rfl
      · intro p hp hdotted heq
        rcases List.mem_append.mp hp with hp | hp
        · exact absurd heq (hother p hp)
        · obtain rfl := List.mem_singleton.mp hp
          cases hdotted
  | dotted table f =>
      obtain ⟨inner, hinner, hfind⟩ := h.exists_inner fun p hp heq => (hdots p hp heq).1
      have hnew : inner.find? f.name = none := by
        apply find?_eq_none_of_not_mem
        rw [hinner]
        rw [List.map_append] at hnames
        have hfresh := not_mem_of_nodup hnames
        simpa [WrittenField.content] using hfresh
      obtain ⟨entries', key, node, span, hpair, hadd, hu⟩ :=
        exists_addTo?_dotted ha hfind hnew
      refine ⟨entries', hadd, h.append hu ?_ fun _ _ _ _ => ⟨_, _, rfl⟩⟩
      have hcontent : Entries.content (inner ++ [(key, node)]) =
          (fieldsOf (done.map Opening.group) table ++ [f]).map WrittenField.content := by
        calc
          Entries.content (inner ++ [(key, node)]) =
              inner.content ++ [(key.name, node.content)] := content_append ..
          _ = (fieldsOf (done.map Opening.group) table).map WrittenField.content ++
              [f].map WrittenField.content := by
            rw [hinner, hpair]
            rfl
          _ = (fieldsOf (done.map Opening.group) table ++ [f]).map WrittenField.content :=
            List.map_append.symm
      rw [Node.content, entryContents_eq]
      exact congrArg Content.table hcontent

theorem Holds.exists_assignAll? {done more : List Opening} {body : List Assignment}
    (h : Holds entries done)
    (hpairwise : (done ++ more).Pairwise fun o o' => o.table = o'.table → o.isDotted ∧ o'.isDotted)
    (hnames : ∀ table, ((fieldsOf ((done ++ more).map Opening.group) table).map
      WrittenField.name).Nodup)
    (hbody : body.map Assignment.outline = more.map Opening.outline) :
    ∃ entries', assignAll? entries body = some entries' ∧ Holds entries' (done ++ more) := by
  -- `done` grows by the opening that is taken, which finds what those before it have made
  induction more generalizing done entries body with
  | nil =>
      obtain rfl := List.map_eq_nil_iff.mp hbody
      exact ⟨entries, rfl, by simpa using h⟩
  | cons o more ih =>
      obtain ⟨a, body, rfl, ha, hbody⟩ := List.map_eq_cons_iff.mp hbody
      have hsplit : done ++ o :: more = (done ++ [o]) ++ more := by simp
      have hbefore : ∀ p ∈ done, p.table = o.table → p.isDotted ∧ o.isDotted := by
        intro p hp
        exact (List.pairwise_append.mp hpairwise).2.2 p hp o List.mem_cons_self
      have hfirst : ((fieldsOf (done.map Opening.group) o.table ++ o.fields).map
          WrittenField.name).Nodup := by
        have hall := hnames o.table
        rw [List.map_append, List.map_cons, Opening.group, fieldsOf_append_cons_self,
          List.map_append] at hall
        exact (List.nodup_append.mp hall).1
      obtain ⟨between, hadd, hholds⟩ := h.exists_addTo? hbefore hfirst ha
      rw [hsplit] at hpairwise hnames
      obtain ⟨entries', hassign, hlast⟩ := ih hholds hpairwise hnames hbody
      refine ⟨entries', ?_, by rw [hsplit]; exact hlast⟩
      rw [assignAll?, List.foldlM_cons, hadd]
      exact hassign

end Front

/-! ## Below headings -/

section Headed

variable {entries : Entries}

def WrittenField.outline (f : WrittenField) : List Text × Text × Content :=
  ([], f.content)

def Section.outline (s : Section) : (List Text × Text × Bool) × List (List Text × Text × Content) :=
  (s.heading.outline, s.body.map Assignment.outline)

def headedOutline (g : WrittenTable) :
    (List Text × Text × Bool) × List (List Text × Text × Content) :=
  (([], g.1, false), g.2.map WrittenField.outline)

theorem exists_assignAll?_fields {fields : List WrittenField} {body : List Assignment}
    (hbody : body.map Assignment.outline = fields.map WrittenField.outline) (entries : Entries)
    (hnames : (entries.content.map Prod.fst ++ fields.map WrittenField.name).Nodup) :
    ∃ entries' : Entries, assignAll? entries body = some entries' ∧
      entries'.content = entries.content ++ fields.map WrittenField.content := by
  induction fields generalizing body entries with
  | nil =>
      obtain rfl := List.map_eq_nil_iff.mp hbody
      exact ⟨entries, rfl, by simp⟩
  | cons f fields ih =>
      obtain ⟨a, body, rfl, ha, hbody⟩ := List.map_eq_cons_iff.mp hbody
      obtain ⟨between, hadd, hbetween, hnames⟩ := exists_addTo?_field ha hnames
      obtain ⟨entries', hassign, hcontent⟩ := ih hbody between hnames
      refine ⟨entries', ?_, by simp [hcontent, hbetween]⟩
      rw [assignAll?, List.foldlM_cons, hadd]
      exact hassign

/-- A section under a new heading is accepted with all its fields. -/
theorem Section.exists_addTo? {s : Section} {groups : List WrittenTable}
    {g : WrittenTable} (h : entries.Shows groups) (hs : s.outline = headedOutline g)
    (hnew : g.1 ∉ groups.map Prod.fst) (hnames : (g.2.map WrittenField.name).Nodup) :
    ∃ entries', s.addTo? entries = some entries' ∧ entries'.Shows (groups ++ [g]) := by
  obtain ⟨hheading, hbody⟩ := Prod.mk.inj hs
  obtain ⟨hpath, hrest⟩ := Prod.mk.inj hheading
  obtain ⟨hkey, hrepeated⟩ := Prod.mk.inj hrest
  have hpath : s.heading.path = [] := List.map_eq_nil_iff.mp hpath
  have hnone : entries.find? s.heading.key.name = none := by
    rw [hkey]
    exact h.find?_eq_none hnew
  obtain ⟨inner, hassign, hcontent⟩ := exists_assignAll?_fields hbody []
    (by simpa [Entries.content] using hnames)
  have hadd : s.addTo? entries =
      some (entries ++ [(s.heading.key, .table .headed inner (some s.span))]) := by
    rw [addTo?, hpath, changeTable?, place?]
    simp only [hrepeated, hnone, table?, hassign, Option.bind_eq_bind, Option.bind_some]
  have hu : Entries.Updates entries
      (entries ++ [(s.heading.key, .table .headed inner (some s.span))]) s.heading.key.name
        (.table .headed inner (some s.span)) :=
    Entries.updates_append hnone
  rw [hkey] at hu
  refine ⟨_, hadd, h.append hu ?_⟩
  rw [fieldsOf_eq_nil hnew, Node.content, entryContents_eq]
  exact congrArg Content.table hcontent

theorem exists_foldlM_addTo? {groups headed : List WrittenTable}
    {sections : List Section} (h : entries.Shows groups)
    (hs : sections.map Section.outline = headed.map headedOutline)
    (hheadings : (headed.map Prod.fst).Nodup)
    (hapart : ∀ g ∈ headed, g.1 ∉ groups.map Prod.fst)
    (hnames : ∀ g ∈ headed, (g.2.map WrittenField.name).Nodup) :
    ∃ entries', sections.foldlM (fun entries s => s.addTo? entries) entries = some entries' ∧
      entries'.Shows (groups ++ headed) := by
  -- no section finds a table of its name among those before it
  induction headed generalizing groups entries sections with
  | nil =>
      obtain rfl := List.map_eq_nil_iff.mp hs
      exact ⟨entries, rfl, by simpa using h⟩
  | cons g headed ih =>
      obtain ⟨s, sections, rfl, hs, hsections⟩ := List.map_eq_cons_iff.mp hs
      obtain ⟨hnew, hheadings⟩ := List.nodup_cons.mp hheadings
      obtain ⟨between, hadd, hshows⟩ := s.exists_addTo? h hs (hapart g List.mem_cons_self)
        (hnames g List.mem_cons_self)
      have hapart' : ∀ g' ∈ headed, g'.1 ∉ (groups ++ [g]).map Prod.fst := by
        intro g' hg' hmem
        rw [List.map_append, List.mem_append] at hmem
        rcases hmem with hmem | hmem
        · exact hapart g' (List.mem_cons_of_mem _ hg') hmem
        · have heq : g'.1 = g.1 := by simpa using hmem
          exact hnew (heq ▸ List.mem_map_of_mem hg')
      obtain ⟨entries', hmore, hlast⟩ := ih hshows hsections hheadings hapart'
        fun g' hg' => hnames g' (List.mem_cons_of_mem _ hg')
      refine ⟨entries', ?_, by rw [List.append_cons]; exact hlast⟩
      rw [List.foldlM_cons, hadd]
      exact hmore

/-- Statements that say assignments and then headings with assignments below them are split there. -/
theorem outline_sections {statements : List Statement} {front : List (List Text × Text × Content)}
    {back : List ((List Text × Text × Bool) × List (List Text × Text × Content))}
    (h : statements.map Statement.outline =
      front.map Outline.assignment ++
        back.flatMap fun b => .heading b.1 :: b.2.map Outline.assignment) :
    (sections statements).1.map Assignment.outline = front ∧
      (sections statements).2.map Section.outline = back := by
  induction statements generalizing front back with
  | nil =>
      obtain ⟨hfront, hback⟩ := List.append_eq_nil_iff.mp h.symm
      obtain rfl := List.map_eq_nil_iff.mp hfront
      cases back with
      | nil => exact ⟨rfl, rfl⟩
      | cons b back => cases hback
  | cons s statements ih =>
      cases front with
      | nil =>
          cases back with
          | nil => cases h
          | cons b back =>
              obtain ⟨hs, hstatements⟩ := List.cons.inj h
              obtain ⟨hfront, hback⟩ := ih hstatements
              cases s with
              | assignment a => cases hs
              | heading heading =>
                  refine ⟨rfl, ?_⟩
                  change (heading.outline, (sections statements).1.map Assignment.outline) ::
                    (sections statements).2.map Section.outline = _
                  rw [hfront, hback, Outline.heading.inj hs]
      | cons a front =>
          obtain ⟨hs, hstatements⟩ := List.cons.inj h
          obtain ⟨hfront, hback⟩ := ih hstatements
          cases s with
          | heading heading => cases hs
          | assignment a' =>
              refine ⟨?_, hback⟩
              change a'.outline :: (sections statements).1.map Assignment.outline = _
              rw [hfront, Outline.assignment.inj hs]

end Headed

/-! ## Documents -/

namespace Arrangement

variable {A : Arrangement}

theorem IsConsistent.nodup_fields (h : A.IsConsistent) (table : Text) :
    ((A.fields table).map WrittenField.name).Nodup := by
  by_cases hmem : table ∈ A.tables
  · exact h.names table hmem
  · rw [fields, fieldsOf_eq_nil hmem]
    exact .nil

theorem IsConsistent.nodup_names (h : A.IsConsistent) {g : WrittenTable}
    (hg : g ∈ A.groups) : (g.2.map WrittenField.name).Nodup := by
  obtain ⟨before, after, hgroups⟩ := List.append_of_mem hg
  have hnames := h.nodup_fields g.1
  rw [fields, hgroups, fieldsOf_append_cons_self, List.map_append, List.map_append] at hnames
  exact (List.nodup_append.mp (List.nodup_append.mp hnames).1).2.1

/-- Every line of a consistent arrangement can be read. -/
theorem IsConsistent.isReadable (h : A.IsConsistent)
    (hbare : ∀ table ∈ A.tables, IsBare table) : ∀ line ∈ A.lines, line.IsReadable := by
  intro line hline
  rcases List.mem_append.mp hline with hline | hline
  · obtain ⟨o, ho, rfl⟩ := List.mem_map.mp hline
    have hgroup : o.group ∈ A.groups := List.mem_append_left _ (List.mem_map_of_mem ho)
    have htable : IsBare o.table := hbare _ (List.mem_map_of_mem hgroup)
    cases o with
    | dotted table f =>
        refine ⟨(by decide : 1 < pathLimit), ?_, trivial⟩
        intro n hn
        rcases List.mem_cons.mp hn with rfl | hn
        · exact htable
        · obtain rfl := List.mem_singleton.mp hn
          exact f.bare
    | inlined table fields =>
        have hname : IsBare table := htable
        exact ⟨by decide, by simpa using hname, h.nodup_names hgroup⟩
  · obtain ⟨g, hg, hline⟩ := List.mem_flatMap.mp hline
    have htable : IsBare g.1 := hbare _ (List.mem_map_of_mem (List.mem_append_right _ hg))
    rcases List.mem_cons.mp hline with rfl | hline
    · exact htable
    · obtain ⟨f, -, rfl⟩ := List.mem_map.mp hline
      exact ⟨by decide, by simpa using f.bare, trivial⟩

/-- The lines say what is in front of the headings and then what is below each of them. -/
theorem outline_lines (A : Arrangement) :
    A.lines.map Line.outline =
      (A.front.map Opening.outline).map Outline.assignment ++
        (A.headed.map headedOutline).flatMap fun b =>
          .heading b.1 :: b.2.map Outline.assignment := by
  have hfront : Line.outline ∘ Opening.line = Outline.assignment ∘ Opening.outline :=
    funext Opening.outline_line
  simp only [lines, headedOutline, List.map_append, List.map_cons, List.map_map, List.map_flatMap,
    List.flatMap_map, hfront]
  rfl

/-- However the tables are arranged, the document has the fields of each of them. -/
theorem exists_ofDocument? (hA : A.IsConsistent) (hbare : ∀ table ∈ A.tables, IsBare table) :
    ∃ entries, Entries.ofDocument? A.text = some entries ∧ entries.Shows A.groups := by
  have hreadable := hA.isReadable hbare
  have hmark : skipMark A.text = A.text := by
    cases hlines : A.lines with
    | nil =>
        rw [text, hlines]
        rfl
    | cons line lines =>
        obtain ⟨c, more, htext, hc⟩ := Line.exists_text_cons (hreadable line (by simp [hlines]))
        rw [text, hlines, List.flatMap_cons, htext, List.cons_append, (skipLayout_cons hc).2]
  obtain ⟨statements, houtline, hread⟩ :=
    exists_readStatements? hreadable (Nat.lt_succ_self A.text.length)
  obtain ⟨hfront, hheaded⟩ := outline_sections (houtline.trans A.outline_lines)
  have hempty : Holds [] [] := ⟨fun _ => rfl, by simp⟩
  have hnames : ∀ table, ((fieldsOf (A.front.map Opening.group) table).map
      WrittenField.name).Nodup := by
    intro table
    have hall := hA.nodup_fields table
    rw [fields, groups, fieldsOf_append, List.map_append] at hall
    exact (List.nodup_append.mp hall).1
  have hapart : ∀ g ∈ A.headed, g.1 ∉ (A.front.map Opening.group).map Prod.fst := by
    intro g hg hmem
    obtain ⟨o, ho, heq⟩ : ∃ o ∈ A.front, o.table = g.1 := by
      simpa [Opening.group] using hmem
    exact hA.apart o ho (heq ▸ List.mem_map_of_mem hg)
  obtain ⟨begun, hbegun, hholds⟩ := hempty.exists_assignAll? hA.notations hnames hfront
  obtain ⟨entries, hentries, hshows⟩ := exists_foldlM_addTo? hholds.shows hheaded hA.headings hapart
    fun g hg => hA.nodup_names (List.mem_append_right _ hg)
  refine ⟨entries, ?_, hshows⟩
  rw [Entries.ofDocument?, hmark]
  change (readStatements? (A.text.length + 1) A.text).bind Entries.ofStatements? = some entries
  have hread : readStatements? (A.text.length + 1) A.text = some statements := hread
  rw [hread]
  change (assignAll? [] (sections statements).1).bind (fun begun =>
    (sections statements).2.foldlM (fun entries s => s.addTo? entries) begun) = some entries
  rw [hbegun]
  exact hentries

end Arrangement

end VersionStamp.Toml
