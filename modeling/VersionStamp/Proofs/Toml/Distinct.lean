import VersionStamp.Proofs.Toml.Content
import VersionStamp.Toml.Document

namespace VersionStamp.Toml

/-!
# Distinct names

Whatever changes a table keeps its names distinct: a new entry has a new name, and an entry that is
changed keeps its name. So no table of a document has a name twice, at any depth.
-/

namespace Entries

variable {entries : Entries} {key : Key} {name : Text} {node : Node}

theorem isDistinct_nil : IsDistinct [] :=
  ⟨List.nodup_nil, by simp⟩

theorem find?_eq_none_iff : entries.find? name = none ↔ ∀ e ∈ entries, e.1.name ≠ name := by
  simp [find?]

theorem exists_of_find? (h : entries.find? name = some node) :
    ∃ key, (key, node) ∈ entries ∧ key.name = name := by
  obtain ⟨⟨key, node'⟩, hfind, rfl⟩ := Option.map_eq_some_iff.mp h
  exact ⟨key, List.mem_of_find?_eq_some hfind, by simpa using List.find?_some hfind⟩

theorem IsDistinct.of_find? (h : entries.IsDistinct) (hfind : entries.find? name = some node) :
    node.IsDistinct := by
  obtain ⟨key, hmem, -⟩ := exists_of_find? hfind
  exact h.2 _ hmem

theorem IsDistinct.append_new (h : entries.IsDistinct) (hnew : entries.find? key.name = none)
    (hnode : node.IsDistinct) : (entries ++ [(key, node)]).IsDistinct := by
  have hfresh := find?_eq_none_iff.mp hnew
  refine ⟨?_, ?_⟩
  · rw [List.map_append, List.nodup_append]
    refine ⟨h.1, List.pairwise_singleton _ _, ?_⟩
    intro a ha b hb heq
    obtain ⟨e, he, rfl⟩ := List.mem_map.mp ha
    obtain rfl := List.mem_singleton.mp hb
    exact hfresh e he heq
  · intro e he
    rcases List.mem_append.mp he with he | he
    · exact h.2 e he
    · obtain rfl := List.mem_singleton.mp he
      exact hnode

theorem IsDistinct.replace (h : entries.IsDistinct) (hnode : node.IsDistinct) :
    (entries.replace name node).IsDistinct := by
  refine ⟨?_, ?_⟩
  · have hnames : (entries.replace name node).map (fun e => e.1.name) =
        entries.map fun e => e.1.name := by
      rw [Entries.replace, List.map_map]
      rfl
    rw [hnames]
    exact h.1
  · intro e he
    obtain ⟨old, hold, rfl⟩ := List.mem_map.mp he
    by_cases hname : old.1.name == name
    · simpa [hname] using hnode
    · simpa [hname] using h.2 old hold

theorem IsDistinct.erase (h : entries.IsDistinct) : (entries.erase name).IsDistinct :=
  ⟨h.1.sublist (List.filter_sublist.map _), fun e he => h.2 e ((List.mem_filter.mp he).1)⟩

theorem find?_erase_self : (entries.erase name).find? name = none := by
  rw [find?_eq_none_iff]
  intro e he
  simpa using (List.mem_filter.mp he).2

theorem IsDistinct.insertNew? {entries' : Entries} (h : entries.IsDistinct)
    (hnode : node.IsDistinct) (hinsert : entries.insertNew? key node = some entries') :
    entries'.IsDistinct := by
  rw [Entries.insertNew?] at hinsert
  split at hinsert
  next => cases hinsert
  next hnew =>
    obtain rfl := Option.some.inj hinsert
    exact h.append_new (by simpa using hnew) hnode

end Entries

/-- If the change of a table keeps names distinct, so does that change below a path. -/
theorem isDistinct_changeTable? {access : Access} {change : Form → Entries → Option Entries}
    (hchange : ∀ {form entries entries'}, Entries.IsDistinct entries →
      change form entries = some entries' → Entries.IsDistinct entries')
    {form : Form} {path : List Key} {entries entries' : Entries} (h : entries.IsDistinct)
    (hchanged : changeTable? access change form path entries = some entries') :
    entries'.IsDistinct := by
  induction path generalizing form entries entries' with
  | nil => exact hchange h hchanged
  | cons key path ih =>
      simp only [changeTable?] at hchanged
      split at hchanged
      next hnew =>
        obtain ⟨inner, hinner, hadded⟩ := Option.bind_eq_some_iff.mp hchanged
        obtain rfl := Option.some.inj hadded
        have hmade := ih Entries.isDistinct_nil hinner
        exact h.append_new hnew (Node.isDistinct_table_iff.mpr hmade)
      next inner span hfind =>
        split at hchanged
        next =>
          obtain ⟨inner', hinner, hreplaced⟩ := Option.bind_eq_some_iff.mp hchanged
          obtain rfl := Option.some.inj hreplaced
          have hinside := Node.isDistinct_table_iff.mp (h.of_find? hfind)
          exact h.replace (Node.isDistinct_table_iff.mpr (ih hinside hinner))
        next => cases hchanged
      next form' inner last earlier span hfind =>
        obtain ⟨inner', hinner, hreplaced⟩ := Option.bind_eq_some_iff.mp hchanged
        obtain rfl := Option.some.inj hreplaced
        have htables := Node.isDistinct_tables_iff.mp (h.of_find? hfind)
        have hinside := Node.isDistinct_table_iff.mp (htables _ List.mem_cons_self)
        refine h.replace (Node.isDistinct_tables_iff.mpr fun e he => ?_)
        rcases List.mem_cons.mp he with rfl | he
        · exact Node.isDistinct_table_iff.mpr (ih hinside hinner)
        · exact htables e (List.mem_cons_of_mem _ he)
      next => cases hchanged

/-! ## Values -/

theorem Assignment.isDistinct_addTo? {a : Assignment} {entries entries' : Entries}
    (h : entries.IsDistinct) (hvalue : a.value.IsDistinct)
    (hadded : a.addTo? entries = some entries') : entries'.IsDistinct := by
  refine isDistinct_changeTable? (fun {form inner inner'} hinner hchange => ?_) h hadded
  split at hchange
  next => exact hinner.insertNew? hvalue hchange
  next => cases hchange

section Reading

variable {readValue : Text → Option (Node × Text)}

theorem isDistinct_of_readAssignment?
    (hread : ∀ {t node rest}, readValue t = some (node, rest) → Node.IsDistinct node)
    {t rest : Text} {a : Assignment} (h : readAssignment? readValue t = some (a, rest)) :
    a.value.IsDistinct := by
  obtain ⟨⟨path, key, behind⟩, -, h⟩ := Option.bind_eq_some_iff.mp h
  dsimp only at h
  split at h
  next =>
    obtain ⟨⟨value, behindValue⟩, hvalue, h⟩ := Option.bind_eq_some_iff.mp h
    obtain ⟨rfl, -⟩ := Prod.mk.inj (Option.some.inj h)
    exact hread hvalue
  next => cases h

theorem isDistinct_of_readElements?
    (hread : ∀ {t node rest}, readValue t = some (node, rest) → Node.IsDistinct node)
    {fuel : Nat} {t rest : Text} {nodes : List Node}
    (h : readElements? readValue fuel t = some (nodes, rest)) : ∀ e ∈ nodes, e.IsDistinct := by
  induction fuel generalizing t rest nodes with
  | zero => cases h
  | succ fuel ih =>
      rw [readElements?] at h
      split at h
      next =>
        obtain ⟨rfl, -⟩ := Prod.mk.inj (Option.some.inj h)
        simp
      next =>
        obtain ⟨⟨node, behind⟩, hnode, h⟩ := Option.bind_eq_some_iff.mp h
        have hdistinct := hread hnode
        dsimp only at h
        split at h
        next =>
          obtain ⟨⟨more, behindMore⟩, hmore, h⟩ := Option.bind_eq_some_iff.mp h
          obtain ⟨rfl, -⟩ := Prod.mk.inj (Option.some.inj h)
          intro e he
          rcases List.mem_cons.mp he with rfl | he
          · exact hdistinct
          · exact ih hmore e he
        next =>
          obtain ⟨rfl, -⟩ := Prod.mk.inj (Option.some.inj h)
          intro e he
          obtain rfl := List.mem_singleton.mp he
          exact hdistinct
        next => cases h

theorem isDistinct_of_readAssignments?
    (hread : ∀ {t node rest}, readValue t = some (node, rest) → Node.IsDistinct node)
    {fuel : Nat} {t rest : Text} {entries entries' : Entries} (hentries : entries.IsDistinct)
    (h : readAssignments? readValue fuel entries t = some (entries', rest)) :
    entries'.IsDistinct := by
  induction fuel generalizing t entries with
  | zero => cases h
  | succ fuel ih =>
      rw [readAssignments?] at h
      obtain ⟨⟨a, behind⟩, ha, h⟩ := Option.bind_eq_some_iff.mp h
      obtain ⟨added, hadded, h⟩ := Option.bind_eq_some_iff.mp h
      have hdistinct := Assignment.isDistinct_addTo? hentries
        (isDistinct_of_readAssignment? hread ha) hadded
      split at h
      next => exact ih hdistinct h
      next =>
        obtain ⟨rfl, -⟩ := Prod.mk.inj (Option.some.inj h)
        exact hdistinct
      next => cases h

end Reading

/-- No table of a value that is read has a name twice. -/
theorem isDistinct_of_readNode? {limit depth : Nat} {t rest : Text} {node : Node}
    (h : readNode? limit depth t = some (node, rest)) : node.IsDistinct := by
  induction depth generalizing t node rest with
  | zero =>
      unfold readNode? at h
      obtain ⟨⟨value, behind⟩, -, h⟩ := Option.map_eq_some_iff.mp h
      obtain ⟨rfl, -⟩ := Prod.mk.inj h
      exact .scalar value _
  | succ depth ih =>
      unfold readNode? at h
      split at h
      next inside _ heq =>
        obtain rfl := Nat.succ.inj heq
        obtain ⟨⟨nodes, behind⟩, hnodes, h⟩ := Option.bind_eq_some_iff.mp h
        obtain ⟨rfl, -⟩ := Prod.mk.inj (Option.some.inj h)
        exact .array _ (isDistinct_of_readElements? ih hnodes)
      next inside _ heq =>
        obtain rfl := Nat.succ.inj heq
        split at h
        next =>
          obtain ⟨rfl, -⟩ := Prod.mk.inj (Option.some.inj h)
          exact Node.isDistinct_table_iff.mpr Entries.isDistinct_nil
        next =>
          obtain ⟨⟨entries, behind⟩, hentries, h⟩ := Option.bind_eq_some_iff.mp h
          obtain ⟨rfl, -⟩ := Prod.mk.inj (Option.some.inj h)
          exact Node.isDistinct_table_iff.mpr
            (isDistinct_of_readAssignments? ih Entries.isDistinct_nil hentries)
      next =>
        obtain ⟨⟨value, behind⟩, -, h⟩ := Option.map_eq_some_iff.mp h
        obtain ⟨rfl, -⟩ := Prod.mk.inj h
        exact .scalar value _

/-! ## Documents -/

def Statement.IsDistinct : Statement → Prop
  | .heading _ => True
  | .assignment a => a.value.IsDistinct

theorem isDistinct_of_readStatement? {limit : Nat} {t rest : Text} {statement : Statement}
    (h : readStatement? limit t = some (statement, rest)) : statement.IsDistinct := by
  unfold readStatement? at h
  split at h
  next =>
    obtain ⟨⟨heading, behind⟩, -, h⟩ := Option.bind_eq_some_iff.mp h
    obtain ⟨rest, -, h⟩ := Option.bind_eq_some_iff.mp h
    obtain ⟨rfl, -⟩ := Prod.mk.inj (Option.some.inj h)
    trivial
  next =>
    obtain ⟨⟨heading, behind⟩, -, h⟩ := Option.bind_eq_some_iff.mp h
    obtain ⟨rest, -, h⟩ := Option.bind_eq_some_iff.mp h
    obtain ⟨rfl, -⟩ := Prod.mk.inj (Option.some.inj h)
    trivial
  next =>
    obtain ⟨⟨a, behind⟩, ha, h⟩ := Option.bind_eq_some_iff.mp h
    obtain ⟨rest, -, h⟩ := Option.bind_eq_some_iff.mp h
    obtain ⟨rfl, -⟩ := Prod.mk.inj (Option.some.inj h)
    exact isDistinct_of_readAssignment? isDistinct_of_readNode? ha

theorem isDistinct_of_readStatements? {fuel : Nat} {t : Text} {statements : List Statement}
    (h : readStatements? fuel t = some statements) : ∀ s ∈ statements, s.IsDistinct := by
  induction fuel generalizing t statements with
  | zero => cases h
  | succ fuel ih =>
      rw [readStatements?] at h
      split at h
      next =>
        obtain rfl := Option.some.inj h
        simp
      next =>
        obtain ⟨⟨statement, behind⟩, hstatement, h⟩ := Option.bind_eq_some_iff.mp h
        obtain ⟨more, hmore, h⟩ := Option.bind_eq_some_iff.mp h
        obtain rfl := Option.some.inj h
        intro s hs
        rcases List.mem_cons.mp hs with rfl | hs
        · exact isDistinct_of_readStatement? hstatement
        · exact ih hmore s hs

/-- A fold keeps what each of its steps keeps. -/
theorem isDistinct_foldlM {α : Type} {f : Entries → α → Option Entries} {xs : List α}
    (hstep : ∀ x ∈ xs, ∀ {entries entries'}, Entries.IsDistinct entries →
      f entries x = some entries' → Entries.IsDistinct entries')
    {entries entries' : Entries} (h : entries.IsDistinct)
    (hfold : xs.foldlM f entries = some entries') : entries'.IsDistinct := by
  induction xs generalizing entries with
  | nil =>
      obtain rfl := Option.some.inj hfold
      exact h
  | cons x xs ih =>
      obtain ⟨next, hnext, hrest⟩ := Option.bind_eq_some_iff.mp hfold
      exact ih (fun y hy => hstep y (List.mem_cons_of_mem _ hy))
        (hstep x List.mem_cons_self h hnext) hrest

theorem isDistinct_assignAll? {body : List Assignment} (hbody : ∀ a ∈ body, a.value.IsDistinct)
    {entries entries' : Entries} (h : entries.IsDistinct)
    (hassigned : assignAll? entries body = some entries') : entries'.IsDistinct :=
  isDistinct_foldlM
    (fun a ha {_ _} hentries hadded => a.isDistinct_addTo? hentries (hbody a ha) hadded) h hassigned

namespace Section

variable {s : Section} {entries entries' : Entries}

theorem isDistinct_table? (hbody : ∀ a ∈ s.body, a.value.IsDistinct) (h : entries.IsDistinct)
    {node : Node} (htable : s.table? entries = some node) : node.IsDistinct := by
  obtain ⟨assigned, hassigned, htable⟩ := Option.bind_eq_some_iff.mp htable
  obtain rfl := Option.some.inj htable
  exact Node.isDistinct_table_iff.mpr (isDistinct_assignAll? hbody h hassigned)

/-- Wherever a heading puts its table, the names of all tables stay distinct. -/
theorem isDistinct_place? (hbody : ∀ a ∈ s.body, a.value.IsDistinct) (h : entries.IsDistinct)
    (hplaced : s.place? entries = some entries') : entries'.IsDistinct := by
  rw [place?] at hplaced
  split at hplaced
  next hnew =>
    obtain ⟨table, htable, hplaced⟩ := Option.bind_eq_some_iff.mp hplaced
    obtain rfl := Option.some.inj hplaced
    exact h.append_new hnew (isDistinct_table? hbody Entries.isDistinct_nil htable)
  next inner span hfind =>
    obtain ⟨table, htable, hplaced⟩ := Option.bind_eq_some_iff.mp hplaced
    obtain rfl := Option.some.inj hplaced
    have hinner := Node.isDistinct_table_iff.mp (h.of_find? hfind)
    exact h.erase.append_new Entries.find?_erase_self (isDistinct_table? hbody hinner htable)
  next hnew =>
    obtain ⟨table, htable, hplaced⟩ := Option.bind_eq_some_iff.mp hplaced
    obtain rfl := Option.some.inj hplaced
    have hdistinct := isDistinct_table? hbody Entries.isDistinct_nil htable
    refine h.append_new hnew (Node.isDistinct_tables_iff.mpr fun e he => ?_)
    obtain rfl := List.mem_singleton.mp he
    exact hdistinct
  next earlier span hfind =>
    obtain ⟨table, htable, hplaced⟩ := Option.bind_eq_some_iff.mp hplaced
    obtain rfl := Option.some.inj hplaced
    have hdistinct := isDistinct_table? hbody Entries.isDistinct_nil htable
    have hearlier := Node.isDistinct_tables_iff.mp (h.of_find? hfind)
    refine h.replace (Node.isDistinct_tables_iff.mpr fun e he => ?_)
    rcases List.mem_cons.mp he with rfl | he
    · exact hdistinct
    · exact hearlier e he
  next => cases hplaced

theorem isDistinct_addTo? (hbody : ∀ a ∈ s.body, a.value.IsDistinct) (h : entries.IsDistinct)
    (hadded : s.addTo? entries = some entries') : entries'.IsDistinct :=
  isDistinct_changeTable? (fun {_ _ _} hinner hplaced => isDistinct_place? hbody hinner hplaced)
    h hadded

end Section

/-- The assignments of a document stand in front of its sections or in one of them. -/
theorem isDistinct_sections {statements : List Statement} (h : ∀ s ∈ statements, s.IsDistinct) :
    (∀ a ∈ (sections statements).1, a.value.IsDistinct) ∧
      ∀ s ∈ (sections statements).2, ∀ a ∈ s.body, a.value.IsDistinct := by
  induction statements with
  | nil => exact ⟨by simp [sections], by simp [sections]⟩
  | cons statement statements ih =>
      obtain ⟨hfront, hsections⟩ := ih fun s hs => h s (List.mem_cons_of_mem _ hs)
      have hstatement := h statement List.mem_cons_self
      cases statement with
      | assignment a =>
          refine ⟨fun b hb => ?_, hsections⟩
          rcases List.mem_cons.mp hb with rfl | hb
          · exact hstatement
          · exact hfront b hb
      | heading heading =>
          refine ⟨fun b hb => absurd hb List.not_mem_nil, fun s hs => ?_⟩
          rcases List.mem_cons.mp hs with rfl | hs
          · exact hfront
          · exact hsections s hs

theorem Entries.isDistinct_of_ofDocument? {document : Text} {entries : Entries}
    (h : Entries.ofDocument? document = some entries) : entries.IsDistinct := by
  obtain ⟨statements, hread, h⟩ := Option.bind_eq_some_iff.mp h
  obtain ⟨hfront, hsections⟩ := isDistinct_sections (isDistinct_of_readStatements? hread)
  obtain ⟨begun, hbegun, h⟩ := Option.bind_eq_some_iff.mp h
  have hdistinct := isDistinct_assignAll? hfront Entries.isDistinct_nil hbegun
  exact isDistinct_foldlM
    (fun s hs {_ _} hentries hadded => s.isDistinct_addTo? (hsections s hs) hentries hadded)
    hdistinct h

end VersionStamp.Toml
