import VersionStamp.Proofs.Failure
import VersionStamp.Proofs.Toml.Content
import VersionStamp.Settings.Shape

namespace VersionStamp

/-!
# Records read from content

Setting a record from a node looks at the content of the node alone. It succeeds if the content is
a table of known names or an array, and if what is given for each field is accepted for it. A part
of the record is then what is given for its field, and stays as it was if nothing is given.
-/

open Toml (Node Content Entries lookup?)

namespace Toml.Content

/-- Whether the content can stand for a record with some fields: it is a table of them or an
array. -/
def IsSection (fields : List Text) : Content → Prop
  | .scalar _ => False
  | .array _ => True
  | .table entries => ∀ e ∈ entries, e.1 ∈ fields

/-- What the content gives for a field: what is under its name, or at its place. -/
def field? (fields : List Text) (name : Text) : Content → Option Content
  | .scalar _ => none
  | .array elements => lookup? name (fields.zip elements)
  | .table entries => lookup? name entries

end Toml.Content

/-- A value is what is given if something is given, and else the default. -/
def Takes {β : Type} (given : Option Content) (reads : Content → β → Prop) (default value : β) :
    Prop :=
  (∀ c, given = some c → reads c value) ∧ (given = none → value = default)

theorem mapError_eq_ok_iff {ε ε' α : Type} {x : Except ε α} {f : ε → ε'} {a : α} :
    x.mapError f = .ok a ↔ x = .ok a := by
  cases x with
  | ok b =>
      change Except.ok b = .ok a ↔ _
      simp
  | error e =>
      change Except.error (f e) = .ok a ↔ _
      simp

namespace Shape

variable {α β : Type}

def given (s : Shape α) : Node → List (Field α × Node)
  | .scalar _ _ => []
  | .array elements _ => s.fields.zip elements
  | .tables latest _ => s.fields.zip latest.reverse
  | .table _ entries _ =>
      entries.filterMap fun e => (s.fields.find? fun f => f.name == e.1.name).map (·, e.2)

def setAll (record : α) (given : List (Field α × Node)) : Except Refusal α :=
  given.foldlM (fun record p => p.1.set record p.2) record

theorem setAll_cons_eq_ok_iff {record r : α} {p : Field α × Node}
    {given : List (Field α × Node)} :
    setAll record (p :: given) = .ok r ↔
      ∃ next, p.1.set record p.2 = .ok next ∧ setAll next given = .ok r := by
  rw [setAll, List.foldlM_cons, bind_eq_ok_iff]
  rfl

/-- Entries are set just if all have known names and the nodes that they give are set in turn. -/
theorem setEntries_eq_ok_iff (s : Shape α) {record r : α} {entries : Entries} :
    s.setEntries record entries = .ok r ↔
      (∀ e ∈ entries, e.1.name ∈ s.fieldNames) ∧
        setAll record (s.given (.table .headed entries none)) = .ok r := by
  induction entries generalizing record with
  | nil => simp [setEntries, given, setAll]
  | cons e entries ih =>
      obtain ⟨key, node⟩ := e
      rw [setEntries, List.foldlM_cons, bind_eq_ok_iff]
      simp only [List.forall_mem_cons]
      cases hfind : s.fields.find? fun f => f.name == key.name with
      | none =>
          have hunknown : key.name ∉ s.fieldNames := by
            simpa [fieldNames] using hfind
          simp [hunknown]
      | some f =>
          have hmem : key.name ∈ s.fieldNames := by
            have hname := List.find?_some hfind
            exact List.mem_map.mpr ⟨f, List.mem_of_find?_eq_some hfind, by simpa using hname⟩
          have hgiven : s.given (.table .headed ((key, node) :: entries) none) =
              (f, node) :: s.given (.table .headed entries none) := by
            simp [given, hfind]
          rw [hgiven, setAll_cons_eq_ok_iff]
          simp only [mapError_eq_ok_iff, hmem, true_and]
          constructor
          · rintro ⟨next, hnext, hrest⟩
            obtain ⟨hknown, hset⟩ := ih.mp hrest
            exact ⟨hknown, next, hnext, hset⟩
          · rintro ⟨hknown, next, hnext, hset⟩
            exact ⟨next, hnext, ih.mpr ⟨hknown, hset⟩⟩

theorem set_eq_ok_iff (s : Shape α) {record r : α} {node : Node} :
    s.set record node = .ok r ↔
      node.content.IsSection s.fieldNames ∧ setAll record (s.given node) = .ok r := by
  cases node with
  | scalar value span => cases value <;> simp [set, Node.content, Content.IsSection]
  | array elements span => simp [set, setElements, setAll, given, Node.content, Content.IsSection]
  | tables latest span => simp [set, setElements, setAll, given, Node.content, Content.IsSection]
  | table form entries span =>
      rw [set, setEntries_eq_ok_iff]
      simp only [Node.content, Content.IsSection, Toml.entryContents_eq, List.forall_mem_map]
      rfl

/-! ## What is given -/

section Given

variable {s : Shape α} {node : Node} {p : Field α × Node}

theorem mem_fields_of_mem_given (hp : p ∈ s.given node) : p.1 ∈ s.fields := by
  cases node with
  | scalar value span => cases hp
  | array elements span => exact (List.of_mem_zip hp).1
  | tables latest span => exact (List.of_mem_zip hp).1
  | table form entries span =>
      obtain ⟨e, -, he⟩ := List.mem_filterMap.mp hp
      obtain ⟨f, hfind, rfl⟩ := Option.map_eq_some_iff.mp he
      exact List.mem_of_find?_eq_some hfind

theorem isDistinct_of_mem_given (hnode : node.IsDistinct) (hp : p ∈ s.given node) :
    p.2.IsDistinct := by
  cases hnode with
  | scalar value span => cases hp
  | array span h => exact h _ (List.of_mem_zip hp).2
  | tables span h => exact h _ (List.mem_reverse.mp (List.of_mem_zip hp).2)
  | table form span hnames h =>
      obtain ⟨e, he, hfound⟩ := List.mem_filterMap.mp hp
      obtain ⟨f, -, rfl⟩ := Option.map_eq_some_iff.mp hfound
      exact h e he

theorem map_name_zip_isPrefix (fields : List (Field α)) (nodes : List Node) :
    (fields.zip nodes).map (fun p => p.1.name) <+: fields.map Field.name := by
  induction fields generalizing nodes with
  | nil => exact List.nil_prefix
  | cons f fields ih =>
      cases nodes with
      | nil => exact List.nil_prefix
      | cons node nodes => exact List.prefix_cons_inj _ |>.mpr (ih nodes)

theorem map_name_given_sublist (s : Shape α) (form : Toml.Form) (entries : Entries)
    (span : Option Toml.Span) :
    ((s.given (.table form entries span)).map fun p => p.1.name).Sublist
      (entries.map fun e => e.1.name) := by
  induction entries with
  | nil => exact List.Sublist.refl _
  | cons e entries ih =>
      cases hfind : s.fields.find? fun f => f.name == e.1.name with
      | none => simpa [given, hfind] using ih.cons _
      | some f =>
          have hname : f.name = e.1.name := by simpa using List.find?_some hfind
          simpa [given, hfind, hname] using ih

/-- No field is given twice. -/
theorem nodup_given (hnames : s.fieldNames.Nodup) (hnode : node.IsDistinct) :
    ((s.given node).map fun p => p.1.name).Nodup := by
  cases hnode with
  | scalar value span => exact List.nodup_nil
  | array span h => exact hnames.sublist (map_name_zip_isPrefix _ _).sublist
  | tables span h => exact hnames.sublist (map_name_zip_isPrefix _ _).sublist
  | table form span hentries h => exact hentries.sublist (map_name_given_sublist s form _ span)

theorem lookup?_zip (fields : List (Field α)) (nodes : List Node) (name : Text) :
    lookup? name ((fields.map Field.name).zip (nodes.map Node.content)) =
      ((fields.zip nodes).find? fun p => p.1.name == name).map fun p => p.2.content := by
  rw [lookup?, List.zip_map, List.find?_map, Option.map_map]
  rfl

theorem lookup?_filterMap {name : Text} (hname : name ∈ s.fieldNames) (form : Toml.Form)
    (entries : Entries) (span : Option Toml.Span) :
    lookup? name entries.content =
      ((s.given (.table form entries span)).find? fun p => p.1.name == name).map
        fun p => p.2.content := by
  induction entries with
  | nil => rfl
  | cons e entries ih =>
      cases hfind : s.fields.find? fun f => f.name == e.1.name with
      | none =>
          have hne : ¬ e.1.name == name := by
            intro heq
            obtain rfl : e.1.name = name := by simpa using heq
            obtain ⟨f, hf, hfname⟩ := List.mem_map.mp hname
            simpa [hfname] using List.find?_eq_none.mp hfind f hf
          simpa [given, hfind, lookup?, Entries.content, hne] using ih
      | some f =>
          have hfname : f.name = e.1.name := by simpa using List.find?_some hfind
          by_cases heq : e.1.name == name
          · simp [given, hfind, lookup?, Entries.content, hfname, heq]
          · simpa [given, hfind, lookup?, Entries.content, hfname, heq] using ih

/-- What is given for a field is what the content gives for it. -/
theorem find?_given {name : Text} (hname : name ∈ s.fieldNames) (node : Node) :
    node.content.field? s.fieldNames name =
      ((s.given node).find? fun p => p.1.name == name).map fun p => p.2.content := by
  cases node with
  | scalar value span => rfl
  | array elements span =>
      simp only [Node.content, Content.field?, Toml.elementContents_eq]
      exact lookup?_zip _ _ _
  | tables latest span =>
      simp only [Node.content, Content.field?, Toml.elementContents_eq, ← List.map_reverse]
      exact lookup?_zip _ _ _
  | table form entries span =>
      simp only [Node.content, Content.field?, Toml.entryContents_eq]
      exact lookup?_filterMap hname form entries span

end Given

/-! ## Success and values -/

/-- The fields of a shape accept what satisfies a condition on its content, whatever the record. -/
def Accepts (s : Shape α) (accepted : Text → Content → Prop) : Prop :=
  ∀ f ∈ s.fields, ∀ (record : α) (node : Node), node.IsDistinct →
    ((∃ r, f.set record node = .ok r) ↔ accepted f.name node.content)

/-- One field of a shape sets a part of the record, and the others leave that part as it is. -/
def Views (s : Shape α) (name : Text) (view : α → β) (reads : β → Content → β → Prop) : Prop :=
  ∀ f ∈ s.fields, ∀ (record r : α) (node : Node), node.IsDistinct →
    f.set record node = .ok r →
      (f.name = name → reads (view record) node.content (view r)) ∧
        (f.name ≠ name → view r = view record)

/-- Nodes can be set if each of them can, since no field looks at what another has set. -/
theorem exists_setAll_iff {accepted : Text → Content → Prop} {given : List (Field α × Node)}
    (h : ∀ p ∈ given, ∀ record,
      (∃ r, p.1.set record p.2 = .ok r) ↔ accepted p.1.name p.2.content) (record : α) :
    (∃ r, setAll record given = .ok r) ↔ ∀ p ∈ given, accepted p.1.name p.2.content := by
  induction given generalizing record with
  | nil => simp [setAll, pure, Except.pure]
  | cons p given ih =>
      have hrest := ih fun q hq => h q (List.mem_cons_of_mem _ hq)
      have hfirst := h p List.mem_cons_self record
      simp only [setAll_cons_eq_ok_iff, List.forall_mem_cons, ← hfirst]
      constructor
      · rintro ⟨r, next, hnext, hset⟩
        exact ⟨⟨next, hnext⟩, (hrest next).mp ⟨r, hset⟩⟩
      · rintro ⟨⟨next, hnext⟩, hall⟩
        obtain ⟨r, hset⟩ := (hrest next).mpr hall
        exact ⟨r, next, hnext, hset⟩

/-- A field has the value of the node that is given for it, and no other node changes it. -/
theorem takes_of_setAll {name : Text} {view : α → β} {reads : β → Content → β → Prop}
    {given : List (Field α × Node)} (hnodup : (given.map fun p => p.1.name).Nodup)
    (h : ∀ p ∈ given, ∀ record r, p.1.set record p.2 = .ok r →
      (p.1.name = name → reads (view record) p.2.content (view r)) ∧
        (p.1.name ≠ name → view r = view record))
    {record r : α} (hset : setAll record given = .ok r) :
    Takes ((given.find? fun p => p.1.name == name).map fun p => p.2.content)
      (reads (view record)) (view record) (view r) := by
  induction given generalizing record with
  | nil =>
      obtain rfl := Except.ok.inj hset
      exact ⟨by simp, fun _ => rfl⟩
  | cons p given ih =>
      obtain ⟨next, hnext, hrest⟩ := setAll_cons_eq_ok_iff.mp hset
      obtain ⟨hnew, hnodup⟩ := List.nodup_cons.mp hnodup
      have htakes := ih hnodup (fun q hq => h q (List.mem_cons_of_mem _ hq)) hrest
      obtain ⟨hsame, hother⟩ := h p List.mem_cons_self record next hnext
      by_cases hname : p.1.name = name
      · have hnone : given.find? (fun q => q.1.name == name) = none := by
          rw [List.find?_eq_none]
          intro q hq hqname
          have hqname : q.1.name = p.1.name := by rw [hname]; simpa using hqname
          exact hnew (List.mem_map.mpr ⟨q, hq, hqname⟩)
        have hkept : view r = view next := htakes.2 (by rw [hnone]; rfl)
        have hfind : (p :: given).find? (fun q => q.1.name == name) = some p := by
          simp [hname]
        rw [hfind, hkept]
        refine ⟨fun c hc => ?_, fun hc => by cases hc⟩
        obtain rfl := Option.some.inj hc
        exact hsame hname
      · have hfind : (p :: given).find? (fun q => q.1.name == name) =
            given.find? fun q => q.1.name == name := by simp [hname]
        rw [hfind, ← hother hname]
        exact htakes

variable {s : Shape α} {node : Node}

theorem exists_set_iff {accepted : Text → Content → Prop} (hnames : s.fieldNames.Nodup)
    (haccepts : s.Accepts accepted) (hnode : node.IsDistinct) (record : α) :
    (∃ r, s.set record node = .ok r) ↔
      node.content.IsSection s.fieldNames ∧ ∀ name ∈ s.fieldNames, ∀ c,
        node.content.field? s.fieldNames name = some c → accepted name c := by
  have hset : ∀ p ∈ s.given node, ∀ record,
      (∃ r, p.1.set record p.2 = .ok r) ↔ accepted p.1.name p.2.content := by
    intro p hp record
    exact haccepts p.1 (mem_fields_of_mem_given hp) record p.2 (isDistinct_of_mem_given hnode hp)
  have hall := exists_setAll_iff hset record
  have hgiven : (∀ p ∈ s.given node, accepted p.1.name p.2.content) ↔
      ∀ name ∈ s.fieldNames, ∀ c,
        node.content.field? s.fieldNames name = some c → accepted name c := by
    constructor
    · intro h name hname c hc
      rw [find?_given hname] at hc
      obtain ⟨p, hfind, rfl⟩ := Option.map_eq_some_iff.mp hc
      have hpname : p.1.name = name := by simpa using List.find?_some hfind
      exact hpname ▸ h p (List.mem_of_find?_eq_some hfind)
    · intro h p hp
      have hname : p.1.name ∈ s.fieldNames :=
        List.mem_map.mpr ⟨p.1, mem_fields_of_mem_given hp, rfl⟩
      refine h p.1.name hname p.2.content ?_
      rw [find?_given hname, Toml.find?_of_nodup (nodup_given hnames hnode) hp]
      rfl
  simp only [set_eq_ok_iff, exists_and_left, hall, hgiven]

theorem takes_of_set {name : Text} {view : α → β} {reads : β → Content → β → Prop}
    (hnames : s.fieldNames.Nodup) (hviews : s.Views name view reads) (hname : name ∈ s.fieldNames)
    (hnode : node.IsDistinct) {record r : α} (h : s.set record node = .ok r) :
    Takes (node.content.field? s.fieldNames name) (reads (view record)) (view record) (view r) := by
  rw [find?_given hname]
  refine takes_of_setAll (nodup_given hnames hnode) (fun p hp record r hset => ?_)
    (s.set_eq_ok_iff.mp h).2
  exact hviews p.1 (mem_fields_of_mem_given hp) record r p.2 (isDistinct_of_mem_given hnode hp) hset

end Shape

end VersionStamp
