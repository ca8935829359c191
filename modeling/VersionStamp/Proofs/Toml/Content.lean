import VersionStamp.Toml.Node

namespace VersionStamp.Toml

/-!
# What a document says

The content of a node is what it says, wherever it stands and however it is spelled. Tables that
share a heading are an array of tables, and a table is the list of its names with their contents.
-/

inductive Content where
  | scalar (value : Scalar)
  | array (elements : List Content)
  | table (entries : List (Text × Content))

deriving instance DecidableEq for Scalar

mutual

def Content.decEq : (c d : Content) → Decidable (c = d)
  | .scalar v, .scalar w => decidable_of_iff (v = w) (by simp)
  | .array cs, .array ds =>
      have := elementsDecEq cs ds
      decidable_of_iff (cs = ds) (by simp)
  | .table es, .table fs =>
      have := entriesDecEq es fs
      decidable_of_iff (es = fs) (by simp)
  | .scalar _, .array _ | .scalar _, .table _ | .array _, .scalar _ | .array _, .table _
  | .table _, .scalar _ | .table _, .array _ => isFalse nofun

def elementsDecEq : (cs ds : List Content) → Decidable (cs = ds)
  | [], [] => isTrue rfl
  | c :: cs, d :: ds =>
      have := c.decEq d
      have := elementsDecEq cs ds
      decidable_of_iff (c = d ∧ cs = ds) (by simp)
  | [], _ :: _ | _ :: _, [] => isFalse nofun

def entriesDecEq : (es fs : List (Text × Content)) → Decidable (es = fs)
  | [], [] => isTrue rfl
  | (name, c) :: es, (name', d) :: fs =>
      have := c.decEq d
      have := entriesDecEq es fs
      decidable_of_iff (name = name' ∧ c = d ∧ es = fs) (by simp [and_assoc])
  | [], _ :: _ | _ :: _, [] => isFalse nofun

end

instance : DecidableEq Content := Content.decEq

mutual

def Node.content : Node → Content
  | .scalar value _ => .scalar value
  | .array elements _ => .array (elementContents elements)
  | .table _ entries _ => .table (entryContents entries)
  | .tables latest _ => .array (elementContents latest).reverse

def elementContents : List Node → List Content
  | [] => []
  | node :: nodes => node.content :: elementContents nodes

def entryContents : List (Key × Node) → List (Text × Content)
  | [] => []
  | entry :: entries => entryContent entry :: entryContents entries

def entryContent : Key × Node → Text × Content
  | (key, node) => (key.name, node.content)

end

@[simp] theorem elementContents_eq (nodes : List Node) :
    elementContents nodes = nodes.map Node.content := by
  induction nodes with
  | nil => rfl
  | cons node nodes ih => rw [elementContents, ih, List.map_cons]

@[simp] theorem entryContents_eq (entries : Entries) :
    entryContents entries = entries.map fun e => (e.1.name, e.2.content) := by
  induction entries with
  | nil => rfl
  | cons entry entries ih => rw [entryContents, ih, List.map_cons, entryContent]

def Entries.content (entries : Entries) : List (Text × Content) :=
  entries.map fun e => (e.1.name, e.2.content)

def lookup? (name : Text) (entries : List (Text × Content)) : Option Content :=
  (entries.find? fun e => e.1 == name).map Prod.snd

/-- Looking up a name commutes with leaving out where it stands in the document. -/
theorem lookup?_content (entries : Entries) (name : Text) :
    lookup? name entries.content = (entries.find? name).map Node.content := by
  calc
    lookup? name entries.content =
        ((List.find? (fun e : Key × Node => e.1.name == name) entries).map
          fun e => (e.1.name, e.2.content)).map Prod.snd := by
      rw [lookup?, Entries.content, List.find?_map]
      rfl
    _ = (List.find? (fun e : Key × Node => e.1.name == name) entries).map
          fun e => e.2.content := Option.map_map ..
    _ = (entries.find? name).map Node.content := (Option.map_map ..).symm

/-! ## Distinct names -/

/-- Where names are distinct, a name finds what it belongs to. -/
theorem find?_of_nodup {α : Type} {name : α → Text} {xs : List α}
    (hnames : (xs.map name).Nodup) {x : α} (hx : x ∈ xs) :
    xs.find? (fun y => name y == name x) = some x := by
  induction xs with
  | nil => cases hx
  | cons y xs ih =>
      obtain ⟨hnew, hnames⟩ := List.nodup_cons.mp hnames
      rcases List.mem_cons.mp hx with rfl | hx
      · simp
      · have hne : name y ≠ name x := fun heq => hnew (heq ▸ List.mem_map_of_mem hx)
        simpa [hne] using ih hnames hx

inductive Node.IsDistinct : Node → Prop where
  | scalar (value : Scalar) (span : Span) : IsDistinct (.scalar value span)
  | array {elements : List Node} (span : Span) (h : ∀ e ∈ elements, e.IsDistinct) :
      IsDistinct (.array elements span)
  | table (form : Form) {entries : Entries} (span : Option Span)
      (hnames : (entries.map fun e => e.1.name).Nodup) (h : ∀ e ∈ entries, e.2.IsDistinct) :
      IsDistinct (.table form entries span)
  | tables {latest : List Node} (span : Span) (h : ∀ e ∈ latest, e.IsDistinct) :
      IsDistinct (.tables latest span)

/-- Entries with distinct names, which hold no other tables either. -/
def Entries.IsDistinct (entries : Entries) : Prop :=
  (entries.map fun e => e.1.name).Nodup ∧ ∀ e ∈ entries, e.2.IsDistinct

theorem Node.isDistinct_table_iff {form : Form} {entries : Entries} {span : Option Span} :
    (Node.table form entries span).IsDistinct ↔ entries.IsDistinct := by
  constructor
  · rintro (_ | _ | ⟨_, _, hnames, h⟩ | _)
    exact ⟨hnames, h⟩
  · rintro ⟨hnames, h⟩
    exact .table form span hnames h

theorem Node.isDistinct_tables_iff {latest : List Node} {span : Span} :
    (Node.tables latest span).IsDistinct ↔ ∀ e ∈ latest, e.IsDistinct := by
  constructor
  · rintro (_ | _ | _ | ⟨_, h⟩)
    exact h
  · exact .tables span

end VersionStamp.Toml
