import VersionStamp.Proofs.Settings.Shape

namespace VersionStamp

/-!
# The fields of settings

Every field but the backend is set by a string and by nothing else. The backend is set by its name,
or by a table whose only key is that name and which says nothing more.
-/

open Toml (Node Content)

namespace Toml

def Content.IsText (c : Content) (t : Text) : Prop :=
  c = .scalar (.string t)

/-- The content names a backend: by a string, or by the one key of a table. -/
inductive Content.Names : Content → Backend → Prop where
  | string (b : Backend) : Names (.scalar (.string b.name)) b
  | table (b : Backend) : Names (.table [(b.name, .table [])]) b
  | array (b : Backend) : Names (.table [(b.name, .array [])]) b

theorem Content.names_iff {c : Content} {b : Backend} :
    c.Names b ↔ c = .scalar (.string b.name) ∨ c = .table [(b.name, .table [])] ∨
      c = .table [(b.name, .array [])] := by
  constructor
  · rintro (_ | _ | _) <;> simp
  · rintro (rfl | rfl | rfl)
    · exact .string b
    · exact .table b
    · exact .array b

/-- A content names one backend at most. -/
theorem Content.Names.unique {c : Content} {b b' : Backend} (h : c.Names b) (h' : c.Names b') :
    b = b' := by
  have hname : b.name = b'.name := by
    rw [names_iff] at h h'
    rcases h with rfl | rfl | rfl
    · simpa using h'
    · simpa using h'
    · simpa using h'
  have hb := Backend.ofName?_name b
  rw [hname, Backend.ofName?_name b'] at hb
  exact (Option.some.inj hb).symm

theorem Node.string_eq_ok_iff {node : Node} {t : Text} :
    node.string = .ok t ↔ node.content.IsText t := by
  cases node with
  | scalar value span => cases value <;> simp [string, content, Content.IsText]
  | _ => simp [string, content, Content.IsText]

end Toml

namespace Backend

theorem ofName?_eq_some_iff {name : Text} {b : Backend} : ofName? name = some b ↔ name = b.name := by
  constructor
  · intro h
    have hname := List.find?_some h
    simpa using (beq_iff_eq.mp hname).symm
  · rintro rfl
    exact ofName?_name b

theorem named_eq_ok_iff {name : Text} {span : Toml.Span} {b : Backend} :
    named name span = .ok b ↔ name = b.name := by
  rw [named, ← ofName?_eq_some_iff]
  cases ofName? name <;> simp

theorem refuseContent_eq_ok_iff {node : Node} :
    refuseContent node = .ok () ↔ node.content = .table [] ∨ node.content = .array [] := by
  cases node with
  | scalar value span => simp [refuseContent, Node.content]
  | array elements span => cases elements <;> simp [refuseContent, Node.content]
  | tables latest span => cases latest <;> simp [refuseContent, Node.content]
  | table form entries span => cases entries <;> simp [refuseContent, Node.content]

/-- A backend is read from what names it, in each of the forms. -/
theorem ofNode_eq_ok_iff {node : Node} {b : Backend} :
    ofNode node = .ok b ↔ node.content.Names b := by
  rw [Content.names_iff]
  match node with
  | .scalar value span =>
      cases value <;> simp [ofNode, Node.content, named_eq_ok_iff]
  | .array elements span => simp [ofNode, Node.content]
  | .tables latest span => simp [ofNode, Node.content]
  | .table form [] span => simp [ofNode, Node.content]
  | .table form (_ :: _ :: _) span => simp [ofNode, Node.content]
  | .table form [(key, node)] span =>
      simp only [ofNode, Node.content, Toml.entryContents_eq, List.map_cons, List.map_nil,
        bind_eq_ok_iff, named_eq_ok_iff, mapError_eq_ok_iff, pure, Except.pure]
      constructor
      · rintro ⟨b', hname, ⟨⟩, hcontent, hb⟩
        obtain rfl := Except.ok.inj hb
        rcases refuseContent_eq_ok_iff.mp hcontent with h | h <;> simp [hname, h]
      · intro h
        have hname : key.name = b.name := by
          rcases h with h | h | h
          · cases h
          · exact congrArg Prod.fst (List.cons.inj (Content.table.inj h)).1
          · exact congrArg Prod.fst (List.cons.inj (Content.table.inj h)).1
        refine ⟨b, hname, (), refuseContent_eq_ok_iff.mpr ?_, rfl⟩
        rcases h with h | h | h
        · cases h
        · exact .inl (congrArg Prod.snd (List.cons.inj (Content.table.inj h)).1)
        · exact .inr (congrArg Prod.snd (List.cons.inj (Content.table.inj h)).1)

end Backend

/-! ## The shapes -/

section Fields

variable {α : Type}

def textField (name : Text) (put : α → Text → α) : Field α :=
  ⟨name, fun record node => do return put record (← node.string)⟩

theorem textField_set_eq_ok_iff {name : Text} {put : α → Text → α} {record r : α} {node : Node} :
    (textField name put).set record node = .ok r ↔
      ∃ t, node.content.IsText t ∧ put record t = r := by
  simp only [textField, bind_eq_ok_iff, Node.string_eq_ok_iff, pure, Except.pure,
    Except.ok.injEq]

theorem exists_textField_set_iff {name : Text} {put : α → Text → α} {record : α} {node : Node} :
    (∃ r, (textField name put).set record node = .ok r) ↔ ∃ t, node.content.IsText t := by
  simp only [textField_set_eq_ok_iff]
  exact ⟨fun ⟨_, t, ht, _⟩ => ⟨t, ht⟩, fun ⟨t, ht⟩ => ⟨_, t, ht, rfl⟩⟩

def backendField : Field GitSettings :=
  ⟨"backend", fun g node => do return { g with backend := ← Backend.ofNode node }⟩

theorem backendField_set_eq_ok_iff {g r : GitSettings} {node : Node} :
    backendField.set g node = .ok r ↔
      ∃ b, node.content.Names b ∧ { g with backend := b } = r := by
  have hset : backendField.set g node =
      Backend.ofNode node >>= fun b => .ok { g with backend := b } := rfl
  simp only [hset, bind_eq_ok_iff, Backend.ofNode_eq_ok_iff, Except.ok.injEq]

def sectionField {β : Type} (name : Text) (shape : Shape β) (view : α → β) (put : α → β → α) :
    Field α :=
  ⟨name, fun record node => do return put record (← shape.set (view record) node)⟩

theorem sectionField_set_eq_ok_iff {β : Type} {name : Text} {shape : Shape β} {view : α → β}
    {put : α → β → α} {record r : α} {node : Node} :
    (sectionField name shape view put).set record node = .ok r ↔
      ∃ b, shape.set (view record) node = .ok b ∧ put record b = r := by
  simp only [sectionField, bind_eq_ok_iff, pure, Except.pure, Except.ok.injEq]

end Fields

namespace Declaration

theorem shape_fields : shape.fields =
    [textField "file" fun d t => { d with file := t },
      textField "marker" fun d t => { d with marker := t },
      textField "suffix" fun d t => { d with suffix := t }] := rfl

theorem shape_accepts : shape.Accepts fun _ c => ∃ t, c.IsText t := by
  intro f hf record node _
  simp only [shape_fields, List.mem_cons, List.not_mem_nil, or_false] at hf
  rcases hf with rfl | rfl | rfl
  · exact exists_textField_set_iff
  · exact exists_textField_set_iff
  · exact exists_textField_set_iff

theorem shape_views_file : shape.Views "file" file fun _ c t => c.IsText t := by
  intro f hf record r node _ h
  simp only [shape_fields, List.mem_cons, List.not_mem_nil, or_false] at hf
  rcases hf with rfl | rfl | rfl <;> obtain ⟨t, ht, rfl⟩ := textField_set_eq_ok_iff.mp h
  · exact ⟨fun _ => ht, fun hne => absurd rfl hne⟩
  · exact ⟨fun heq => absurd heq (by decide), fun _ => rfl⟩
  · exact ⟨fun heq => absurd heq (by decide), fun _ => rfl⟩

theorem shape_views_marker : shape.Views "marker" marker fun _ c t => c.IsText t := by
  intro f hf record r node _ h
  simp only [shape_fields, List.mem_cons, List.not_mem_nil, or_false] at hf
  rcases hf with rfl | rfl | rfl <;> obtain ⟨t, ht, rfl⟩ := textField_set_eq_ok_iff.mp h
  · exact ⟨fun heq => absurd heq (by decide), fun _ => rfl⟩
  · exact ⟨fun _ => ht, fun hne => absurd rfl hne⟩
  · exact ⟨fun heq => absurd heq (by decide), fun _ => rfl⟩

theorem shape_views_suffix : shape.Views "suffix" suffix fun _ c t => c.IsText t := by
  intro f hf record r node _ h
  simp only [shape_fields, List.mem_cons, List.not_mem_nil, or_false] at hf
  rcases hf with rfl | rfl | rfl <;> obtain ⟨t, ht, rfl⟩ := textField_set_eq_ok_iff.mp h
  · exact ⟨fun heq => absurd heq (by decide), fun _ => rfl⟩
  · exact ⟨fun heq => absurd heq (by decide), fun _ => rfl⟩
  · exact ⟨fun _ => ht, fun hne => absurd rfl hne⟩

end Declaration

namespace GitSettings

theorem shape_fields : shape.fields =
    [textField "program" fun g t => { g with program := t }, backendField] := rfl

theorem shape_accepts : shape.Accepts fun name c =>
    if name = "backend" then ∃ b, c.Names b else ∃ t, c.IsText t := by
  intro f hf record node _
  simp only [shape_fields, List.mem_cons, List.not_mem_nil, or_false] at hf
  rcases hf with rfl | rfl
  · exact exists_textField_set_iff
  · change _ ↔ ∃ b, node.content.Names b
    simp only [backendField_set_eq_ok_iff]
    exact ⟨fun ⟨_, b, hb, _⟩ => ⟨b, hb⟩, fun ⟨b, hb⟩ => ⟨_, b, hb, rfl⟩⟩

theorem shape_views_program : shape.Views "program" program fun _ c t => c.IsText t := by
  intro f hf record r node _ h
  simp only [shape_fields, List.mem_cons, List.not_mem_nil, or_false] at hf
  rcases hf with rfl | rfl
  · obtain ⟨t, ht, rfl⟩ := textField_set_eq_ok_iff.mp h
    exact ⟨fun _ => ht, fun hne => absurd rfl hne⟩
  · obtain ⟨b, hb, rfl⟩ := backendField_set_eq_ok_iff.mp h
    exact ⟨fun heq => absurd heq (by decide), fun _ => rfl⟩

theorem shape_views_backend : shape.Views "backend" backend fun _ c b => c.Names b := by
  intro f hf record r node _ h
  simp only [shape_fields, List.mem_cons, List.not_mem_nil, or_false] at hf
  rcases hf with rfl | rfl
  · obtain ⟨t, ht, rfl⟩ := textField_set_eq_ok_iff.mp h
    exact ⟨fun heq => absurd heq (by decide), fun _ => rfl⟩
  · obtain ⟨b, hb, rfl⟩ := backendField_set_eq_ok_iff.mp h
    exact ⟨fun _ => hb, fun hne => absurd rfl hne⟩

end GitSettings

end VersionStamp
