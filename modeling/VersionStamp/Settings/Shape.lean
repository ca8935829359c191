import VersionStamp.Settings
import VersionStamp.Text.Quoted
import VersionStamp.Toml.Node

namespace VersionStamp

/-!
# Settings in a document

The tables `project` and `git` of a document set the fields of the same names. In place of a table
there may be an array, which sets the fields in their order. What is not a field is refused, and the
first thing in the document that is refused decides.
-/

open Toml (Node Scalar Span Entries)

inductive Complaint where
  | unknownField (name : Text) (known : List Text)
  | wrongType (found wanted : Text)
  | unknownBackend (name : Text)
  | notStringOrTable
  | noElement
  | severalElements
  | tableNotEmpty
  | tablesNotEmpty
  | notATable (found : Text)
  deriving DecidableEq

namespace Complaint

def oneOf (names : List Text) : Text :=
  let quoted := names.map fun name => ("`" : Text) ++ name ++ "`"
  match quoted with
  | [only] => only
  | [first, second] => first ++ " or " ++ second
  | names => "one of " ++ Text.join ", " names

def message : Complaint → Text
  | .unknownField name known => "unknown field `" ++ name ++ "`, expected " ++ oneOf known
  | .wrongType found wanted => "invalid type: " ++ found ++ ", expected " ++ wanted
  | .unknownBackend name =>
      "unknown variant `" ++ name ++ "`, expected " ++ oneOf (Backend.all.map Backend.name)
  | .notStringOrTable => "wanted string or table"
  | .noElement => "wanted exactly 1 element, found 0 elements"
  | .severalElements => "wanted exactly 1 element, more than 1 element"
  | .tableNotEmpty => "expected empty table"
  | .tablesNotEmpty => "expected empty array"
  | .notATable found => "expected table, found " ++ found

end Complaint

/-- A complaint and the stretch of the document that it is about, if that is known. -/
structure Refusal where
  complaint : Complaint
  span : Option Span

/-- A refusal that is about the given stretch if it is about none yet. -/
def Refusal.within (span : Span) (r : Refusal) : Refusal :=
  { r with span := some (r.span.getD span) }

namespace Toml

def Scalar.describe : Scalar → Text
  | .string text => "string " ++ Text.quoted text
  | .integer n => "integer `" ++ Text.ofInt n ++ "`"
  | .float x => "floating point `" ++ x.render ++ "`"
  | .boolean b => "boolean `" ++ (if b then "true" else "false") ++ "`"
  | .dateTime => "map"

def Scalar.kind : Scalar → Text
  | .string _ => "string"
  | .integer _ => "integer"
  | .float _ => "float"
  | .boolean _ => "boolean"
  | .dateTime => "datetime"

def Node.describe : Node → Text
  | .scalar value _ => value.describe
  | .array .. | .tables .. => "sequence"
  | .table .. => "map"

def Node.string : Node → Except Refusal Text
  | .scalar (.string text) _ => .ok text
  | node => .error ⟨.wrongType node.describe "a string", node.span?⟩

end Toml

/-- A field of a record, with the change that a node makes to it. -/
structure Field (α : Type) where
  name : Text
  set : α → Node → Except Refusal α

structure Shape (α : Type) where
  title : Text
  fields : List (Field α)

namespace Shape

variable {α : Type}

def fieldNames (s : Shape α) : List Text :=
  s.fields.map Field.name

def setEntries (s : Shape α) (record : α) (entries : Entries) : Except Refusal α :=
  entries.foldlM
    (fun record (key, node) =>
      match s.fields.find? (fun f => f.name == key.name) with
      | some f => (f.set record node).mapError (Refusal.within key.span)
      | none => .error ⟨.unknownField key.name s.fieldNames, some key.span⟩)
    record

/-- The record with its fields set to the elements of an array. Elements without a field are left
out. -/
def setElements (s : Shape α) (record : α) (elements : List Node) : Except Refusal α :=
  (s.fields.zip elements).foldlM (fun record (f, node) => f.set record node) record

/-- The name under which a date and time shows itself as a table. -/
def dateTimeField : Text := "$__toml_private_datetime"

def set (s : Shape α) (record : α) : Node → Except Refusal α
  | .table _ entries _ => s.setEntries record entries
  | .array elements _ => s.setElements record elements
  | .tables latest _ => s.setElements record latest.reverse
  | .scalar .dateTime span => .error ⟨.unknownField dateTimeField s.fieldNames, some span⟩
  | .scalar value span => .error ⟨.wrongType value.describe s.title, some span⟩

end Shape

/-- Refuse what stands for no value at all: anything but an empty table or an empty array. -/
def refuseContent : Node → Except Refusal Unit
  | .table _ [] _ => .ok ()
  | .array [] _ => .ok ()
  | .tables [] _ => .ok ()
  | .table _ _ span => .error ⟨.tableNotEmpty, span⟩
  | .array _ span => .error ⟨.tableNotEmpty, some span⟩
  | .tables _ span => .error ⟨.tablesNotEmpty, some span⟩
  | .scalar value span => .error ⟨.notATable value.kind, some span⟩

def Backend.named (name : Text) (span : Span) : Except Refusal Backend :=
  match Backend.ofName? name with
  | some backend => .ok backend
  | none => .error ⟨.unknownBackend name, some span⟩

/-- The backend that a node names: by a string, or by the one key of a table. -/
def Backend.ofNode : Node → Except Refusal Backend
  | .scalar (.string name) span => Backend.named name span
  | .table _ [(key, node)] span? => do
      let backend ← Backend.named key.name key.span
      (refuseContent node).mapError fun r => { r with span := r.span <|> span? }
      return backend
  | .table _ [] span => .error ⟨.noElement, span⟩
  | .table _ _ span => .error ⟨.severalElements, span⟩
  | node => .error ⟨.notStringOrTable, node.span?⟩

def Declaration.shape : Shape Declaration where
  title := "struct ProjectSettings"
  fields := [
    ⟨"file", fun d node => do return { d with file := ← node.string }⟩,
    ⟨"marker", fun d node => do return { d with marker := ← node.string }⟩,
    ⟨"suffix", fun d node => do return { d with suffix := ← node.string }⟩]

def GitSettings.shape : Shape GitSettings where
  title := "struct GitSettings"
  fields := [
    ⟨"program", fun g node => do return { g with program := ← node.string }⟩,
    ⟨"backend", fun g node => do return { g with backend := ← Backend.ofNode node }⟩]

def Settings.shape : Shape Settings where
  title := "struct Settings"
  fields := [
    ⟨"project", fun s node => do
      return { s with project := ← Declaration.shape.set s.project node }⟩,
    ⟨"git", fun s node => do
      return { s with git := ← GitSettings.shape.set s.git node }⟩]

def Settings.ofEntries (entries : Entries) : Except Refusal Settings :=
  Settings.shape.setEntries {} entries

end VersionStamp
