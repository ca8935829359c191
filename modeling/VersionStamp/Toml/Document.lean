import VersionStamp.Toml.Value

namespace VersionStamp.Toml

/-!
# Documents

A document is a list of statements: headings and assignments. The assignments in front of the first
heading belong to the document itself, the others to the heading above them. `Entries.ofDocument?`
is `none` for a text that is no document.
-/

/-- A heading names a table, or one more of the tables that share the heading. -/
structure Heading where
  path : List Key
  key : Key
  repeated : Bool
  span : Span

inductive Statement where
  | heading (h : Heading)
  | assignment (a : Assignment)

def closeHeading? (repeated : Bool) : Text → Option Text
  | ']' :: ']' :: rest => if repeated then some rest else none
  | ']' :: rest => if repeated then none else some rest
  | _ => none

def readHeading? (repeated : Bool) (start t : Text) : Option (Heading × Text) := do
  let (path, key, rest) ← readPath? t
  let rest ← closeHeading? repeated rest
  some (⟨path, key, repeated, start, rest⟩, rest)

/-- The statement at the front of the text, and what follows its line. The arrays and tables in it
are read as far as `limit` parts. -/
def readStatement? (limit : Nat) (t : Text) : Option (Statement × Text) :=
  match t with
  | '[' :: '[' :: rest => do
      let (heading, rest) ← readHeading? true t rest
      let rest ← readTrailer? rest
      some (.heading heading, rest)
  | '[' :: rest => do
      let (heading, rest) ← readHeading? false t rest
      let rest ← readTrailer? rest
      some (.heading heading, rest)
  | t => do
      let (assignment, rest) ← readAssignment? (readNode? limit depthLimit) t
      let rest ← readTrailer? rest
      some (.assignment assignment, rest)

def readStatements? : Nat → Text → Option (List Statement)
  | 0, _ => none
  | fuel + 1, t =>
      match skipLayout false t with
      | [] => some []
      | t => do
          let (statement, rest) ← readStatement? fuel t
          let statements ← readStatements? fuel rest
          some (statement :: statements)

structure Section where
  heading : Heading
  body : List Assignment

def sections (statements : List Statement) : List Assignment × List Section :=
  statements.foldr
    (fun statement (front, sections) =>
      match statement with
      | .assignment a => (a :: front, sections)
      | .heading h => ([], ⟨h, front⟩ :: sections))
    ([], [])

def assignAll? (entries : Entries) (body : List Assignment) : Option Entries :=
  body.foldlM (fun entries a => a.addTo? entries) entries

namespace Section

def span (s : Section) : Span :=
  match s.body.getLast? with
  | some a =>
      match a.value.span? with
      | some last => s.heading.span.upTo last
      | none => s.heading.span
  | none => s.heading.span

def table? (s : Section) (entries : Entries) : Option Node := do
  let entries ← assignAll? entries s.body
  some (.table .headed entries (some s.span))

/-- Put the table of a section among the entries of the table that its path leads to. A table that
other headings have only implied is taken up and moves behind the others. -/
def place? (s : Section) (entries : Entries) : Option Entries :=
  let key := s.heading.key
  match s.heading.repeated, entries.find? key.name with
  | false, none => do
      let table ← s.table? []
      some (entries ++ [(key, table)])
  | false, some (.table .implied inner _) => do
      let table ← s.table? inner
      some (entries.erase key.name ++ [(key, table)])
  | true, none => do
      let table ← s.table? []
      some (entries ++ [(key, .tables [table] s.span)])
  | true, some (.tables earlier span) => do
      let table ← s.table? []
      some (entries.replace key.name (.tables (table :: earlier) (span.upTo s.span)))
  | _, some _ => none

def addTo? (s : Section) (entries : Entries) : Option Entries :=
  changeTable? .byHeading (fun _ inner => s.place? inner) .headed s.heading.path entries

end Section

def Entries.ofStatements? (statements : List Statement) : Option Entries := do
  let (front, sections) := sections statements
  let entries ← assignAll? [] front
  sections.foldlM (fun entries s => s.addTo? entries) entries

def skipMark : Text → Text
  | '\uFEFF' :: rest => rest
  | t => t

def Entries.ofDocument? (document : Text) : Option Entries := do
  let statements ← readStatements? (document.length + 1) (skipMark document)
  Entries.ofStatements? statements

end VersionStamp.Toml
