import VersionStamp.Proofs.Toml.Content
import VersionStamp.Proofs.Toml.Spelling

namespace VersionStamp.Toml

/-!
# Reading an assignment that is written

Keys are written as they stand, values as strings or as tables of strings between braces. A reader
gives the names and values that are written and leaves all that stands behind them.
-/

/-! ## Keys -/

def IsBare (name : Text) : Prop :=
  name ≠ [] ∧ name.all isBareKeyChar

instance (name : Text) : Decidable (IsBare name) :=
  inferInstanceAs (Decidable (_ ∧ _))

def EndsKey (rest : Text) : Prop :=
  ∀ c ∈ rest.head?, ¬ isBareKeyChar c

theorem ne_of_isBareKeyChar {c d : Char} (hc : isBareKeyChar c) (hd : ¬ isBareKeyChar d) :
    c ≠ d := by
  rintro rfl
  exact hd hc

section Keys

variable {name rest : Text}

theorem IsBare.exists_cons (h : IsBare name) :
    ∃ c more, name = c :: more ∧ isBareKeyChar c := by
  obtain ⟨hne, hall⟩ := h
  cases name with
  | nil => exact absurd rfl hne
  | cons c more => exact ⟨c, more, rfl, List.all_eq_true.mp hall c List.mem_cons_self⟩

theorem skipSpaces_bare {c : Char} (hc : isBareKeyChar c) : skipSpaces (c :: rest) = c :: rest := by
  have hspace : c ≠ ' ' := ne_of_isBareKeyChar hc (by decide)
  have htab : c ≠ '\t' := ne_of_isBareKeyChar hc (by decide)
  simp [skipSpaces, isSpace, hspace, htab]

/-- A bare name is read as a key up to what ends it. -/
theorem exists_readKey? (hname : IsBare name) (hrest : EndsKey rest) :
    ∃ key, key.name = name ∧ readKey? (name ++ rest) = some (key, rest) := by
  have hline : readLineString? (name ++ rest) = none := by
    obtain ⟨c, more, rfl, hc⟩ := hname.exists_cons
    have hdouble : c ≠ '"' := ne_of_isBareKeyChar hc (by decide)
    have hsingle : c ≠ '\'' := ne_of_isBareKeyChar hc (by decide)
    simp [readLineString?, hdouble, hsingle]
  have hend : rest.takeWhile isBareKeyChar = [] := by
    cases rest with
    | nil => rfl
    | cons c more =>
        have hc : isBareKeyChar c = false := by simpa using hrest c rfl
        simp [hc]
  have hkey : (name ++ rest).takeWhile isBareKeyChar = name := by
    rw [List.takeWhile_append_of_pos (List.all_eq_true.mp hname.2), hend, List.append_nil]
  have hne : name.isEmpty = false := by simpa using hname.1
  refine ⟨⟨name, name ++ rest, rest⟩, rfl, ?_⟩
  simp only [readKey?, hline, hkey, hne, Bool.false_eq_true, if_false, List.drop_left]

def dottedKey (path : List Text) (name : Text) : Text :=
  path.flatMap (· ++ ['.']) ++ name

theorem exists_dottedKey_cons {path : List Text}
    (hbare : ∀ n ∈ path ++ [name], IsBare n) :
    ∃ c more, dottedKey path name = c :: more ∧ isBareKeyChar c := by
  cases path with
  | nil => exact (hbare name (by simp)).exists_cons
  | cons n path =>
      obtain ⟨c, more, rfl, hc⟩ := (hbare n (by simp)).exists_cons
      exact ⟨c, _, rfl, hc⟩

theorem skipSpaces_dottedKey {path : List Text} (hbare : ∀ n ∈ path ++ [name], IsBare n) :
    skipSpaces (dottedKey path name ++ rest) = dottedKey path name ++ rest := by
  obtain ⟨c, more, hkey, hc⟩ := exists_dottedKey_cons hbare
  rw [hkey]
  exact skipSpaces_bare hc

theorem exists_readKeys? {path : List Text} {limit : Nat} (hlimit : path.length < limit)
    (hbare : ∀ n ∈ path ++ [name], IsBare n) (hrest : EndsKey rest)
    (hdot : (skipSpaces rest).head? ≠ some '.') :
    ∃ keys, keys.map Key.name = path ++ [name] ∧
      readKeys? limit (dottedKey path name ++ rest) = some (keys, skipSpaces rest) := by
  -- one key of the path for each step of the reader, so the limit goes down with the path
  induction path generalizing limit with
  | nil =>
      obtain ⟨limit, rfl⟩ := Nat.exists_eq_add_one.mpr hlimit
      obtain ⟨key, rfl, hkey⟩ := exists_readKey? (hbare name (by simp)) hrest
      refine ⟨[key], rfl, ?_⟩
      rw [readKeys?, skipSpaces_dottedKey hbare]
      simp only [dottedKey, List.flatMap_nil, List.nil_append, hkey, Option.bind_eq_bind,
        Option.bind_some]
      cases hskip : skipSpaces rest with
      | nil => rfl
      | cons c more =>
          have hc : c ≠ '.' := by
            rintro rfl
            exact hdot (by rw [hskip]; rfl)
          simp [hc]
  | cons n path ih =>
      obtain ⟨limit, rfl⟩ := Nat.exists_eq_add_one.mpr (Nat.zero_lt_of_lt hlimit)
      obtain ⟨keys, hnames, hkeys⟩ := ih (Nat.lt_of_succ_lt_succ hlimit)
        (fun n hn => hbare n (List.mem_cons_of_mem _ hn))
      have hends : EndsKey ('.' :: (dottedKey path name ++ rest)) := by
        rintro c ⟨⟩
        decide
      obtain ⟨key, rfl, hkey⟩ := exists_readKey? (hbare n (by simp)) hends
      refine ⟨key :: keys, by rw [List.map_cons, hnames, List.cons_append], ?_⟩
      rw [readKeys?, skipSpaces_dottedKey hbare]
      have htext : dottedKey (key.name :: path) name ++ rest =
          key.name ++ '.' :: (dottedKey path name ++ rest) := by
        simp [dottedKey]
      simp only [htext, hkey, Option.bind_eq_bind, Option.bind_some]
      have hskip : skipSpaces ('.' :: (dottedKey path name ++ rest)) =
          '.' :: (dottedKey path name ++ rest) := rfl
      simp only [hskip, hkeys, Option.bind_some]

/-- A dotted key is read as its path and its last name. -/
theorem exists_readPath? (path : List Text) (hlimit : path.length < pathLimit)
    (hbare : ∀ n ∈ path ++ [name], IsBare n) (hrest : EndsKey rest)
    (hdot : (skipSpaces rest).head? ≠ some '.') :
    ∃ keys key, keys.map Key.name = path ∧ key.name = name ∧
      readPath? (dottedKey path name ++ rest) = some (keys, key, skipSpaces rest) := by
  obtain ⟨keys, hnames, hkeys⟩ := exists_readKeys? hlimit hbare hrest hdot
  obtain ⟨front, back, rfl, hfront, hback⟩ := List.map_eq_append_iff.mp hnames
  obtain ⟨key, rfl, hkey⟩ := List.map_eq_singleton_iff.mp hback
  refine ⟨front, key, hfront, hkey, ?_⟩
  simp only [readPath?, hkeys, Option.bind_eq_bind, Option.bind_some, List.getLast?_concat,
    List.dropLast_concat]

end Keys

/-! ## Values -/

/-- A field with a string as its value, and how the string is spelled. -/
structure WrittenField where
  name : Text
  value : Text
  spelling : Text
  bare : IsBare name
  spells : Spells spelling value

inductive WrittenValue where
  | string (value spelling : Text) (h : Spells spelling value)
  /-- A table between braces. -/
  | table (fields : List WrittenField)

namespace WrittenField

def escaped (name value : Text) (h : IsBare name) : WrittenField :=
  ⟨name, value, escape value, h, spells_escape value⟩

def written (f : WrittenField) : WrittenValue :=
  .string f.value f.spelling f.spells

def text (f : WrittenField) : Text :=
  f.name ++ ' ' :: '=' :: ' ' :: '"' :: (f.spelling ++ ['"'])

def content (f : WrittenField) : Text × Content :=
  (f.name, .scalar (.string f.value))

end WrittenField

/-- The text of the fields between braces, behind the first brace. -/
def fieldsText (fields : List WrittenField) : Text :=
  Text.join [',', ' '] (fields.map WrittenField.text) ++ [' ', '\x7d']

namespace WrittenValue

def text : WrittenValue → Text
  | .string _ spelling _ => '"' :: (spelling ++ ['"'])
  | .table fields => '\x7b' :: ' ' :: fieldsText fields

def content : WrittenValue → Content
  | .string value _ _ => .scalar (.string value)
  | .table fields => .table (fields.map WrittenField.content)

def IsDistinct : WrittenValue → Prop
  | .string .. => True
  | .table fields => (fields.map WrittenField.name).Nodup

end WrittenValue

def Assignment.outline (a : Assignment) : List Text × Text × Content :=
  (a.path.map Key.name, a.key.name, a.value.content)

section Values

variable {rest : Text}

/-- An assignment is read back if its value is, whatever reads the value. -/
theorem exists_readAssignment? {readValue : Text → Option (Node × Text)} {path : List Text}
    {name value : Text} {node : Node} (hlimit : path.length < pathLimit)
    (hbare : ∀ n ∈ path ++ [name], IsBare n) (hspaces : skipSpaces value = value)
    (hvalue : readValue value = some (node, rest)) :
    ∃ a : Assignment, a.outline = (path, name, node.content) ∧
      readAssignment? readValue (dottedKey path name ++ ' ' :: '=' :: ' ' :: value) =
        some (a, rest) := by
  have hends : EndsKey (' ' :: '=' :: ' ' :: value) := by
    rintro c ⟨⟩
    decide
  have hskip : skipSpaces (' ' :: '=' :: ' ' :: value) = '=' :: ' ' :: value := rfl
  have hbehind : skipSpaces (' ' :: value) = value := hspaces
  obtain ⟨keys, key, rfl, rfl, hpath⟩ := exists_readPath? path hlimit hbare hends
    (by simp [hskip])
  refine ⟨⟨keys, key, node⟩, rfl, ?_⟩
  simp only [readAssignment?, hpath, hskip, hbehind, hvalue, Option.bind_eq_bind, Option.bind_some]

/-- An assignment without a path adds what it says, if its name is new. -/
theorem exists_addTo?_new {a : Assignment} {entries : Entries} {c : Text × Content}
    (ha : a.outline = ([], c)) (hnew : entries.find? c.1 = none) :
    ∃ key node, (key.name, node.content) = c ∧
      a.addTo? entries = some (entries ++ [(key, node)]) := by
  obtain ⟨path, key, value⟩ := a
  obtain ⟨hpath, rfl⟩ := Prod.mk.inj ha
  obtain rfl := List.map_eq_nil_iff.mp hpath
  refine ⟨key, value, rfl, ?_⟩
  have hfind : entries.find? key.name = none := hnew
  simp [Assignment.addTo?, changeTable?, Entries.insertNew?, hfind]

theorem find?_eq_none_of_not_mem {entries : Entries} {name : Text}
    (h : name ∉ entries.content.map Prod.fst) : entries.find? name = none := by
  simpa [Entries.find?, Entries.content] using h

theorem content_append (entries : Entries) (key : Key) (node : Node) :
    Entries.content (entries ++ [(key, node)]) = entries.content ++ [(key.name, node.content)] := by
  simp [Entries.content]

theorem readAssignment?_space {readValue : Text → Option (Node × Text)} {t : Text} :
    readAssignment? readValue (' ' :: t) = readAssignment? readValue t := by
  have hskip : skipSpaces (' ' :: t) = skipSpaces t := rfl
  have hkeys : readKeys? pathLimit (' ' :: t) = readKeys? pathLimit t := by
    rw [pathLimit, readKeys?, readKeys?, hskip]
  rw [readAssignment?, readAssignment?, readPath?, readPath?, hkeys]

theorem readAssignments?_space {readValue : Text → Option (Node × Text)} {fuel : Nat}
    {entries : Entries} {t : Text} :
    readAssignments? readValue fuel entries (' ' :: t) =
      readAssignments? readValue fuel entries t := by
  cases fuel with
  | zero => rfl
  | succ fuel => rw [readAssignments?, readAssignments?, readAssignment?_space]

/-- A field is read back with its string, however the string is spelled. -/
theorem exists_readField? (f : WrittenField) (rest : Text) (hrest : rest.head? ≠ some '"')
    (limit depth : Nat) :
    ∃ a : Assignment, a.outline = ([], f.content) ∧
      readAssignment? (readNode? limit depth) (f.text ++ rest) = some (a, rest) := by
  have htext : f.text ++ rest =
      dottedKey [] f.name ++ ' ' :: '=' :: ' ' :: '"' :: (f.spelling ++ '"' :: rest) := by
    simp [WrittenField.text, dottedKey]
  rw [htext]
  exact exists_readAssignment? (by decide) (by simpa using f.bare) rfl
    (readNode?_spells f.spells hrest limit depth)

theorem not_mem_of_nodup {names more : List Text} {name : Text}
    (h : (names ++ name :: more).Nodup) : name ∉ names := by
  intro hname
  exact (List.nodup_append.mp h).2.2 name hname name List.mem_cons_self rfl

theorem fieldsText_cons_cons (f g : WrittenField) (fields : List WrittenField) :
    fieldsText (f :: g :: fields) = f.text ++ ',' :: ' ' :: fieldsText (g :: fields) := by
  simp [fieldsText, Text.join, List.intercalate_cons_cons]

/-- A field with a new name is added behind the entries that are there. The names of those entries
and of the fields that are still to come stay distinct. -/
theorem exists_addTo?_field {a : Assignment} {entries : Entries} {f : WrittenField}
    {fields : List WrittenField} (ha : a.outline = ([], f.content))
    (hnames : (entries.content.map Prod.fst ++ (f :: fields).map WrittenField.name).Nodup) :
    ∃ entries' : Entries, a.addTo? entries = some entries' ∧
      entries'.content = entries.content ++ [f.content] ∧
        (entries'.content.map Prod.fst ++ fields.map WrittenField.name).Nodup := by
  have hnew := find?_eq_none_of_not_mem (not_mem_of_nodup hnames)
  obtain ⟨key, node, hpair, hadd⟩ := exists_addTo?_new ha hnew
  have hcontent : Entries.content (entries ++ [(key, node)]) = entries.content ++ [f.content] := by
    rw [content_append, hpair]
  refine ⟨_, hadd, hcontent, ?_⟩
  -- the name has only changed sides
  rw [hcontent]
  simpa [WrittenField.content] using hnames

/-- The fields between braces become entries behind those that are there already. -/
theorem exists_readAssignments? (limit depth : Nat) (rest : Text) {fuel : Nat} {f : WrittenField}
    {fields : List WrittenField} (hfuel : fields.length < fuel) (entries : Entries)
    (hnames : (entries.content.map Prod.fst ++ (f :: fields).map WrittenField.name).Nodup) :
    ∃ entries' : Entries,
      entries'.content = entries.content ++ (f :: fields).map WrittenField.content ∧
        readAssignments? (readNode? limit depth) fuel entries (fieldsText (f :: fields) ++ rest) =
          some (entries', rest) := by
  induction fields generalizing f fuel entries with
  | nil =>
      obtain ⟨fuel, rfl⟩ := Nat.exists_eq_add_one.mpr hfuel
      obtain ⟨a, ha, hread⟩ := exists_readField? f (' ' :: '\x7d' :: rest) (by simp) limit depth
      obtain ⟨entries', hadd, hcontent, -⟩ := exists_addTo?_field ha hnames
      refine ⟨entries', hcontent, ?_⟩
      have htext : fieldsText [f] ++ rest = f.text ++ ' ' :: '\x7d' :: rest := by
        simp [fieldsText, Text.join]
      have hskip : skipSpaces (' ' :: '\x7d' :: rest) = '\x7d' :: rest := rfl
      simp only [readAssignments?, htext, hread, hadd, hskip, Option.bind_eq_bind, Option.bind_some]
  | cons g fields ih =>
      obtain ⟨fuel, rfl⟩ := Nat.exists_eq_add_one.mpr (Nat.zero_lt_of_lt hfuel)
      obtain ⟨a, ha, hread⟩ := exists_readField? f
        (',' :: ' ' :: (fieldsText (g :: fields) ++ rest)) (by simp) limit depth
      obtain ⟨between, hadd, hbetween, hnames⟩ := exists_addTo?_field ha hnames
      obtain ⟨entries', hcontent, hrest⟩ := ih (Nat.lt_of_succ_lt_succ hfuel) between hnames
      refine ⟨entries', by simp [hcontent, hbetween], ?_⟩
      have hskip : skipSpaces (',' :: ' ' :: (fieldsText (g :: fields) ++ rest)) =
          ',' :: ' ' :: (fieldsText (g :: fields) ++ rest) := rfl
      have htext : fieldsText (f :: g :: fields) ++ rest =
          f.text ++ ',' :: ' ' :: (fieldsText (g :: fields) ++ rest) := by
        simp [fieldsText_cons_cons]
      simp only [readAssignments?, htext, hread, hadd, hskip, Option.bind_eq_bind, Option.bind_some,
        readAssignments?_space, hrest]

theorem exists_fieldsText_cons (f : WrittenField) (fields : List WrittenField) :
    ∃ c more, fieldsText (f :: fields) = c :: more ∧ isBareKeyChar c := by
  obtain ⟨c, more, hname, hc⟩ := f.bare.exists_cons
  cases fields with
  | nil => exact ⟨c, _, by rw [fieldsText, List.map_cons, WrittenField.text, hname]; rfl, hc⟩
  | cons g fields => exact ⟨c, _, by rw [fieldsText_cons_cons, WrittenField.text, hname]; rfl, hc⟩

theorem length_le_fieldsText (fields : List WrittenField) :
    fields.length ≤ (fieldsText fields).length := by
  induction fields with
  | nil => simp
  | cons f fields ih =>
      cases fields with
      | nil => simp [fieldsText]
      | cons g fields =>
          rw [fieldsText_cons_cons]
          simp only [List.length_append, List.length_cons] at ih ⊢
          omega

theorem WrittenValue.skipSpaces_text (v : WrittenValue) (rest : Text) :
    skipSpaces (v.text ++ rest) = v.text ++ rest := by
  cases v <;> rfl

theorem readNode?_brace {limit depth : Nat} {t more : Text} {c : Char}
    (hskip : skipSpaces t = c :: more) (hc : c ≠ '\x7d') :
    readNode? limit (depth + 1) ('\x7b' :: t) =
      (readAssignments? (readNode? limit depth) limit [] (c :: more)).map fun (entries, rest) =>
        (.table .inlined entries (some ⟨'\x7b' :: t, rest⟩), rest) := by
  unfold readNode?
  simp only [hskip]
  split
  next heq => exact absurd (List.cons.inj heq).1 hc
  next =>
    rw [Option.map_eq_bind]
    rfl

/-- A value that is written is read, if brackets may stand around it and it has not more parts than
can be read. -/
theorem WrittenValue.exists_readNode? (v : WrittenValue) (hv : v.IsDistinct)
    (hrest : rest.head? ≠ some '"') {limit : Nat} (hlimit : v.text.length ≤ limit)
    (depth : Nat) :
    ∃ node, node.content = v.content ∧
      readNode? limit (depth + 1) (v.text ++ rest) = some (node, rest) := by
  cases v with
  | string value spelling h =>
      have htext : (WrittenValue.string value spelling h).text ++ rest =
          '"' :: (spelling ++ '"' :: rest) := by
        simp [text]
      rw [htext]
      exact ⟨_, rfl, readNode?_spells h hrest limit (depth + 1)⟩
  | table fields =>
      cases fields with
      | nil => exact ⟨.table .inlined [] _, rfl, rfl⟩
      | cons f fields =>
          have hlength := length_le_fieldsText (f :: fields)
          simp only [text, List.length_cons] at hlimit hlength
          have hfuel : fields.length < limit := by omega
          obtain ⟨entries, hcontent, hread⟩ := exists_readAssignments? limit depth rest hfuel [] hv
          obtain ⟨c, more, htext, hc⟩ := exists_fieldsText_cons f fields
          have hnode : (Node.table .inlined entries
              (some ⟨(WrittenValue.table (f :: fields)).text ++ rest, rest⟩)).content =
                .table ((f :: fields).map WrittenField.content) := by
            rw [Node.content, entryContents_eq]
            exact congrArg Content.table hcontent
          -- the first field starts with its name, which is no closing brace
          have hskip : skipSpaces (' ' :: (c :: more ++ rest)) = c :: (more ++ rest) :=
            skipSpaces_bare hc
          have hbrace : c ≠ '\x7d' := ne_of_isBareKeyChar hc (by decide)
          refine ⟨_, hnode, ?_⟩
          rw [htext] at hread
          simp only [text, htext, List.cons_append] at hskip hread ⊢
          rw [readNode?_brace hskip hbrace, hread]
          rfl

end Values

end VersionStamp.Toml
