import VersionStamp.Git.Configuration
import VersionStamp.Text.Lines

namespace VersionStamp.Git.Configuration

/-!
# Configuration files

A configuration file has headings in brackets and settings below them. The full name of a setting
is that of its section and its own, in lower case. A value ends at a comment; quotes in it are left
out, and a backslash at the end of a line continues it on the next one. What stands behind a NUL on
a line is not looked at.
-/

def isKeyChar (c : Char) : Bool :=
  c.isAlphanum || c == '-'

/-! ## Values -/

/-- The line up to a comment, and how many quotes have been counted on it. A quote behind a
backslash does not count. -/
def beforeComment (previous : Option Char) (quotes backslashes : Nat) (kept : Octets) :
    Octets → Octets × Nat
  | [] => (kept.reverse, quotes)
  | c :: rest =>
      let quotes := if c == '"' && previous != some '\\' then quotes + 1 else quotes
      if (c == ';' || c == '#') && quotes % 2 == 0 && backslashes % 2 == 0 then
        (kept.reverse, quotes)
      else
        beforeComment (some c) quotes (if c == '\\' then backslashes + 1 else 0) (c :: kept) rest

def stripComment (quotes : Nat) (line : Octets) : Octets × Nat :=
  let (kept, quotes) := beforeComment none quotes 0 [] line
  (Octets.trimEnd kept, quotes)

def escaped? : Char → Option Char
  | 'n' => some '\n'
  | 't' => some '\t'
  | 'b' => some '\x08'
  | '"' => some '"'
  | '\\' => some '\\'
  | _ => none

/-- The value that is written on a line, behind what has been kept of it, and whether it goes on
with the next line. Both are in reverse. -/
def readValue (kept : Octets) : Octets → Except Disorder (Octets × Bool)
  | [] => .ok (kept, false)
  | ['\\'] => .ok (kept, true)
  | '\\' :: c :: rest =>
      match escaped? c with
      | some d => readValue (d :: kept) rest
      | none => .error (.badEscape (Octets.shown (c :: rest)))
  | '"' :: rest => readValue kept rest
  | c :: rest => readValue (c :: kept) rest

/-! ## Headings and settings -/

/-- The name of a section within quotes, and what follows the heading. Places are counted from the
first quote; the name goes on to the next quote, but not beyond the `last` one of the line. -/
def readQuotedName (last place : Nat) (kept : Octets) : Octets → Except Disorder (Octets × Octets)
  | [] => .error (.textBehindQuotes place)
  | c :: rest =>
      if last ≤ place || c == '"' then
        match c, rest with
        | '"', ']' :: rest => .ok (kept.reverse, rest)
        | _, _ => .error (.textBehindQuotes place)
      else
        match c, rest with
        | '\\', d :: rest => readQuotedName last (place + 2) (d :: kept) rest
        | c, rest => readQuotedName last (place + 1) (c :: kept) rest

def readSubsection (name rest : Octets) : Except Disorder (Octets × Octets) :=
  match rest.dropWhile Octets.isSpace with
  | '"' :: quoted =>
      if quoted.contains '"' then do
        let last := quoted.length - (quoted.reverse.takeWhile (· != '"')).length
        let (part, rest) ← readQuotedName last 1 [] quoted
        .ok (name ++ '.' :: part, rest)
      else .error .unclosedQuotes
  | _ => .error .noQuotes

def readSection (column : Nat) (kept : Octets) : Octets → Except Disorder (Octets × Octets)
  | [] => .error .unclosedHeading
  | c :: rest =>
      if Octets.isSpace c then readSubsection kept.reverse rest
      else if !isKeyChar c && c != '.' then .error (.strayCharacter (column + 1))
      else
        match rest with
        | ']' :: rest => .ok ((c.toLower :: kept).reverse, rest)
        | rest => readSection (column + 1) (c.toLower :: kept) rest

def readKey (line : Octets) : Except Disorder (Octets × Option Octets) :=
  let name := line.takeWhile isKeyChar
  match name, (line.drop name.length).dropWhile Octets.isSpace with
  | [], _ => .error .badKey
  | name, [] => .ok (name.map Char.toLower, none)
  | name, '=' :: value => .ok (name.map Char.toLower, some value)
  | _, _ => .error .badKey

/-! ## Lines -/

/-- A setting whose value goes on with the next line: what has been kept of the value, in reverse,
and its count of quotes. -/
structure OpenValue where
  name : Octets
  kept : Octets
  quotes : Nat

def OpenValue.value (v : OpenValue) : Octets :=
  v.kept.reverse

structure Progress where
  settings : List Setting := []
  sectionName : Octets := []
  pending : Option OpenValue := none

def Progress.add (p : Progress) (name : Octets) (value : Option Octets) : Progress :=
  { p with settings := ⟨name, value⟩ :: p.settings, pending := none }

def Progress.finish (p : Progress) : Configuration :=
  let p :=
    match p.pending with
    | some before => p.add before.name (some before.value)
    | none => p
  p.settings.reverse

def Progress.readSetting (p : Progress) (line : Octets) : Except Disorder Progress := do
  let (line, quotes) := stripComment 0 line
  let (key, value?) ← readKey line
  let name := if p.sectionName.isEmpty then key else p.sectionName ++ '.' :: key
  match value? with
  | none => .ok (p.add name none)
  | some written => do
      let (kept, goesOn) ← readValue [] (written.dropWhile Octets.isSpace)
      let read : OpenValue := ⟨name, kept, quotes % 2⟩
      if goesOn then .ok { p with pending := some read }
      else .ok (p.add name (some read.value))

/-- The first character that is no blank, or the first one at all. A line with nothing on it counts
as blank. -/
def leadingChar (line : Octets) : Char :=
  ((line.find? fun c => !Octets.isSpace c) <|> line.head?).getD '\n'

/-- Read a line that begins no value continued from before. A heading may have a setting or another
heading behind it. -/
def Progress.readLine (p : Progress) (line : Octets) : Nat → Except Disorder Progress
  | 0 => .ok p
  | fuel + 1 => do
      let written := line.dropWhile Octets.isSpace
      match leadingChar line with
      | '[' =>
          let visible := Octets.untilNul written
          if visible.contains ']' then
            let (name, behind) ← readSection 1 [] (visible.drop 1)
            let rest := written.drop (visible.length - behind.length)
            let p := { p with sectionName := name }
            if rest.all Octets.isSpace then .ok p else readLine p rest fuel
          else .error .unclosedHeading
      | ';' | '#' | ' ' | '\t' | '\r' | '\n' => .ok p
      | _ => p.readSetting (Octets.untilNul written)

/-- Read the next line of a value. A line with nothing but a comment is passed over. -/
def Progress.extend (p : Progress) (before : OpenValue) (line : Octets) :
    Except Disorder Progress :=
  match stripComment before.quotes (Octets.untilNul line) with
  | ([], quotes) => .ok { p with pending := some { before with quotes := quotes } }
  | (line, quotes) => do
      let (kept, goesOn) ← readValue before.kept line
      let read : OpenValue := ⟨before.name, kept, quotes⟩
      if goesOn then .ok { p with pending := some read }
      else .ok (p.add before.name (some read.value))

def Progress.next (p : Progress) (line : Octets) : Except Disorder Progress :=
  match p.pending with
  | some before =>
      if line.head? == some '\x00' then .ok (p.add before.name (some before.value))
      else p.extend before line
  | none => p.readLine line (line.length + 1)

/-! ## Whole files -/

/-- What a file says: the settings in their order, and what makes an end of the reading, with the
number of its line. -/
structure Reading where
  settings : Configuration
  disorder? : Option (Disorder × Nat)
  deriving DecidableEq

def readLines (number : Nat) (p : Progress) : List Octets → Reading
  | [] => ⟨p.finish, none⟩
  | line :: lines =>
      match p.next line with
      | .ok p => readLines (number + 1) p lines
      | .error disorder => ⟨p.settings.reverse, some (disorder, number)⟩

def linesOf (content : Octets) : List Octets :=
  let pieces := Text.split (· == '\n') content
  if pieces.getLast? == some [] then pieces.dropLast else pieces

def byteOrderMark : Octets := Octets.ofText ['\uFEFF']

/-- Read the content of a file. A byte order mark at its front is passed over, and a file that
begins with a NUL is taken for empty. -/
def read (content : Octets) : Reading :=
  if content.head? == some '\x00' then ⟨[], none⟩
  else readLines 1 {} (linesOf ((Octets.after? byteOrderMark content).getD content))

/-! ## Writing -/

/-- Whether a value has to stand in quotes: blanks at its ends would be lost, and the rest behind
the mark of a comment. -/
def needsQuotes (value : Octets) : Bool :=
  value.isEmpty || value.head? == some ' ' || value.getLast? == some ' ' ||
    value.any fun c => c == ';' || c == '#'

def writtenChar : Char → Octets
  | '\n' => "\\n"
  | '\t' => "\\t"
  | '\x08' => "\\b"
  | '"' => "\\\""
  | '\\' => "\\\\"
  | c => [c]

def writtenValue (value : Octets) : Octets :=
  let inner := value.flatMap writtenChar
  if needsQuotes value then '"' :: inner ++ ['"'] else inner

def write (content name value : Octets) : Octets :=
  let key := (name.reverse.takeWhile (· != '.')).reverse
  let header := name.take (name.length - key.length - 1)
  let top := header.takeWhile (· != '.')
  let lower := header.drop (top.length + 1)
  let heading := if lower.isEmpty then top else top ++ " \"" ++ lower ++ "\""
  content ++ "\n[" ++ heading ++ "]\n\t" ++ key ++ " = " ++ writtenValue value ++ "\n"

example : read "[Core]\n\tAbbrev = \"a ;\" b ; c\n[x \"Y.z\"] k\n" =
    ⟨[⟨"core.abbrev", some "a ; b"⟩, ⟨"x.Y.z.k", none⟩], none⟩ := by decide +kernel

example : read "[core]\na = 1\\\n  2\\n#\nb" =
    ⟨[⟨"core.a", some "1  2\n"⟩, ⟨"core.b", none⟩], none⟩ := by decide +kernel

example : read "a = 1\n[x \"y\\\"]\n" =
    ⟨[⟨"a", some "1"⟩], some (.textBehindQuotes 4, 2)⟩ := by decide +kernel

example : read (write [] "core.abbrev" " 9;\t") =
    ⟨[⟨"core.abbrev", some " 9;\t"⟩], none⟩ := by decide +kernel

end VersionStamp.Git.Configuration
