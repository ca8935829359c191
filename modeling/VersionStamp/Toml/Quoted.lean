import VersionStamp.Toml.Layout

namespace VersionStamp.Toml

/-!
# Strings

A basic string stands between double quotes and has escapes; a literal string stands between single
quotes and has none. Between three quotes either one is a block, which may hold line ends and
quotes. A line end within a block is always a line feed.
-/

def hexDigit? (c : Char) : Option Nat :=
  if c.isDigit then some (c.toNat - '0'.toNat)
  else if 'a' ≤ c ∧ c ≤ 'f' then some (c.toNat - 'a'.toNat + 10)
  else if 'A' ≤ c ∧ c ≤ 'F' then some (c.toNat - 'A'.toNat + 10)
  else none

def scalar? (n : Nat) : Option Char :=
  if n.isValidChar then some (Char.ofNat n) else none

def escaped? : Char → Option Char
  | 'b' => some '\x08'
  | 't' => some '\t'
  | 'n' => some '\n'
  | 'f' => some '\x0c'
  | 'r' => some '\r'
  | '"' => some '"'
  | '\\' => some '\\'
  | _ => none

/-- The quotes that still belong to a block, and what follows it, where a quote with this text
behind it closes the block. Up to two quotes may stand in front of the closing three. -/
def closeBlock? (quote : Char) : Text → Option (Text × Text)
  | second :: third :: rest =>
      if second == quote && third == quote then
        let quotes := (rest.takeWhile (· == quote)).take 2
        some (quotes, rest.drop quotes.length)
      else none
  | _ => none

inductive BasicMode where
  | plain
  /-- Behind a backslash. -/
  | escape
  /-- In the number of a character, with so many digits to come. -/
  | number (missing value : Nat)
  /-- Behind a backslash at the end of a line, in front of the line end. -/
  | beforeBreak
  /-- Behind such a line end; blanks are left out until the next character. -/
  | behindBreak

def hideBreak? (c : Char) (rest : Text) : Option BasicMode :=
  if isSpace c || beginsBreak c rest then some .beforeBreak
  else if c == '\n' then some .behindBreak
  else none

/-- The mode in which a character is read: what is not blank ends the blanks behind a hidden line
end. -/
def BasicMode.settle (mode : BasicMode) (c : Char) (rest : Text) : BasicMode :=
  match mode with
  | .behindBreak =>
      if isSpace c || c == '\n' || beginsBreak c rest then .behindBreak else .plain
  | mode => mode

/-- Read a basic string behind its opening quotes. The characters `found` so far stand in
reverse. -/
def readBasic (block : Bool) (mode : BasicMode) (found : Text) : Text → Option (Text × Text)
  | [] => none
  | c :: rest =>
      match mode.settle c rest with
      | .plain =>
          if c == '"' then
            if block then
              match closeBlock? '"' rest with
              | some (quotes, rest) => some (found.reverse ++ quotes, rest)
              | none => readBasic block .plain (c :: found) rest
            else some (found.reverse, rest)
          else if c == '\\' then readBasic block .escape found rest
          else if isPlain c || (block && c == '\n') then readBasic block .plain (c :: found) rest
          else if block && beginsBreak c rest then readBasic block .plain found rest
          else none
      | .escape =>
          if c == 'u' then readBasic block (.number 4 0) found rest
          else if c == 'U' then readBasic block (.number 8 0) found rest
          else
            match escaped? c with
            | some d => readBasic block .plain (d :: found) rest
            | none =>
                match if block then hideBreak? c rest else none with
                | some mode => readBasic block mode found rest
                | none => none
      | .number missing value =>
          match hexDigit? c with
          | none => none
          | some digit =>
              let value := value * 16 + digit
              if missing ≤ 1 then
                match scalar? value with
                | some d => readBasic block .plain (d :: found) rest
                | none => none
              else readBasic block (.number (missing - 1) value) found rest
      | .beforeBreak =>
          match hideBreak? c rest with
          | some mode => readBasic block mode found rest
          | none => none
      | .behindBreak => readBasic block .behindBreak found rest

def readLiteral (block : Bool) (found : Text) : Text → Option (Text × Text)
  | [] => none
  | c :: rest =>
      if c == '\'' then
        if block then
          match closeBlock? '\'' rest with
          | some (quotes, rest) => some (found.reverse ++ quotes, rest)
          | none => readLiteral block (c :: found) rest
        else some (found.reverse, rest)
      else if isPlain c || (block && c == '\n') then readLiteral block (c :: found) rest
      else if block && beginsBreak c rest then readLiteral block found rest
      else none

def readLineString? : Text → Option (Text × Text)
  | '"' :: rest => readBasic false .plain [] rest
  | '\'' :: rest => readLiteral false [] rest
  | _ => none

/-- The string at the front of the text, and what follows it. A block does not hold the line end
behind its opening quotes. -/
def readString? : Text → Option (Text × Text)
  | '"' :: '"' :: '"' :: rest => readBasic true .plain [] (skipBreak rest)
  | '\'' :: '\'' :: '\'' :: rest => readLiteral true [] (skipBreak rest)
  | t => readLineString? t

example : readString? "\"\"\"\na\\ \r\n  b\"\"\"\"c" = some ("ab\"".toList, ['c']) := by decide

example : readString? "\"\\u00e9\\U0001F600\"" = some ("é😀".toList, []) := by decide

example : readString? "\"\\uD800\"" = none := by decide

example : readString? "''''a''''" = some ("'a'".toList, []) := by decide

end VersionStamp.Toml
