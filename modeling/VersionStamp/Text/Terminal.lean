import VersionStamp.Text

namespace VersionStamp.Text.Terminal

/-!
# What a terminal shows

Some characters are not shown by a terminal but tell it what to do. An escape character begins a
sequence of them, whose end depends on how it goes on. `visible` leaves all of them out.
-/

inductive Mode where
  /-- Not in a sequence. -/
  | plain
  /-- Behind an escape character. -/
  | escape
  | escapeIntermediate
  /-- In a control sequence. -/
  | control
  /-- At the beginning of a device control string, in its parameters, and behind them. -/
  | device
  | deviceParameters
  | deviceIntermediate
  /-- In a command to the operating system. -/
  | command
  /-- In a string that goes on to its terminator. -/
  | string
  deriving DecidableEq

def isIn (low high c : Char) : Bool :=
  low ≤ c && c ≤ high

/-- A string terminator of one byte, which is also found within other characters. -/
def holdsTerminator (c : Char) : Bool :=
  (String.utf8EncodeChar c).contains 0x9C

def Mode.behindEscape (c : Char) : Mode :=
  if isIn ' ' '/' c then .escapeIntermediate
  else if c == '[' then .control
  else if c == ']' then .command
  else if c == 'P' then .device
  else if c == 'X' || c == '^' || c == '_' then .string
  else if isIn '0' '~' c then .plain
  else .escape

def Mode.inDevice (c : Char) : Mode :=
  if isIn ' ' '/' c then .deviceIntermediate
  else if isIn '0' '?' c then .deviceParameters
  else if isIn '@' '~' c then .string
  else .device

def Mode.inDeviceParameters (c : Char) : Mode :=
  if isIn ' ' '/' c then .deviceIntermediate
  else if isIn '<' '~' c then .string
  else .deviceParameters

/-- The mode behind a character. Two controls end every sequence, and an escape character begins a
new one. -/
def Mode.next (mode : Mode) (c : Char) : Mode :=
  if c == '\x18' || c == '\x1a' then .plain
  else if c == '\x1b' then .escape
  else
    match mode with
    | .plain => .plain
    | .escape => .behindEscape c
    | .escapeIntermediate => if isIn '0' '~' c then .plain else .escapeIntermediate
    | .control => if isIn '@' '~' c then .plain else .control
    | .device => .inDevice c
    | .deviceParameters => .inDeviceParameters c
    | .deviceIntermediate => if isIn '0' '~' c then .string else .deviceIntermediate
    | .command => if c == '\x07' then .plain else .command
    | .string => if holdsTerminator c then .plain else .string

def isBlankControl (c : Char) : Bool :=
  c == '\t' || c == '\n' || c == '\x0c' || c == '\r'

def isShown (c : Char) : Bool :=
  isIn ' ' '~' c || isBlankControl c || c.toNat ≥ 0x80

def Mode.isOpen : Mode → Bool
  | .escape | .escapeIntermediate | .control => true
  | _ => false

/-- The mode that is remembered, and whether characters are shown all the same. They are behind a
blank control within a sequence, until there is one that cannot be shown; then the sequence goes
on. -/
structure Reading where
  mode : Mode := .plain
  shows : Bool := true
  deriving DecidableEq

def Reading.showsNext (r : Reading) (c : Char) : Bool :=
  if r.shows || r.mode == .plain then isShown c else r.mode.isOpen && isBlankControl c

def Reading.next (r : Reading) (c : Char) : Reading :=
  if r.showsNext c then ⟨if c.toNat ≥ 0x80 then .plain else r.mode, true⟩
  else ⟨r.mode.next c, false⟩

def Reading.visible (r : Reading) : Text → Text
  | [] => []
  | c :: rest =>
      if r.showsNext c then c :: (r.next c).visible rest else (r.next c).visible rest

def visible (t : Text) : Text :=
  ({} : Reading).visible t

example : visible "a\x1b]0;t\x07b\x1b(Bc\x7f" = "abc" := by decide +kernel

example : visible "\x1b[3\ta1\x01mb" = "\ta1b" := by decide +kernel

end VersionStamp.Text.Terminal
