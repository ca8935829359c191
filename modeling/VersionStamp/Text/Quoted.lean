import VersionStamp.Text.Unprintable

namespace VersionStamp.Text

/-!
# Quoted texts

A quoted text stands between double quotes. Quotes, backslashes and characters that are not
printable are escaped, so the quoted form is one line.
-/

def hex (n : Nat) : Text :=
  Nat.toDigits 16 n

/-- The form of a character within quotes. -/
def quotedChar (c : Char) : Text :=
  if c = '\x00' then "\\0"
  else if c = '\t' then "\\t"
  else if c = '\n' then "\\n"
  else if c = '\r' then "\\r"
  else if c = '"' then "\\\""
  else if c = '\\' then "\\\\"
  else if isPrintable c then [c]
  else "\\u" ++ ['\x7b'] ++ hex c.toNat ++ ['\x7d']

def quoted (t : Text) : Text :=
  '"' :: t.flatMap quotedChar ++ ['"']

example : quoted "a\n\x01" = "\"a\\n\\u\x7b1\x7d\"" := by
  decide +kernel

end VersionStamp.Text
