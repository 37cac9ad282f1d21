/-
# Quoted text

How the messages of the specification's errors (section 7) quote a text.

The form in which a text appears inside a message: between double quotes, with an escape for the
quote, the backslash, NUL, tab, line feed and carriage return, and with the code point of every
hidden character.  A single quote stands for itself.
-/
import UnitBake.Text.Hex
import UnitBake.Text.Hidden

namespace UnitBake.Text

/-- The code point of a character in hexadecimal, between braces. -/
def codePoint (c : Char) : String :=
  "\\u\x7b" ++ Hex.padded 1 c.toNat ++ "\x7d"

/-- What stands for one character between quotes. -/
def quotedChar (c : Char) : String :=
  if c = '\x00' then "\\0"
  else if c = '\t' then "\\t"
  else if c = '\n' then "\\n"
  else if c = '\r' then "\\r"
  else if c = '"' then "\\\""
  else if c = '\\' then "\\\\"
  else if isHidden c then codePoint c
  else c.toString

/-- The text between double quotes. -/
def quoted (s : String) : String :=
  "\"" ++ String.join (s.toList.map quotedChar) ++ "\""

end UnitBake.Text
