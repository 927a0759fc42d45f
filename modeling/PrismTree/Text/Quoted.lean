import PrismTree.Text.Hexadecimal
import PrismTree.Text.Printable

/-!
# Quoted texts

A text in an error message or a diagnostic is put between double quotes, and each character that
would not be seen as itself is escaped: the usual ones by a letter, all others by their code.
-/
namespace PrismTree.Text

/-- The escape of a character by its code. -/
def escapeCode (c : Char) : String :=
  "\\u\x7b" ++ hexadecimal c.toNat ++ "\x7d"

/-- A character as it stands between double quotes. -/
def escape (c : Char) : String :=
  if c = '\x00' then "\\0"
  else if c = '\t' then "\\t"
  else if c = '\n' then "\\n"
  else if c = '\r' then "\\r"
  else if c = '"' then "\\\""
  else if c = '\\' then "\\\\"
  else if isPrintable c then c.toString
  else escapeCode c

/-- A text between double quotes. -/
def quote (text : String) : String :=
  "\"" ++ String.join (text.toList.map escape) ++ "\""

end PrismTree.Text
