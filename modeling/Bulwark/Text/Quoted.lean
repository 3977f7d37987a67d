import Bulwark.Text.Unprintable

/-!
Quoted strings.

A string is written between double quotes. A quote and a backslash are written
after a backslash, the characters NUL, tab, line feed and carriage return as
`\0`, `\t`, `\n` and `\r`, and every other character without a printed form of
its own as its code point in lowercase hexadecimal, in braces after `\u`.
-/

namespace Bulwark.Text

/-- How one character stands inside a quoted string. -/
def quotedChar (c : Char) : String :=
  if c = '"' then "\\\""
  else if c = '\\' then "\\\\"
  else if c = '\n' then "\\n"
  else if c = '\r' then "\\r"
  else if c = '\t' then "\\t"
  else if c.toNat = 0 then "\\0"
  else if isUnprintable c then
    "\\u\x7b" ++ String.ofList (Nat.toDigits 16 c.toNat) ++ "\x7d"
  else c.toString

def quoted (s : String) : String :=
  "\"" ++ String.join (s.toList.map quotedChar) ++ "\""

end Bulwark.Text
