import StyleSheet.Text.Printable

/-!
# Quoted text

A text between double quotes, with an escape for each character that could not be told
apart otherwise.
-/

namespace StyleSheet.Text

/-- A code point in lower-case hexadecimal digits, without leading zeros. -/
def hexDigits (c : Char) : String := String.ofList (Nat.toDigits 16 c.toNat)

/-- A character as it stands between double quotes. -/
def escaped (c : Char) : String :=
  if c == '\x00' then "\\0"
  else if c == '\t' then "\\t"
  else if c == '\r' then "\\r"
  else if c == '\n' then "\\n"
  else if c == '"' then "\\\""
  else if c == '\\' then "\\\\"
  else if isPrintable c then String.singleton c
  else "\\u\x7b" ++ hexDigits c ++ "\x7d"

/-- A text between double quotes. -/
def quoted (s : String) : String :=
  "\"" ++ String.join (s.toList.map escaped) ++ "\""

end StyleSheet.Text
