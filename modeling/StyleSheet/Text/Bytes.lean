/-!
# Byte offsets in a text

Offsets count the bytes of the UTF-8 encoding, while a text is a list of characters.  An
offset is met only where a character starts or the text ends, so a cut can fail.
-/

namespace StyleSheet.Text

/-- The number of bytes that encode the characters. -/
def byteLength : List Char → Nat
  | [] => 0
  | c :: cs => c.utf8Size + byteLength cs

/-- What is left after the first `n` bytes, if a character ends there. -/
def dropBytes? : List Char → Nat → Option (List Char)
  | cs, 0 => some cs
  | [], _ + 1 => none
  | c :: cs, n + 1 => if c.utf8Size ≤ n + 1 then dropBytes? cs (n + 1 - c.utf8Size) else none

/-- The characters of the first `n` bytes, if a character ends there. -/
def takeBytes? : List Char → Nat → Option (List Char)
  | _, 0 => some []
  | [], _ + 1 => none
  | c :: cs, n + 1 =>
    if c.utf8Size ≤ n + 1 then (takeBytes? cs (n + 1 - c.utf8Size)).map (c :: ·) else none

/-- The characters between two byte offsets, if both are met and in order. -/
def slice? (cs : List Char) (start stop : Nat) : Option (List Char) :=
  if start ≤ stop then (dropBytes? cs start).bind (takeBytes? · (stop - start)) else none

end StyleSheet.Text
