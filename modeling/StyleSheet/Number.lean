/-!
# Numbers

Numbers are doubles.  A literal is read as the double nearest to its exact decimal value, and
a number is shown with one decimal place, rounded from its exact binary value.  Both ways go
through exact arithmetic on naturals.

The finite doubles are the whole multiples of `2 ^ (-1074)`, the least positive one, that a
significand of 53 bits can hold; `unitsPerOne` of these units make up one.
-/

namespace StyleSheet.Number

/-- The quotient rounded to the nearest natural, a half to the even neighbour. -/
def roundDiv (n d : Nat) : Nat :=
  let q := n / d
  let twice := 2 * (n % d)
  if twice < d || (twice == d && q % 2 == 0) then q else q + 1

/-- The number of least units in one. -/
def unitsPerOne : Nat := Nat.pow 2 1074

/-- The encoding of positive infinity. -/
def infinityBits : Nat := 0x7ff0000000000000

/-- The first bit of the exponent field, which is also the leading bit of a significand. -/
def exponentBit : Nat := 0x10000000000000

/-- The bit that tells the sign. -/
def signBit : Nat := 0x8000000000000000

/-- The encoding of the double nearest to `n / d`, a half going to the even significand.

The quotient in least units is cut down by a power of two to 53 bits.  The exponent field and
the significand are added: the leading bit of the significand, and a carry from rounding,
raise the exponent by one, which is what the encoding asks for. -/
def nearestBits (n d : Nat) : Nat :=
  let units := n * unitsPerOne
  let shift := (units / d).log2 - 52
  min infinityBits (shift * exponentBit + roundDiv units (d * Nat.pow 2 shift))

/-- The double nearest to `n / d`. -/
def nearest (n d : Nat) : Float := Float.ofBits (UInt64.ofNat (nearestBits n d))

/-- The value of a digit. -/
def digitValue (c : Char) : Nat := c.toNat - '0'.toNat

/-- The natural that digits denote. -/
def ofDigits (cs : List Char) : Nat := cs.foldl (fun n c => 10 * n + digitValue c) 0

/-- Reads digits with at most one point among them, and at least one digit. -/
def ofDecimal? (cs : List Char) : Option Float :=
  let whole := cs.takeWhile Char.isDigit
  match cs.drop whole.length with
  | [] => if whole.isEmpty then none else some (nearest (ofDigits whole) 1)
  | c :: fraction =>
    if c == '.' && fraction.all Char.isDigit && !(whole.isEmpty && fraction.isEmpty) then
      some (nearest (ofDigits (whole ++ fraction)) (Nat.pow 10 fraction.length))
    else none

/-- The magnitude of a finite double in least units, from the encoding without its sign. -/
def unitsOfBits (bits : Nat) : Nat :=
  let field := bits / exponentBit
  let fraction := bits % exponentBit
  if field = 0 then fraction else (fraction + exponentBit) * Nat.pow 2 (field - 1)

/-- A natural number of tenths with its point. -/
def tenthsText (n : Nat) : String := toString (n / 10) ++ "." ++ toString (n % 10)

/-- A number as it is shown: one decimal place, a half going to the even digit, and the sign of
zero kept. -/
def text (x : Float) : String :=
  let bits := x.toBits.toNat
  let magnitude := bits % signBit
  let sign := if signBit ≤ bits then "-" else ""
  if infinityBits < magnitude then "NaN"
  else if magnitude = infinityBits then sign ++ "inf"
  else sign ++ tenthsText (roundDiv (10 * unitsOfBits magnitude) unitsPerOne)

end StyleSheet.Number
