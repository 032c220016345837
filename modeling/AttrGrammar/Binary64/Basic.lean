/-!
Contract: IEEE 754 binary64 numbers as their bits.

Owns:
- the fields of a number, and the exact value of a finite one as a whole number times a power of two;
- equality of numbers, in which the zeros are one and no NaN equals anything;
- the number nearest to a quotient of natural numbers, a tie going to the even significand.

Does not own: decimal text.
-/

namespace AttrGrammar

structure Binary64 where
  bits : BitVec 64
deriving DecidableEq, Repr

namespace Binary64

/-- The sign bit. -/
def isNegative (x : Binary64) : Bool :=
  Nat.pow 2 63 ≤ x.bits.toNat

def exponentField (x : Binary64) : Nat :=
  x.bits.toNat / Nat.pow 2 52 % Nat.pow 2 11

/-- The stored bits of the significand. -/
def fractionField (x : Binary64) : Nat :=
  x.bits.toNat % Nat.pow 2 52

/-- Whether a number is an infinity or a NaN. -/
def isSpecial (x : Binary64) : Bool :=
  x.exponentField = 2047

def isNaN (x : Binary64) : Bool :=
  x.isSpecial && x.fractionField ≠ 0

/-- The significand of a finite number, with the leading bit that normal numbers do not store. -/
def significand (x : Binary64) : Nat :=
  if x.exponentField = 0 then x.fractionField else Nat.pow 2 52 + x.fractionField

/-- How far the exponent of a finite number is above the least one: the magnitude of the number is
`significand * 2 ^ scale / 2 ^ 1074`. -/
def scale (x : Binary64) : Nat :=
  x.exponentField - 1

def isZero (x : Binary64) : Bool :=
  x.bits.toNat % Nat.pow 2 63 = 0

/-- Equality of numbers: a NaN equals nothing, and the two zeros are equal. -/
def same (x y : Binary64) : Bool :=
  !x.isNaN && !y.isNaN && (x = y || (x.isZero && y.isZero))

/-- The number with a sign and with the bits of a magnitude. -/
def ofMagnitude (negative : Bool) (magnitude : Nat) : Binary64 :=
  ⟨BitVec.ofNat 64 (if negative then Nat.pow 2 63 + magnitude else magnitude)⟩

/-- The bits of positive infinity: finite magnitudes lie below it. -/
def infiniteMagnitude : Nat :=
  2047 * Nat.pow 2 52

def infinity (negative : Bool) : Binary64 :=
  ofMagnitude negative infiniteMagnitude

/-- The quiet NaN of a sign. -/
def notANumber (negative : Bool) : Binary64 :=
  ofMagnitude negative (infiniteMagnitude + Nat.pow 2 51)

/-- The natural number nearest to a quotient; of two that are equally near, the even one. -/
def roundQuotient (numerator denominator : Nat) : Nat :=
  let quotient := numerator / denominator
  let twice := 2 * (numerator % denominator)
  if twice < denominator then quotient
  else if denominator < twice then quotient + 1
  else if quotient % 2 = 0 then quotient else quotient + 1

/-- The greatest `e` with `2 ^ e ≤ numerator / denominator`, for a quotient above zero. -/
def floorLog2 (numerator denominator : Nat) : Int :=
  let guess : Int := (numerator.log2 : Int) - denominator.log2
  let reached :=
    if 0 ≤ guess then denominator * Nat.pow 2 guess.toNat ≤ numerator
    else denominator ≤ numerator * Nat.pow 2 (-guess).toNat
  if reached then guess else guess - 1

/-- The bits of the magnitude nearest to a quotient with a denominator above zero, a tie going to the
even significand. A magnitude beyond the finite ones has the bits of infinity.

With `e` the binary exponent of the quotient, its last significand bit has the weight `2 ^ (e - 52)`, but
no less than `2 ^ (-1074)`. The quotient rounded to that weight, as the stored exponent and fraction, is
one sum: a significand that rounds up to `2 ^ 53` carries into the exponent. -/
def nearestMagnitude (numerator denominator : Nat) : Nat :=
  if numerator = 0 then 0
  else
    let weight := max (floorLog2 numerator denominator - 52) (-1074)
    let significand :=
      if 0 ≤ weight then roundQuotient numerator (denominator * Nat.pow 2 weight.toNat)
      else roundQuotient (numerator * Nat.pow 2 (-weight).toNat) denominator
    min ((weight + 1074).toNat * Nat.pow 2 52 + significand) infiniteMagnitude

/-- The finite number nearest to a natural number, if one is near enough. -/
def ofNat? (n : Nat) : Option Binary64 :=
  let magnitude := nearestMagnitude n 1
  if magnitude < infiniteMagnitude then some (ofMagnitude false magnitude) else none

end Binary64

end AttrGrammar
