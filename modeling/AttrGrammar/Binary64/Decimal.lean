import AttrGrammar.Binary64.Basic
import AttrGrammar.Text.Numeral

/-!
Contract: binary64 numbers and decimal text.

Owns:
- the number nearest to a decimal numeral;
- the shortest digits that read back as a number, and their layout as text.

The digits come from exact arithmetic. On the grid of decimals with a given count of digits, the two
neighbours of a number are tried; the first grid on which one of them rounds to the number wins.
-/

namespace AttrGrammar.Binary64

open Text

/-- The number nearest to a decimal. A decimal that is far beyond the finite numbers, or far below the
least of them, is told by the place of its first digit, before any power of ten is taken. -/
def ofDecimal (d : Decimal) : Binary64 :=
  let place := d.exponent + (Nat.toDigits 10 d.digits).length
  if d.digits = 0 ∨ place < -400 then ofMagnitude d.negative 0
  else if 400 < place then infinity d.negative
  else if 0 ≤ d.exponent then
    ofMagnitude d.negative (nearestMagnitude (d.digits * Nat.pow 10 d.exponent.toNat) 1)
  else
    ofMagnitude d.negative (nearestMagnitude d.digits (Nat.pow 10 (-d.exponent).toNat))

def ofNumeral : RealNumeral → Binary64
  | .decimal d => ofDecimal d
  | .infinity negative => infinity negative
  | .notANumber negative => notANumber negative

def read? (cs : List Char) : Option Binary64 :=
  (realNumeral? cs).map ofNumeral

/-! ## Shortest digits -/

/-- A quotient of natural numbers times a power of ten, again as a quotient. -/
def timesPowerOfTen (numerator denominator : Nat) (power : Int) : Nat × Nat :=
  if 0 ≤ power then (numerator * Nat.pow 10 power.toNat, denominator)
  else (numerator, denominator * Nat.pow 10 (-power).toNat)

/-- The least `k` with `numerator / denominator < 10 ^ k`, found upwards from a lower bound. -/
def decimalPlaces (numerator denominator : Nat) : Nat → Int → Int
  | 0, k => k
  | fuel + 1, k =>
      let (scaled, unit) := timesPowerOfTen numerator denominator (-k)
      if scaled < unit then k else decimalPlaces numerator denominator fuel (k + 1)

/-- Whether a decimal `digits * 10 ^ power` rounds to the given magnitude. -/
def readsBack (magnitude : Nat) (digits : Nat) (power : Int) : Bool :=
  let (numerator, denominator) := timesPowerOfTen digits 1 power
  nearestMagnitude numerator denominator = magnitude

/-- The decimal of the grid `10 ^ power` that is nearest to a quotient among those that read back, if
any; of two that are equally near, the even one. -/
def onGrid? (magnitude numerator denominator : Nat) (power : Int) : Option Nat :=
  let (scaled, unit) := timesPowerOfTen numerator denominator (-power)
  let nearest := roundQuotient scaled unit
  let other := if nearest * unit ≤ scaled then nearest + 1 else nearest - 1
  if readsBack magnitude nearest power then some nearest
  else if readsBack magnitude other power then some other
  else none

/-- The shortest digits, as a number and a power of ten, found from a count of digits upwards. -/
def shortestFrom (magnitude numerator denominator : Nat) (top : Int) : Nat → Nat → Nat × Int
  | 0, count => (0, top - count)
  | fuel + 1, count =>
      match onGrid? magnitude numerator denominator (top - count) with
      | some digits => (digits, top - count)
      | none => shortestFrom magnitude numerator denominator top fuel (count + 1)

/-- The shortest digits of a finite number other than zero, and the place of the decimal point: the
magnitude is `0.digits * 10 ^ place`. Seventeen digits always read back. -/
def shortestDigits (x : Binary64) : List Char × Int :=
  let magnitude := x.bits.toNat % Nat.pow 2 63
  let numerator := x.significand * Nat.pow 2 x.scale
  let denominator := Nat.pow 2 1074
  let start : Int := (floorLog2 numerator denominator * 30103 / 100000) - 1
  let top := decimalPlaces numerator denominator 8 start
  let (digits, power) := shortestFrom magnitude numerator denominator top 17 1
  let written := Nat.toDigits 10 digits
  let trimmed := (written.reverse.dropWhile (· = '0')).reverse
  (trimmed, power + written.length)

/-! ## Layout -/

/-- How decimals are laid out: positional from a least to a greatest place of the decimal point, else with
an exponent of at least so many digits. -/
structure Layout where
  leastPlace : Int
  greatestPlace : Int
  exponentDigits : Nat

/-- The layout of literals: positional from `0.0001` to below `10 ^ 16`, exponents of two digits at
least. -/
def literalLayout : Layout :=
  ⟨-3, 16, 2⟩

/-- Digits with the decimal point at a place: at least one digit stands on either side of it. -/
def positional (digits : List Char) (place : Int) : List Char :=
  if place ≤ 0 then
    '0' :: '.' :: List.replicate (-place).toNat '0' ++ digits
  else
    let whole := place.toNat
    let padded := digits ++ List.replicate (whole - digits.length) '0'
    let fraction := padded.drop whole
    padded.take whole ++ '.' :: (if fraction.isEmpty then ['0'] else fraction)

/-- Digits with one before the point, if there are more behind it, and an exponent. -/
def withExponent (exponentDigits : Nat) (digits : List Char) (place : Int) : List Char :=
  let exponent := place - 1
  let written := Nat.toDigits 10 exponent.natAbs
  let mantissa :=
    match digits with
    | first :: second :: more => first :: '.' :: second :: more
    | short => short
  mantissa ++ 'e' :: (if exponent < 0 then '-' else '+') ::
    List.replicate (exponentDigits - written.length) '0' ++ written

def magnitudeText (layout : Layout) (x : Binary64) : List Char :=
  if x.isZero then ['0', '.', '0']
  else
    let (digits, place) := x.shortestDigits
    if layout.leastPlace ≤ place ∧ place ≤ layout.greatestPlace then positional digits place
    else withExponent layout.exponentDigits digits place

/-- The text of a number: the shortest digits that read back. -/
def text (x : Binary64) : String :=
  if x.isNaN then "nan"
  else
    let magnitude :=
      if x.isSpecial then ['i', 'n', 'f'] else magnitudeText literalLayout x
    String.ofList (if x.isNegative then '-' :: magnitude else magnitude)

end AttrGrammar.Binary64
