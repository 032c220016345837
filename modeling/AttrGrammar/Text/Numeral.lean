import AttrGrammar.Text.Quoted
import AttrGrammar.Unicode.Digits
import AttrGrammar.Unicode.Ranges

/-!
Contract: the lenient reading of numerals. Decimal digits of any script count as digits and blanks
around a numeral do not count.

Owns:
- how many decimal digits an integer may have, where it is read or written;
- the plain form of a numeral text, over ASCII;
- signed hexadecimal integers, with an optional `0x` in front;
- signed decimals with an optional fraction and exponent, as a digit string and a power of ten.

Does not own: rounding to a floating point number.
-/

namespace AttrGrammar.Text

/-- The greatest count of digits that an integer of base ten may have. -/
def decimalDigitLimit : Nat := 4300

/-- A numeral character in ASCII: a blank beyond ASCII becomes a space, a decimal digit of any script
the digit of its value, and any other character beyond ASCII one that is in no numeral. -/
def plainChar (c : Char) : Char :=
  if c.toNat < 0x7f then c
  else if Unicode.isBlank c then ' '
  else match Unicode.decimalValue? c.toNat with
    | some value => Char.ofNat ('0'.toNat + value)
    | none => '?'

/-- The blanks of ASCII around a numeral: tab to carriage return, and the space. -/
def isAsciiBlank (c : Char) : Bool :=
  c = ' ' || ('\t' ≤ c && c ≤ '\r')

/-- A numeral text in ASCII, without blanks around it. -/
def plainNumeral (cs : List Char) : List Char :=
  (((cs.map plainChar).dropWhile isAsciiBlank).reverse.dropWhile isAsciiBlank).reverse

/-- Splits a sign off: whether it is negative, and what follows. -/
def splitSign : List Char → Bool × List Char
  | '-' :: cs => (true, cs)
  | '+' :: cs => (false, cs)
  | cs => (false, cs)

/-- Drops the sign of base sixteen, `0x`. -/
def dropHexMark : List Char → List Char
  | '0' :: 'x' :: cs => cs
  | '0' :: 'X' :: cs => cs
  | cs => cs

/-- The integer that a hexadecimal numeral denotes: a sign and `0x` may stand in front of at least one
digit. -/
def hexInteger? (cs : List Char) : Option Int :=
  let (negative, body) := splitSign (plainNumeral cs)
  match dropHexMark body with
  | [] => none
  | digits =>
      (digits.mapM hexValue?).map fun values =>
        let magnitude : Int := ofDigits 16 values
        if negative then -magnitude else magnitude

def digitValue (c : Char) : Nat :=
  c.toNat - '0'.toNat

def isAsciiDigit (c : Char) : Bool :=
  '0' ≤ c && c ≤ '9'

/-- A decimal as written: the digits as one number, and the power of ten that it is multiplied by. -/
structure Decimal where
  negative : Bool
  digits : Nat
  exponent : Int
deriving DecidableEq, Repr

/-- What a numeral for a floating point number says. -/
inductive RealNumeral where
  | decimal (d : Decimal)
  | infinity (negative : Bool)
  | notANumber (negative : Bool)
deriving DecidableEq, Repr

/-- The exponent part of a decimal, which has to end the text: nothing, or `e`, a sign and at least one
digit. -/
def decimalExponent? : List Char → Option Int
  | [] => some 0
  | mark :: cs =>
      if mark = 'e' ∨ mark = 'E' then
        let (negative, digits) := splitSign cs
        if digits.isEmpty || !digits.all isAsciiDigit then none
        else
          let magnitude : Int := ofDigits 10 (digits.map digitValue)
          some (if negative then -magnitude else magnitude)
      else none

/-- Splits off a fraction: the digits after a point, and what follows. -/
def splitFraction : List Char → List Char × List Char
  | '.' :: cs => (cs.takeWhile isAsciiDigit, cs.dropWhile isAsciiDigit)
  | cs => ([], cs)

/-- The numeral for a floating point number that a text spells: a decimal with at least one digit, or
`inf`, `infinity` or `nan` in any case. -/
def realNumeral? (cs : List Char) : Option RealNumeral :=
  let (negative, body) := splitSign (plainNumeral cs)
  let word := String.ofList (body.map Char.toLower)
  if word = "inf" ∨ word = "infinity" then some (.infinity negative)
  else if word = "nan" then some (.notANumber negative)
  else
    let whole := body.takeWhile isAsciiDigit
    let (fraction, rest) := splitFraction (body.dropWhile isAsciiDigit)
    let digits := whole ++ fraction
    if digits.isEmpty then none
    else (decimalExponent? rest).map fun exponent =>
      .decimal
        { negative
          digits := ofDigits 10 (digits.map digitValue)
          exponent := exponent - fraction.length }

end AttrGrammar.Text
