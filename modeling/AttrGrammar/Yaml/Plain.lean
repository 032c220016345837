import AttrGrammar.Binary64.Decimal
import AttrGrammar.Data

/-!
Contract: which value a YAML scalar without quotes stands for.

Owns:
- the words for null, for truth values and for the floating point numbers that are not finite;
- the spellings of integers and of decimals, in which underscores do not count, and the integers that have too many
  digits to be read;
- the two words that stand for no value: the key of a merge, and the default key.

Every other scalar is text. Dates are not told from text.
-/

namespace AttrGrammar.Yaml

/-- A lower-case word in the three casings in which it counts: lower, capitalised and upper. -/
def casings (word : String) : List String :=
  [word, word.capitalize, word.map Char.toUpper]

def nullWords : List String :=
  ["", "~"] ++ casings "null"

def trueWords : List String :=
  ["yes", "true", "on"].flatMap casings

def falseWords : List String :=
  ["no", "false", "off"].flatMap casings

/-- The key that merges another mapping into its own. -/
def mergeKey : String := "<<"

/-- The key for a default, which is text as a key and no value elsewhere. -/
def defaultKey : String := "="

/-- The value of digits in a base, underscores left out; there may be none. -/
def digits? (base : Nat) (text : List Char) : Option Nat :=
  (((text.filter (· ≠ '_')).map Text.hexValue?).mapM fun
    | some value => if value < base then some value else none
    | none => none).map (Text.ofDigits base)

/-- Parts of sixty behind a whole number, each of one or two digits behind a colon. -/
def sixtieths? (whole : Nat) : List (List Char) → Option Nat
  | [] => some whole
  | part :: later => do
      let value ← if part.length ≤ 2 ∧ '_' ∉ part then digits? 10 part else none
      if part.isEmpty ∨ 60 ≤ value then none else sixtieths? (whole * 60 + value) later

def betweenColons : List Char → List (List Char)
  | [] => [[]]
  | ':' :: later => [] :: betweenColons later
  | c :: later =>
      match betweenColons later with
      | [] => [[c]]
      | part :: parts => (c :: part) :: parts

/-- A whole number in base ten, with parts of sixty if there are colons. -/
def wholeNumber? (text : List Char) : Option Nat :=
  match betweenColons text with
  | [] => none
  | first :: parts =>
      if first.head?.any Text.isAsciiDigit then do sixtieths? (← digits? 10 first) parts else none

/-- The magnitude of an integer: in base two, sixteen or eight behind `0b`, `0x` or a zero, and else in base
ten. -/
def magnitude? : List Char → Option Nat
  | ['0'] => some 0
  | '0' :: 'b' :: text => if text.isEmpty then none else digits? 2 text
  | '0' :: 'x' :: text => if text.isEmpty then none else digits? 16 text
  | '0' :: text => digits? 8 text
  | text => wholeNumber? text

/-- The count of the digits of an integer that has too many to be read. Only base ten is limited, and parts of sixty
are read by themselves. -/
def longInteger? (text : List Char) : Option Nat :=
  let (_, magnitude) := Text.splitSign text
  let digits := ((magnitude.takeWhile (· ≠ ':')).filter (· ≠ '_')).length
  if Text.decimalDigitLimit < digits ∧ magnitude.head? ≠ some '0' ∧ (magnitude? magnitude).isSome then
    some digits
  else none

/-- The exponent at the end of a decimal: none, or `e`, a sign and digits. -/
def exponent? : List Char → Option Int
  | [] => some 0
  | mark :: sign :: text =>
      if (mark = 'e' ∨ mark = 'E') ∧ (sign = '+' ∨ sign = '-') ∧ !text.isEmpty ∧
          text.all Text.isAsciiDigit then
        let magnitude : Int := Text.ofDigits 10 (text.map Text.digitValue)
        some (if sign = '-' then -magnitude else magnitude)
      else none
  | _ => none

/-- Whether a character can stand in the fraction of a decimal. -/
def inFraction (c : Char) : Bool :=
  Text.isAsciiDigit c || c = '_'

/-- A decimal: it has a point. A fraction alone has no sign, and parts of sixty have no exponent. -/
def decimal? (signed : Bool) (text : List Char) : Option Text.Decimal := do
  let whole := text.takeWhile (· ≠ '.')
  let behind := (text.dropWhile (· ≠ '.')).drop 1
  let fraction := (behind.takeWhile inFraction).filter (· ≠ '_')
  let exponent ← exponent? (behind.dropWhile inFraction)
  let sixty := whole.contains ':' && !(behind.all inFraction)
  if !text.contains '.' || sixty || whole.isEmpty && (signed || !behind.head?.any Text.isAsciiDigit) then
    none
  else
    let value ← if whole.isEmpty then some 0 else wholeNumber? whole
    let places := fraction.length
    some
      { negative := false
        digits := value * Nat.pow 10 places + Text.ofDigits 10 (fraction.map Text.digitValue)
        exponent := exponent - places }

def number? (text : List Char) : Option Data :=
  let (negative, magnitude) := Text.splitSign text
  let signed := magnitude.length < text.length
  match magnitude? magnitude with
  | some n => some (.int (if negative then -n else n))
  | none =>
      if String.ofList magnitude ∈ [".inf", ".Inf", ".INF"] then
        some (.float (Binary64.infinity negative))
      else if String.ofList text ∈ [".nan", ".NaN", ".NAN"] then
        some (.float (Binary64.notANumber false))
      else
        (decimal? signed magnitude).map fun d => .float (Binary64.ofDecimal { d with negative })

/-- The value of a scalar without quotes. -/
def plainValue? (text : String) : Option Data :=
  if text ∈ nullWords then some .null
  else if text ∈ trueWords then some (.bool true)
  else if text ∈ falseWords then some (.bool false)
  else if text = mergeKey ∨ text = defaultKey then none
  else some ((number? text.toList).getD (.str text))

end AttrGrammar.Yaml
