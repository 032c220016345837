import AttrGrammar.Unicode.Printable

/-!
Contract: the quoted form in which diagnostics show a text.

Owns:
- the lower-case hexadecimal digits of a number, padded to a width, and the values of digits;
- the choice of the quote: a single one, unless the text holds a single quote and no double quote;
- the escapes: backslash, the quote itself, tab, line feed, carriage return, and every character
  that is not shown as itself by its number.

Does not own: the escapes of string literals, which have a rule of their own.
-/

namespace AttrGrammar.Text

/-! ## Digits -/

/-- The lower-case hexadecimal digits of a number, with zeros in front up to a least width. -/
def hex (width : Nat) (n : Nat) : List Char :=
  let digits := Nat.toDigits 16 n
  List.replicate (width - digits.length) '0' ++ digits

/-- The value of a hexadecimal digit of either case. -/
def hexValue? (c : Char) : Option Nat :=
  if '0' ≤ c ∧ c ≤ '9' then some (c.toNat - '0'.toNat)
  else if 'a' ≤ c ∧ c ≤ 'f' then some (c.toNat - 'a'.toNat + 10)
  else if 'A' ≤ c ∧ c ≤ 'F' then some (c.toNat - 'A'.toNat + 10)
  else none

/-- The number that a list of digit values denotes in a base, the first digit being the highest. -/
def ofDigits (base : Nat) (digits : List Nat) : Nat :=
  digits.foldl (fun n d => n * base + d) 0

/-! ## Quoting -/

/-- The quote around a text. -/
def quoteFor (cs : List Char) : Char :=
  if cs.contains '\'' && !cs.contains '"' then '"' else '\''

def showChar (quote c : Char) : List Char :=
  if c = quote ∨ c = '\\' then ['\\', c]
  else if c = '\t' then ['\\', 't']
  else if c = '\n' then ['\\', 'n']
  else if c = '\r' then ['\\', 'r']
  else if Unicode.isPrintable c.toNat then [c]
  else if c.toNat < 0x100 then '\\' :: 'x' :: hex 2 c.toNat
  else if c.toNat < 0x10000 then '\\' :: 'u' :: hex 4 c.toNat
  else '\\' :: 'U' :: hex 8 c.toNat

/-- A text between quotes, with what cannot be shown escaped. -/
def quoted (text : String) : String :=
  let cs := text.toList
  let quote := quoteFor cs
  String.ofList (quote :: cs.flatMap (showChar quote) ++ [quote])

end AttrGrammar.Text
