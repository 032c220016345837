import AttrGrammar.Binary64.Decimal

/-!
Contract: the values that literals denote.

Owns:
- the code points, surrogates included, with their passages from and to characters: an escape in a literal can denote a
  surrogate, so the text of a literal is a list of code points and not a string;
- the value of a literal with its kind, and the type suffix that was written behind a number;
- equality of literals.

Does not own: reading literals from tokens and writing them, and the properties of characters.
-/

namespace AttrGrammar

/-- A code point: a number below `0x110000`. -/
structure CodePoint where
  value : Nat
  value_lt : value < 0x110000
deriving DecidableEq, Repr

namespace CodePoint

def ofChar (c : Char) : CodePoint where
  value := c.toNat
  value_lt := by
    rcases c.valid with small | ⟨_, below⟩
    · exact Nat.lt_trans small (by decide)
    · exact below

/-- The code point with a given number, if there is one. -/
def ofNat? (n : Nat) : Option CodePoint :=
  if h : n < 0x110000 then some ⟨n, h⟩ else none

/-- The code point of a byte, as in the Latin-1 character set. -/
def ofByte (b : UInt8) : CodePoint where
  value := b.toNat
  value_lt := Nat.lt_trans b.toNat_lt (by decide)

/-- The character with this code point: none for a surrogate. -/
def toChar? (p : CodePoint) : Option Char :=
  if h : p.value.isValidChar then some (Char.ofNatAux p.value h) else none

/-- The byte with this code point in the Latin-1 character set, if there is one. -/
def toByte? (p : CodePoint) : Option UInt8 :=
  if p.value < 256 then some (UInt8.ofNat p.value) else none

@[simp] theorem value_ofChar (c : Char) : (ofChar c).value = c.toNat := rfl

@[simp] theorem value_ofByte (b : UInt8) : (ofByte b).value = b.toNat := rfl

theorem toByte?_ofByte (b : UInt8) : (ofByte b).toByte? = some b := by
  simp [toByte?, b.toNat_lt]

end CodePoint

/-- What a literal denotes. Texts are lists of code points, as escapes can denote surrogates. -/
inductive LiteralValue where
  | int (n : Int)
  | float (x : Binary64)
  | str (text : List CodePoint)
  | byteStr (bytes : List UInt8)
  | char (c : CodePoint)
  | byte (b : UInt8)
  | bool (b : Bool)
deriving DecidableEq, Repr

namespace LiteralValue

/-- The name of the kind of a value in dumps. -/
def kindName : LiteralValue → String
  | int _ => "INT"
  | float _ => "FLOAT"
  | str _ => "STR"
  | byteStr _ => "BYTE_STR"
  | char _ => "CHAR"
  | byte _ => "BYTE"
  | bool _ => "BOOL"

/-- Equality of values of one kind; floating point numbers are compared as numbers. -/
def same : LiteralValue → LiteralValue → Bool
  | float x, float y => x.same y
  | left, right => left = right

end LiteralValue

/-- A literal: its value and its suffix, such as `u8`, which is empty if there is none. -/
structure Literal where
  value : LiteralValue
  suffix : String
deriving DecidableEq, Repr

namespace Literal

/-- A literal without a suffix. -/
def plain (value : LiteralValue) : Literal :=
  ⟨value, ""⟩

def same (left right : Literal) : Bool :=
  left.value.same right.value && left.suffix = right.suffix

end Literal

end AttrGrammar
