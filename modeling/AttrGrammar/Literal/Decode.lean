import AttrGrammar.Literal
import AttrGrammar.Literal.Escape
import AttrGrammar.Token.Kind

/-!
Contract: the literal that a token denotes.

Owns:
- the split of an integer into base, digits and suffix;
- the bodies of quoted literals;
- the causes for which a token denotes no literal, with their messages.

A token need not come from a lexer: any kind with any text has an answer.
-/

namespace AttrGrammar

/-- Why a token denotes no literal. `tooLarge` is an integer with the suffix of a floating point type that is
beyond all finite numbers. -/
inductive LiteralFault where
  | badEscape (fault : Escape.Fault) (text : String)
  | badSuffix (suffix : String)
  | badInteger (text : String)
  | badFloat (text : String)
  | notBytes (text : String)
  | notOneCodePoint (text : String)
  | notLiteral (text : String)
  | tooLarge
deriving DecidableEq, Repr

def LiteralFault.message : LiteralFault → String
  | badEscape (.unknown code) _ =>
      "unknown character escape `\\" ++ String.ofList code.toList ++ "`"
  | badEscape .unterminated _ => "unterminated unicode escape"
  | badEscape (.invalid code digits) text =>
      "invalid escape `\\" ++ String.ofList (code :: digits) ++ "` in `" ++ text ++ "`"
  | badSuffix suffix => "invalid suffix `" ++ suffix ++ "` for number literal"
  | badInteger text => "invalid integer literal `" ++ text ++ "`"
  | badFloat text => "invalid float literal `" ++ text ++ "`"
  | notBytes text => "non-byte character in byte literal `" ++ text ++ "`"
  | notOneCodePoint text => "character literal may only contain one codepoint: `" ++ text ++ "`"
  | notLiteral text => "expected literal, found `" ++ text ++ "`"
  | tooLarge => "int too large to convert to float"

namespace Literal

/-! ## Numbers -/

/-- The suffixes of integer types. -/
def intSuffixes : List String :=
  ["u8", "u16", "u32", "u64", "u128", "usize", "i8", "i16", "i32", "i64", "i128", "isize"]

def floatSuffixes : List String :=
  ["f32", "f64"]

/-- The base that a number is written in, and what follows the base mark. -/
def splitBase : List Char → Nat × List Char
  | '0' :: 'x' :: cs => (16, cs)
  | '0' :: 'o' :: cs => (8, cs)
  | '0' :: 'b' :: cs => (2, cs)
  | cs => (10, cs)

/-- Whether a character may stand among the digits of a base. -/
def isDigitOf (base : Nat) (c : Char) : Bool :=
  c = '_' || (Text.hexValue? c).any (· < base)

/-- The number that the digits of a base denote: there has to be one, and underscores do not count. -/
def integer? (base : Nat) (digits : List Char) : Option Nat :=
  let values := digits.filterMap Text.hexValue?
  if values.isEmpty || (base = 10 && Text.decimalDigitLimit < values.length) then none
  else some (Text.ofDigits base values)

/-- The literal of an integer token. -/
def decodeInt (text : String) : Except LiteralFault Literal :=
  let (base, body) := splitBase text.toList
  let suffix := String.ofList (body.dropWhile (isDigitOf base))
  if suffix ≠ "" ∧ suffix ∉ intSuffixes ∧ suffix ∉ floatSuffixes then
    .error (.badSuffix suffix)
  else
    match integer? base (body.takeWhile (isDigitOf base)) with
    | none => .error (.badInteger text)
    | some n =>
        if suffix ∈ floatSuffixes then
          match Binary64.ofNat? n with
          | some x => .ok ⟨.float x, suffix⟩
          | none => .error .tooLarge
        else .ok ⟨.int n, suffix⟩

/-- Splits a suffix of three characters off a floating point number. -/
def splitFloatSuffix (cs : List Char) : List Char × String :=
  let suffix := String.ofList (cs.drop (cs.length - 3))
  if suffix ∈ floatSuffixes then (cs.take (cs.length - 3), suffix) else (cs, "")

def decodeFloat (text : String) : Except LiteralFault Literal :=
  let (number, suffix) := splitFloatSuffix text.toList
  match Binary64.read? (number.filter (· ≠ '_')) with
  | some x => .ok ⟨.float x, suffix⟩
  | none => .error (.badFloat text)

/-! ## Quoted literals -/

/-- The characters between the quotes: all but the given number at the start and one at the end. -/
def bodyOf (opening : Nat) (text : String) : List Char :=
  (text.toList.drop opening).dropLast

/-- The code points of a quoted literal. -/
def decodeBody (opening : Nat) (text : String) : Except LiteralFault (List CodePoint) :=
  (Escape.decode (bodyOf opening text)).mapError (.badEscape · text)

/-- The code point of a quoted literal that has to hold one. -/
def decodeOne (opening : Nat) (text : String) : Except LiteralFault CodePoint := do
  match ← decodeBody opening text with
  | [c] => pure c
  | _ => throw (.notOneCodePoint text)

def toBytes (text : String) (cs : List CodePoint) : Except LiteralFault (List UInt8) :=
  match cs.mapM CodePoint.toByte? with
  | some bytes => .ok bytes
  | none => .error (.notBytes text)

/-! ## All kinds -/

def decode (kind : TokenKind) (text : String) : Except LiteralFault Literal :=
  match kind with
  | .int => decodeInt text
  | .float => decodeFloat text
  | .str => do pure (plain (.str (← decodeBody 1 text)))
  | .byteStr => do pure (plain (.byteStr (← toBytes text (← decodeBody 2 text))))
  | .char => do pure (plain (.char (← decodeOne 1 text)))
  | .byte => do
      let c ← decodeOne 2 text
      match c.toByte? with
      | some b => pure (plain (.byte b))
      | none => throw (.notBytes text)
  | .ident =>
      if text = "true" then .ok (plain (.bool true))
      else if text = "false" then .ok (plain (.bool false))
      else .error (.notLiteral text)
  | _ => .error (.notLiteral text)

end Literal

end AttrGrammar
