import AttrGrammar.Token
import AttrGrammar.Unicode.Digits
import AttrGrammar.Unicode.Letters

/-!
Contract: the tokens of a source text.

Owns:
- the gaps between tokens: blanks, and comments from `//` to the end of the line;
- how far a token reaches that starts at a given character, and its kind;
- the list of tokens with their places, the end token included, or the first fault.

A scanner says how many characters follow the first one in its token. The text of a token and the rest
of the source are then two parts of one list, and no scanner can lose a character.

Does not own: the values of literals.
-/

namespace AttrGrammar

namespace Lexer

/-- What can be wrong with a source at a place where a token should start. -/
inductive Fault where
  | unexpectedCharacter (c : Char)
  | unterminatedString
  | unterminatedCharacter
  | invalidCharacter
deriving DecidableEq, Repr

def Fault.message : Fault → String
  | unexpectedCharacter c => "Unexpected character: " ++ Text.quoted (String.ofList [c])
  | unterminatedString => "Unterminated string"
  | unterminatedCharacter => "Unterminated character literal"
  | invalidCharacter => "Invalid character literal"

/-! ## Character classes -/

/-- Whether a character may start a word. -/
def startsWord (c : Char) : Bool :=
  Unicode.isLetter c || c = '_'

/-- Whether a character may continue a word. -/
def continuesWord (c : Char) : Bool :=
  Unicode.isLetter c || Unicode.isNumeric c || c = '_'

/-- Whether a character may continue the digits of a decimal number. -/
def continuesDigits (c : Char) : Bool :=
  Unicode.isDigit c || c = '_'

/-- Whether a character may continue the digits after a base mark: hexadecimal ones after `x`, and decimal
ones after `o` and `b`. -/
def continuesRadix (mark c : Char) : Bool :=
  ('0' ≤ c && c ≤ '9') || c = '_' ||
    (mark = 'x' && (('a' ≤ c && c ≤ 'f') || ('A' ≤ c && c ≤ 'F')))

/-- Whether a character separates tokens. -/
def isBlank (c : Char) : Bool :=
  c = ' ' || c = '\t' || c = '\r' || c = '\n'

/-- How many characters at the start of a text belong to a class. -/
def runLength (inClass : Char → Bool) (cs : List Char) : Nat :=
  (cs.takeWhile inClass).length

/-! ## Gaps -/

/-- How many characters at the start of a text stand before the first token: blanks and comments. Within a
comment, all characters up to the end of the line do. -/
def gapLength (inComment : Bool) : List Char → Nat
  | [] => 0
  | c :: cs =>
      if inComment then gapLength (c ≠ '\n') cs + 1
      else if isBlank c then gapLength false cs + 1
      else if c = '/' ∧ cs.head? = some '/' then gapLength true cs + 1
      else 0

/-! ## Scanners -/

/-- How many characters follow an opening quote up to the closing one, which counts. A backslash takes the
next character with it. -/
def quotedLength? (quote : Char) : List Char → Option Nat
  | [] => none
  | '\\' :: _ :: cs => (quotedLength? quote cs).map (· + 2)
  | c :: cs => if c = quote then some 1 else (quotedLength? quote cs).map (· + 1)

/-- The length of a fraction: a point with a digit behind it, and the digits. -/
def fractionLength : List Char → Nat
  | '.' :: digit :: cs =>
      if Unicode.isDigit digit then runLength continuesDigits cs + 2 else 0
  | _ => 0

/-- The length of an exponent: its mark, with a digit or a sign behind it, and the digits. -/
def exponentLength : List Char → Nat
  | mark :: next :: cs =>
      if (mark = 'e' ∨ mark = 'E') ∧ (Unicode.isDigit next ∨ next = '+' ∨ next = '-') then
        runLength Unicode.isDigit cs + 2
      else 0
  | _ => 0

/-- The length of the digits behind the first digit of a number, and whether they have a fraction or an
exponent. -/
def digitsLength (first : Char) (cs : List Char) : Nat × Bool :=
  let decimal :=
    let whole := runLength continuesDigits cs
    let fraction := fractionLength (cs.drop whole)
    let exponent := exponentLength (cs.drop (whole + fraction))
    (whole + fraction + exponent, decide (fraction ≠ 0 ∨ exponent ≠ 0))
  match cs with
  | [] => decimal
  | mark :: more =>
      if first = '0' ∧ (mark = 'x' ∨ mark = 'o' ∨ mark = 'b') then
        (runLength (continuesRadix mark) more + 1, false)
      else decimal

/-- Whether a number is a floating point one by its suffix. In a hexadecimal number the same characters are
digits. -/
def hasFloatSuffix (text : List Char) : Bool :=
  (['f', '3', '2'].isSuffixOf text || ['f', '6', '4'].isSuffixOf text) &&
    !(['0', 'x'].isPrefixOf text)

/-- A number: its digits, then a suffix. -/
def scanNumber (first : Char) (cs : List Char) : TokenKind × Nat :=
  let (digits, isFloat) := digitsLength first cs
  let length := digits + runLength continuesWord (cs.drop digits)
  (if isFloat || hasFloatSuffix (first :: cs.take length) then .float else .int, length)

/-- What starts with a single quote: a character, or a lifetime. -/
def scanSingleQuote (cs : List Char) : Except Fault (TokenKind × Nat) :=
  if cs.head? = some '\\' ∨ cs[1]? = some '\'' then
    match quotedLength? '\'' cs with
    | some length => .ok (.char, length)
    | none => .error .unterminatedCharacter
  else if cs.head?.any startsWord then .ok (.lifetime, runLength continuesWord cs)
  else .error .invalidCharacter

/-- The kind of the token that starts with a character, and how many more characters it has. -/
def scan (c : Char) (cs : List Char) : Except Fault (TokenKind × Nat) :=
  if c = 'b' ∧ cs.head? = some '"' then
    match quotedLength? '"' cs.tail with
    | some length => .ok (.byteStr, length + 1)
    | none => .error .unterminatedString
  else if c = 'b' ∧ cs.head? = some '\'' then
    match quotedLength? '\'' cs.tail with
    | some length => .ok (.byte, length + 1)
    | none => .error .unterminatedCharacter
  else if startsWord c then .ok (.ident, runLength continuesWord cs)
  else if Unicode.isDigit c then .ok (scanNumber c cs)
  else if c = '"' then
    match quotedLength? '"' cs with
    | some length => .ok (.str, length)
    | none => .error .unterminatedString
  else if c = '\'' then scanSingleQuote cs
  else match cs.head?.bind (TokenKind.ofPair? c) with
    | some kind => .ok (kind, 1)
    | none =>
        match TokenKind.ofChar? c with
        | some kind => .ok (kind, 0)
        | none => .error (.unexpectedCharacter c)

end Lexer

/-- A source that has no tokens, with the place of the fault. -/
structure LexError where
  fault : Lexer.Fault
  position : Position
deriving DecidableEq, Repr

/-- The message for a source that has no tokens. -/
def LexError.message (e : LexError) : String :=
  e.fault.message

namespace Lexer

/-- What follows the first character of a token is shorter than what starts with the gap before it. -/
theorem length_lt_of_drop {cs more : List Char} {gap : Nat} {c : Char}
    (rest : cs.drop gap = c :: more) : more.length < cs.length := by
  have whole : (cs.drop gap).length ≤ cs.length := by simp
  simp only [rest, List.length_cons] at whole
  omega

/-- The tokens of the rest of a source that starts at a place. -/
def tokensFrom (start : Position) (cs : List Char) : Except LexError (List Token) :=
  let gap := gapLength false cs
  match rest : cs.drop gap with
  | [] => .ok [Token.atEnd (start.after cs)]
  | c :: more =>
      have _shorter := length_lt_of_drop rest
      let position := start.after (cs.take gap)
      match scan c more with
      | .error fault => .error ⟨fault, position⟩
      | .ok (kind, length) =>
          let text := c :: more.take length
          let later := more.drop length
          let token : Token :=
            { kind
              text := String.ofList text
              position
              joint := kind = .rangle && later.head? = some '>' }
          (tokensFrom (position.after text) later).map (token :: ·)
termination_by cs.length

end Lexer

/-- The tokens of a source, the end token last. -/
def tokenize (source : String) : Except LexError (List Token) :=
  Lexer.tokensFrom .start source.toList

end AttrGrammar
