import AttrGrammar.Literal
import AttrGrammar.Text.Numeral
import AttrGrammar.Unicode.Printable

/-!
Contract: the escapes of quoted literals.

Owns:
- the escapes of one letter, and their reading back;
- reading a body: `\x` with two characters of a hexadecimal numeral, `\u` with a numeral in braces;
- writing one code point of a body.

Does not own: the quotes around a body.
-/

namespace AttrGrammar.Escape

/-- The code point that a backslash with one letter denotes. -/
def denoted? : Char → Option Char
  | 'n' => some '\n'
  | 't' => some '\t'
  | 'r' => some '\r'
  | '0' => some '\x00'
  | '\\' => some '\\'
  | '"' => some '"'
  | '\'' => some '\''
  | _ => none

/-- What can be wrong with an escape. `unknown none` is a backslash at the end of a body. -/
inductive Fault where
  | unknown (code : Option Char)
  | unterminated
  | invalid (code : Char) (digits : List Char)
deriving DecidableEq, Repr

/-- The code point that the numeral of an escape denotes. -/
def numbered (code : Char) (digits : List Char) : Except Fault CodePoint :=
  match (Text.hexInteger? digits).bind fun n => if 0 ≤ n then CodePoint.ofNat? n.toNat else none with
  | some c => .ok c
  | none => .error (.invalid code digits)

def decode : List Char → Except Fault (List CodePoint)
  | [] => .ok []
  | '\\' :: [] => .error (.unknown none)
  | '\\' :: code :: cs =>
      match denoted? code with
      | some c => (decode cs).map (CodePoint.ofChar c :: ·)
      | none =>
          if code = 'x' then do
            let c ← numbered code (cs.take 2)
            (decode (cs.drop 2)).map (c :: ·)
          else if code = 'u' ∧ cs.head? = some '\x7b' then
            if cs.contains '\x7d' then do
              let digits := cs.tail.takeWhile (· ≠ '\x7d')
              let c ← numbered code (digits.filter (· ≠ '_'))
              (decode (cs.drop (digits.length + 2))).map (c :: ·)
            else .error .unterminated
          else .error (.unknown (some code))
  | c :: cs => (decode cs).map (CodePoint.ofChar c :: ·)
termination_by cs => cs.length

/-- The letter that stands for a character behind a backslash. -/
def letter? : Char → Option Char
  | '\n' => some 'n'
  | '\t' => some 't'
  | '\r' => some 'r'
  | '\x00' => some '0'
  | '\\' => some '\\'
  | '"' => some '"'
  | '\'' => some '\''
  | _ => none

/-- The written form of a code point: as itself if it can be shown, and else by its number, in two digits or
in as many as it has. -/
def encode (c : CodePoint) : List Char :=
  match c.toChar?, c.toChar?.bind letter? with
  | _, some letter => ['\\', letter]
  | some shown, none =>
      if Unicode.isPrintable c.value then [shown] else '\\' :: 'x' :: Text.hex 2 c.value
  | none, none => '\\' :: 'x' :: Text.hex 2 c.value

end AttrGrammar.Escape
