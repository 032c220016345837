import AttrGrammar.Literal
import AttrGrammar.Literal.Escape
import AttrGrammar.Token

/-!
Contract: the token of a literal that was made from a value.

Owns:
- the text of each kind of value, and the kind of its token.
-/

namespace AttrGrammar

namespace LiteralValue

/-- The kind of the token that a value is written as. -/
def tokenKind : LiteralValue → TokenKind
  | int _ => .int
  | float _ => .float
  | str _ => .str
  | byteStr _ => .byteStr
  | char _ => .char
  | byte _ => .byte
  | bool _ => .ident

end LiteralValue

namespace Literal

def quote (opening : List Char) (closing : Char) (body : List CodePoint) : String :=
  String.ofList (opening ++ body.flatMap Escape.encode ++ [closing])

/-- The text of a literal. Only numbers show their suffix. -/
def write (l : Literal) : String :=
  match l.value with
  | .int n => toString n ++ l.suffix
  | .float x => x.text ++ l.suffix
  | .str text => quote ['"'] '"' text
  | .byteStr bytes => quote ['b', '"'] '"' (bytes.map CodePoint.ofByte)
  | .char c => quote ['\''] '\'' [c]
  | .byte b => quote ['b', '\''] '\'' [CodePoint.ofByte b]
  | .bool b => if b then "true" else "false"

/-- The token of a literal that was not read from a source. -/
def token (l : Literal) : Token :=
  ⟨l.value.tokenKind, l.write, .nowhere, false⟩

end Literal

end AttrGrammar
