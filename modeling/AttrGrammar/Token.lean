import AttrGrammar.Text.Quoted
import AttrGrammar.Token.Kind

/-!
Contract: tokens as they stand in a source text.

Owns:
- places in a text: the line and column of a character, both counted from one, a column being one code point wide, and
  the place that is reached after reading characters;
- the token, with its raw text, its place and whether it is joint with the next one;
- its shown form in dumps.
-/

namespace AttrGrammar

/-- A place in a source text. `0:0` is no place in a text: it marks what was not read from one. -/
structure Position where
  line : Nat
  column : Nat
deriving DecidableEq, Repr

namespace Position

/-- The place of the first character of a text. -/
def start : Position := ⟨1, 1⟩

/-- The place of what was not read from a text. -/
def nowhere : Position := ⟨0, 0⟩

/-- The place after a character: a line feed starts the next line. -/
def next (p : Position) (c : Char) : Position :=
  if c = '\n' then ⟨p.line + 1, 1⟩ else ⟨p.line, p.column + 1⟩

def after (p : Position) (cs : List Char) : Position :=
  cs.foldl next p

/-- A place as `line:column`. -/
def text (p : Position) : String :=
  toString p.line ++ ":" ++ toString p.column

/-- A message with the place that it is about in front. -/
def locate (p : Position) (message : String) : String :=
  "Line " ++ toString p.line ++ ", column " ++ toString p.column ++ ": " ++ message

@[simp] theorem after_nil (p : Position) : p.after [] = p := rfl

@[simp] theorem after_cons (p : Position) (c : Char) (cs : List Char) :
    p.after (c :: cs) = (p.next c).after cs := rfl

@[simp] theorem after_append (p : Position) (front back : List Char) :
    p.after (front ++ back) = (p.after front).after back :=
  List.foldl_append ..

end Position

/-- A token. It is joint when it is a `>` directly in front of another `>`: such tokens print without a
space between them, and make up a shift operator in an expression. -/
structure Token where
  kind : TokenKind
  text : String
  position : Position
  joint : Bool
deriving DecidableEq, Repr

namespace Token

/-- The token that marks the end of a source. -/
def atEnd (position : Position) : Token :=
  ⟨.eof, "", position, false⟩

/-- A word, as a token that is not joint. -/
def word (text : String) (position : Position) : Token :=
  ⟨.ident, text, position, false⟩

def isWord (t : Token) (text : String) : Bool :=
  t.kind = .ident && t.text = text

def shown (t : Token) : String :=
  "Token(" ++ t.kind.name ++ ", " ++ Text.quoted t.text ++ ", " ++ t.position.text ++ ")"

end Token

end AttrGrammar
