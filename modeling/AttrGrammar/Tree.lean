import AttrGrammar.Token

/-!
Contract: token trees. Every bracketed region is one tree, so that grammars never meet a bracket alone.

Owns:
- the delimiters and the trees;
- flattening trees to tokens, and printing them;
- the place where a sequence of trees ends.

Does not own: building trees from tokens.
-/

namespace AttrGrammar

/-- The kinds of bracket pairs. -/
inductive Delimiter where
  | paren
  | brace
  | bracket
deriving DecidableEq, Repr

namespace Delimiter

def openKind : Delimiter → TokenKind
  | paren => .lparen
  | brace => .lbrace
  | bracket => .lbracket

def closeKind : Delimiter → TokenKind
  | paren => .rparen
  | brace => .rbrace
  | bracket => .rbracket

/-- The spelling of the opening bracket. -/
def openText (d : Delimiter) : String :=
  String.ofList d.openKind.spelling

/-- The spelling of the closing bracket. -/
def closeText (d : Delimiter) : String :=
  String.ofList d.closeKind.spelling

/-- What messages call a group with these brackets. -/
def description : Delimiter → String
  | paren => "parentheses"
  | brace => "curly braces"
  | bracket => "square brackets"

def name : Delimiter → String
  | paren => "PAREN"
  | brace => "BRACE"
  | bracket => "BRACKET"

def ofOpen? : TokenKind → Option Delimiter
  | .lparen => some paren
  | .lbrace => some brace
  | .lbracket => some bracket
  | _ => none

def ofClose? : TokenKind → Option Delimiter
  | .rparen => some paren
  | .rbrace => some brace
  | .rbracket => some bracket
  | _ => none

@[simp] theorem ofOpen?_openKind (d : Delimiter) : ofOpen? d.openKind = some d := by
  cases d <;> rfl

@[simp] theorem ofClose?_closeKind (d : Delimiter) : ofClose? d.closeKind = some d := by
  cases d <;> rfl

end Delimiter

/-- A token, or a group: trees between brackets that stand at two places. -/
inductive Tree where
  | token (t : Token)
  | group (delimiter : Delimiter) (opening closing : Position) (trees : List Tree)
deriving Repr

namespace Tree

/-- The place of a tree: that of its token, or of its opening bracket. -/
def position : Tree → Position
  | token t => t.position
  | group _ opening _ _ => opening

/-- Whether a tree is a token that is joint with the next one. -/
def isJoint : Tree → Bool
  | token t => t.joint
  | group .. => false

def isKind (kind : TokenKind) : Tree → Bool
  | token t => t.kind = kind
  | group .. => false

def isGroup (wanted : Delimiter) : Tree → Bool
  | token _ => false
  | group delimiter .. => delimiter = wanted

def isWord (word : String) : Tree → Bool
  | token t => t.isWord word
  | group .. => false

/-- Whether a tree separates the items of a list. -/
def isComma (tree : Tree) : Bool :=
  tree.isKind .comma

mutual

def flatten : Tree → List Token
  | token t => [t]
  | group delimiter opening closing trees =>
      ⟨delimiter.openKind, delimiter.openText, opening, false⟩ ::
        flattenAll trees ++ [⟨delimiter.closeKind, delimiter.closeText, closing, false⟩]

def flattenAll : List Tree → List Token
  | [] => []
  | tree :: later => flatten tree ++ flattenAll later

end

mutual

def print : Tree → String
  | token t => t.text
  | group delimiter _ _ trees => delimiter.openText ++ printAll trees ++ delimiter.closeText

/-- Trees as text: a space stands between neighbours, unless the first is joint with the second. -/
def printAll : List Tree → String
  | [] => ""
  | [tree] => print tree
  | tree :: later => print tree ++ (if tree.isJoint then "" else " ") ++ printAll later

end

mutual

/-- How many tokens and groups a tree has. -/
def weight : Tree → Nat
  | token _ => 1
  | group _ _ _ trees => weightAll trees + 1

/-- How many tokens and groups a sequence of trees has. -/
def weightAll : List Tree → Nat
  | [] => 0
  | tree :: later => weight tree + weightAll later

end

/-- The place behind a tree, a token being on one line. -/
def finish : Tree → Position
  | token t => ⟨t.position.line, t.position.column + t.text.length⟩
  | group _ _ closing _ => ⟨closing.line, closing.column + 1⟩

/-- The place behind trees that come without the source that they stood in. -/
def finishAll (trees : List Tree) : Position :=
  match trees.getLast? with
  | none => .start
  | some tree => tree.finish

end Tree

def showTrees (trees : List Tree) : String :=
  "TokenStream(" ++ Text.quoted (Tree.printAll trees) ++ ")"

end AttrGrammar
