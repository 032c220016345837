import AttrGrammar.Cursor
import AttrGrammar.Expr.Parser
import AttrGrammar.Literal.Decode

/-!
Contract: expressions read from trees.

Owns:
- the expression that a whole sequence of trees spells, with the values of its literals, or the error;
- how many trees at a cursor belong to an expression: those up to the next comma that does not separate the
  parameters of a closure;
- the reader of expressions.

Errors of structure come before errors of literals, and of several literals the first one is reported.
-/

namespace AttrGrammar

/-- A node with the trees that spell it. -/
structure Spelled (α : Type) where
  node : α
  trees : List Tree

def Terminal.decode (t : Terminal) (position : Position) : Except Failure Literal :=
  (Literal.decode t.symbol.tokenKind t.text).mapError (.ofLiteral position)

namespace ExprParser

/-- The error for where the parser got stuck, the terminals ending at a place. -/
def Stuck.error (s : Stuck) (finish : Position) : ParseError :=
  let expected := (s.expected.map Expectation.description).mergeSort
  match s.terminal with
  | some t => ⟨.malformedItem, .stuckExpression (some t.text) expected, t.position⟩
  | none => ⟨.malformedItem, .stuckExpression none expected, finish⟩

end ExprParser

namespace Expr

def ofTrees (trees : List Tree) (finish : Position) : Except Failure (Expr Literal) :=
  if trees.isEmpty then
    .error (.rejected ⟨.malformedItem, .noItem .expression .nothing, finish⟩)
  else
    match parseTerminals (Terminal.ofTrees trees) with
    | .error stuck => .error (.rejected (stuck.error finish))
    | .ok phrase => phrase.raw.traverse Terminal.decode

/-- Whether a tree can end an operand, so that a bar behind it is an operator: a literal, a word, a question mark
or a group. -/
def endsOperand : Tree → Bool
  | .token t => t.kind.isLiteral || t.kind = .ident || t.kind = .question
  | .group .. => true

/-- How many trees belong to an expression, given the tree before them, and whether they stand among the
parameters of a closure. A bar that does not follow an operand opens parameters, the next bar closes them, and
commas between the two do not end the expression. -/
def extent (inParams : Bool) (before : Option Tree) : List Tree → Nat
  | [] => 0
  | tree :: later =>
      if inParams then
        extent (!tree.isKind .pipe) (some tree) later + 1
      else if tree.isComma then 0
      else if tree.isKind .pipe && !before.any endsOperand then extent true before later + 1
      else extent false (some tree) later + 1

/-- Reads the trees up to the end of an expression. -/
def read : Reader (Spelled (Expr Literal)) := do
  let c ← get
  let count := extent false none c.rest
  if count = 0 then
    Reader.fail .malformedItem (.noItem .expression)
  else
    let trees := c.rest.take count
    let behind := c.skip count
    set behind
    match ofTrees trees behind.position with
    | .ok node => pure ⟨node, trees⟩
    | .error failure => throw failure

end Expr

end AttrGrammar
