import AttrGrammar.Expr.Terminal

/-!
Contract: phrases, that is, expressions as they are spelled.

Owns:
- the phrases, which keep every terminal, brackets, bars and commas included;
- the terminals of a phrase in their order;
- the expression that a phrase stands for, its literals not yet decoded.

Does not own: which phrases the grammar allows, and how they are found.
-/

namespace AttrGrammar

abbrev RawExpr := Expr Terminal

/-- A name: a word, and more words, each with the `::` in front of it. -/
structure NamePhrase where
  head : Terminal
  tail : List (Terminal × Terminal)

namespace NamePhrase

def push (n : NamePhrase) (separator word : Terminal) : NamePhrase :=
  ⟨n.head, n.tail ++ [(separator, word)]⟩

def terminals (n : NamePhrase) : List Terminal :=
  n.head :: n.tail.flatMap fun step => [step.1, step.2]

def name (n : NamePhrase) : NamePath :=
  ⟨n.head.text, n.tail.map fun step => step.2.text, n.head.position⟩

end NamePhrase

/-- A parameter of a closure: a word, perhaps with a colon and a type name. -/
structure ParamPhrase where
  name : Terminal
  type : Option (Terminal × NamePhrase)

namespace ParamPhrase

def terminals (p : ParamPhrase) : List Terminal :=
  p.name :: p.type.elim [] fun type => type.1 :: type.2.terminals

def param (p : ParamPhrase) : ClosureParam :=
  ⟨p.name.text, p.type.map fun type => type.2.name⟩

end ParamPhrase

/-- The bar of a closure, and parameters with a comma behind each. -/
structure OpenParams where
  opening : Terminal
  before : List (ParamPhrase × Terminal)

namespace OpenParams

def push (p : OpenParams) (param : ParamPhrase) (comma : Terminal) : OpenParams :=
  ⟨p.opening, p.before ++ [(param, comma)]⟩

def terminals (p : OpenParams) : List Terminal :=
  p.opening :: p.before.flatMap fun step => step.1.terminals ++ [step.2]

end OpenParams

/-- What stands in front of the body of a closure: its parameters between bars, the last of them without a comma,
or `||`. -/
inductive ClosureHead where
  | bars (params : OpenParams) (last : Option ParamPhrase) (closing : Terminal)
  | orOr (t : Terminal)

namespace ClosureHead

/-- The terminals in front of the body of a closure. -/
def terminals : ClosureHead → List Terminal
  | bars params last closing =>
      params.terminals ++ last.elim [] ParamPhrase.terminals ++ [closing]
  | orOr t => [t]

def params : ClosureHead → List ClosureParam
  | bars params last _ => (params.before.map Prod.fst ++ last.toList).map ParamPhrase.param
  | orOr _ => []

end ClosureHead

mutual

/-- An expression as it is spelled. -/
inductive Phrase where
  | literal (t : Terminal)
  | path (name : NamePhrase)
  | invocation (name : NamePhrase) (bang opening : Terminal) (args : Items) (closing : Terminal)
  | paren (opening : Terminal) (inner : Phrase) (closing : Terminal)
  | tuple (opening : Terminal) (elements : Items) (closing : Terminal)
  | array (opening : Terminal) (elements : Items) (closing : Terminal)
  | fill (opening : Terminal) (value : Phrase) (semi : Terminal) (count : Phrase)
      (closing : Terminal)
  | field (object : Phrase) (dot name : Terminal)
  | call (callee : Phrase) (opening : Terminal) (args : Items) (closing : Terminal)
  | index (object : Phrase) (opening : Terminal) (position : Phrase) (closing : Terminal)
  | propagate (operand : Phrase) (question : Terminal)
  | cast (operand : Phrase) (asWord : Terminal) (target : NamePhrase)
  | unary (op : UnaryOp) (sign : Terminal) (operand : Phrase)
  | binary (left : Phrase) (op : BinaryOp) (sign : Terminal) (right : Phrase)
  | closure (head : ClosureHead) (body : Phrase)

/-- Expressions between brackets, with a comma behind each but perhaps the last. -/
inductive Items where
  | nil
  | last (e : Phrase)
  | cons (e : Phrase) (comma : Terminal) (later : Items)

end

/-- Items that start with some that have a comma behind each. -/
def Items.behind (before : List (Phrase × Terminal)) (later : Items) : Items :=
  before.foldr (fun step items => .cons step.1 step.2 items) later

mutual

def Phrase.terminals : Phrase → List Terminal
  | .literal t => [t]
  | .path name => name.terminals
  | .invocation name bang opening args closing =>
      name.terminals ++ bang :: opening :: args.terminals ++ [closing]
  | .paren opening inner closing => opening :: inner.terminals ++ [closing]
  | .tuple opening elements closing => opening :: elements.terminals ++ [closing]
  | .array opening elements closing => opening :: elements.terminals ++ [closing]
  | .fill opening value semi count closing =>
      opening :: value.terminals ++ semi :: count.terminals ++ [closing]
  | .field object dot name => object.terminals ++ [dot, name]
  | .call callee opening args closing =>
      callee.terminals ++ opening :: args.terminals ++ [closing]
  | .index object opening position closing =>
      object.terminals ++ opening :: position.terminals ++ [closing]
  | .propagate operand question => operand.terminals ++ [question]
  | .cast operand asWord target => operand.terminals ++ asWord :: target.terminals
  | .unary _ sign operand => sign :: operand.terminals
  | .binary left _ sign right => left.terminals ++ sign :: right.terminals
  | .closure head body => head.terminals ++ body.terminals

def Items.terminals : Items → List Terminal
  | .nil => []
  | .last e => e.terminals
  | .cons e comma later => e.terminals ++ comma :: later.terminals

end

mutual

def Phrase.raw : Phrase → RawExpr
  | .literal t => .literal t t.position
  | .path name => .path name.name
  | .invocation name _ _ args _ => .invocation name.name args.raws
  | .paren _ inner _ => inner.raw
  | .tuple _ elements _ => .tuple elements.raws
  | .array _ elements _ => .array elements.raws
  | .fill _ value _ count _ => .fill value.raw count.raw
  | .field object _ name => .field object.raw name.text
  | .call callee _ args _ => callee.raw.applied args.raws
  | .index object _ position _ => .index object.raw position.raw
  | .propagate operand _ => .propagate operand.raw
  | .cast operand _ target => .cast operand.raw target.name
  | .unary op _ operand => .unary op operand.raw
  | .binary left op _ right => .binary op left.raw right.raw
  | .closure head body => .closure head.params body.raw

def Items.raws : Items → List RawExpr
  | .nil => []
  | .last e => [e.raw]
  | .cons e _ later => e.raw :: later.raws

end

end AttrGrammar
