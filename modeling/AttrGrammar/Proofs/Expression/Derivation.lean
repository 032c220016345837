import AttrGrammar.Expr.Reading

/-!
Contract: the grammar of expressions, as productions and derivation trees.

Owns:
- the nonterminals and the productions, one rule or constructor for each alternative of the grammar;
- the terminals of a derivation, its literals, and the expression that it denotes;
- the phrase that a derivation spells, which forgets the rules that rename a nonterminal only.

An optional part is absent or present, and a part that repeats is a list. Binary operators are listed with their
nonterminals one by one: nothing here refers to the binding strengths that the parser works with.

Does not own: how a derivation is found.
-/

namespace AttrGrammar

/-! ## Nonterminals and rules -/

/-- The nonterminals that stand for expressions. -/
inductive Nonterminal where
  | start
  | expr
  | closure
  | orExpr
  | andExpr
  | cmpExpr
  | bitOrExpr
  | bitXorExpr
  | bitAndExpr
  | shiftExpr
  | sumExpr
  | productExpr
  | castExpr
  | unaryExpr
  | postfixExpr
  | primaryExpr
  | invocation
  | path
  | literal
deriving DecidableEq, Repr

/-- The productions that rename a nonterminal: the first can be just the second. -/
inductive Renames : Nonterminal → Nonterminal → Prop where
  | start : Renames .start .expr
  | operation : Renames .expr .orExpr
  | closure : Renames .expr .closure
  | orExpr : Renames .orExpr .andExpr
  | andExpr : Renames .andExpr .cmpExpr
  | cmpExpr : Renames .cmpExpr .bitOrExpr
  | bitOrExpr : Renames .bitOrExpr .bitXorExpr
  | bitXorExpr : Renames .bitXorExpr .bitAndExpr
  | bitAndExpr : Renames .bitAndExpr .shiftExpr
  | shiftExpr : Renames .shiftExpr .sumExpr
  | sumExpr : Renames .sumExpr .productExpr
  | productExpr : Renames .productExpr .castExpr
  | castExpr : Renames .castExpr .unaryExpr
  | unaryExpr : Renames .unaryExpr .postfixExpr
  | postfixExpr : Renames .postfixExpr .primaryExpr
  | literal : Renames .primaryExpr .literal
  | path : Renames .primaryExpr .path
  | invocation : Renames .primaryExpr .invocation

/-- The productions of binary operators: `Infixes n l s r op` says that `n` can be `l`, the sign `s` and `r`, which
denotes the operation `op`. -/
inductive Infixes : Nonterminal → Nonterminal → Symbol → Nonterminal → BinaryOp → Prop where
  | or : Infixes .orExpr .orExpr (.token .orOr) .andExpr .or
  | and : Infixes .andExpr .andExpr (.token .andAnd) .cmpExpr .and
  | eq : Infixes .cmpExpr .bitOrExpr (.token .eqEq) .bitOrExpr .eq
  | ne : Infixes .cmpExpr .bitOrExpr (.token .notEq) .bitOrExpr .ne
  | lt : Infixes .cmpExpr .bitOrExpr (.token .langle) .bitOrExpr .lt
  | gt : Infixes .cmpExpr .bitOrExpr (.token .rangle) .bitOrExpr .gt
  | le : Infixes .cmpExpr .bitOrExpr (.token .lessEq) .bitOrExpr .le
  | ge : Infixes .cmpExpr .bitOrExpr (.token .greaterEq) .bitOrExpr .ge
  | bitOr : Infixes .bitOrExpr .bitOrExpr (.token .pipe) .bitXorExpr .bitOr
  | bitXor : Infixes .bitXorExpr .bitXorExpr (.token .caret) .bitAndExpr .bitXor
  | bitAnd : Infixes .bitAndExpr .bitAndExpr (.token .amp) .shiftExpr .bitAnd
  | shl : Infixes .shiftExpr .shiftExpr (.token .shiftLeft) .sumExpr .shl
  | shr : Infixes .shiftExpr .shiftExpr .shiftRight .sumExpr .shr
  | add : Infixes .sumExpr .sumExpr (.token .plus) .productExpr .add
  | sub : Infixes .sumExpr .sumExpr (.token .minus) .productExpr .sub
  | mul : Infixes .productExpr .productExpr (.token .star) .castExpr .mul
  | div : Infixes .productExpr .productExpr (.token .slash) .castExpr .div
  | rem : Infixes .productExpr .productExpr (.token .percent) .castExpr .rem

/-- The signs of unary operators. -/
inductive Signs : Symbol → UnaryOp → Prop where
  | neg : Signs (.token .minus) .neg
  | not : Signs (.token .bang) .not
  | deref : Signs (.token .star) .deref
  | ref : Signs (.token .amp) .ref

/-- The terminals that literals are. -/
inductive SpellsLiteral : Symbol → Prop where
  | int : SpellsLiteral (.token .int)
  | float : SpellsLiteral (.token .float)
  | str : SpellsLiteral (.token .str)
  | byteStr : SpellsLiteral (.token .byteStr)
  | char : SpellsLiteral (.token .char)
  | byte : SpellsLiteral (.token .byte)
  | boolean : SpellsLiteral .boolean

/-! ## Derivations -/

/-- A terminal whose symbol is given. -/
structure Leaf (s : Symbol) where
  text : String
  position : Position

def Leaf.terminal {s : Symbol} (leaf : Leaf s) : Terminal :=
  ⟨s, leaf.text, leaf.position⟩

/-- A leaf for a token of a kind. -/
abbrev Mark (kind : TokenKind) := Leaf (.token kind)

/-- A name: `IDENT (:: IDENT)*`. -/
structure NameDerivation where
  head : Mark .ident
  later : List (Mark .pathSep × Mark .ident)

/-- A parameter of a closure: `IDENT [: name]`. -/
structure ParamDerivation where
  name : Mark .ident
  type : Option (Mark .colon × NameDerivation)

/-- The parameters of a closure: `param (, param)* [,]`. -/
structure ParamsDerivation where
  first : ParamDerivation
  later : List (Mark .comma × ParamDerivation)
  trailing : Option (Mark .comma)

mutual

/-- The derivations of expressions from a nonterminal. -/
inductive Derivation : Nonterminal → Type where
  /-- A production that renames its nonterminal. -/
  | rename {n m : Nonterminal} (rule : Renames n m) (d : Derivation m) : Derivation n
  /-- `| [params] | expr` -/
  | closure (opening : Mark .pipe) (params : Option ParamsDerivation) (closing : Mark .pipe)
      (body : Derivation .expr) : Derivation .closure
  /-- `|| expr` -/
  | emptyClosure (bars : Mark .orOr) (body : Derivation .expr) : Derivation .closure
  /-- The productions of binary operators. -/
  | binary {n l r : Nonterminal} {s : Symbol} (op : BinaryOp) (rule : Infixes n l s r op)
      (left : Derivation l) (sign : Leaf s) (right : Derivation r) : Derivation n
  /-- `castExpr as name` -/
  | cast (operand : Derivation .castExpr) (asWord : Leaf .asWord) (target : NameDerivation) :
      Derivation .castExpr
  /-- The productions of unary operators. -/
  | unary {s : Symbol} (op : UnaryOp) (rule : Signs s op) (sign : Leaf s)
      (operand : Derivation .unaryExpr) : Derivation .unaryExpr
  /-- `postfixExpr . IDENT` -/
  | field (object : Derivation .postfixExpr) (dot : Mark .dot) (name : Mark .ident) :
      Derivation .postfixExpr
  /-- `postfixExpr . INT` -/
  | tupleField (object : Derivation .postfixExpr) (dot : Mark .dot) (index : Mark .int) :
      Derivation .postfixExpr
  /-- `postfixExpr ( [args] )` -/
  | call (callee : Derivation .postfixExpr) (opening : Mark .lparen) (args : OptionalArgs)
      (closing : Mark .rparen) : Derivation .postfixExpr
  /-- `postfixExpr [ expr ]` -/
  | index (object : Derivation .postfixExpr) (opening : Mark .lbracket)
      (position : Derivation .expr) (closing : Mark .rbracket) : Derivation .postfixExpr
  /-- `postfixExpr ?` -/
  | propagate (operand : Derivation .postfixExpr) (question : Mark .question) :
      Derivation .postfixExpr
  /-- `( expr )` -/
  | paren (opening : Mark .lparen) (inner : Derivation .expr) (closing : Mark .rparen) :
      Derivation .primaryExpr
  /-- `( )` -/
  | unit (opening : Mark .lparen) (closing : Mark .rparen) : Derivation .primaryExpr
  /-- `( expr , [args] )` -/
  | tuple (opening : Mark .lparen) (first : Derivation .expr) (comma : Mark .comma)
      (later : OptionalArgs) (closing : Mark .rparen) : Derivation .primaryExpr
  /-- `[ [args] ]` -/
  | array (opening : Mark .lbracket) (elements : OptionalArgs) (closing : Mark .rbracket) :
      Derivation .primaryExpr
  /-- `[ expr ; expr ]` -/
  | fill (opening : Mark .lbracket) (value : Derivation .expr) (semi : Mark .semi)
      (count : Derivation .expr) (closing : Mark .rbracket) : Derivation .primaryExpr
  /-- `name ! ( [args] )` -/
  | invokeParen (name : NameDerivation) (bang : Mark .bang) (opening : Mark .lparen)
      (args : OptionalArgs) (closing : Mark .rparen) : Derivation .invocation
  /-- `name ! [ [args] ]` -/
  | invokeBracket (name : NameDerivation) (bang : Mark .bang) (opening : Mark .lbracket)
      (args : OptionalArgs) (closing : Mark .rbracket) : Derivation .invocation
  /-- A name. -/
  | path (name : NameDerivation) : Derivation .path
  /-- The productions of literals. -/
  | literal {s : Symbol} (rule : SpellsLiteral s) (leaf : Leaf s) : Derivation .literal

/-- `[args]` -/
inductive OptionalArgs where
  | absent
  | present (args : Args)

/-- `expr (, expr)* [,]` -/
inductive Args where
  | args (first : Derivation .expr) (later : LaterArgs)

/-- `(, expr)* [,]` -/
inductive LaterArgs where
  | done
  | trailing (comma : Mark .comma)
  | next (comma : Mark .comma) (e : Derivation .expr) (later : LaterArgs)

end

/-! ## Terminals -/

namespace NameDerivation

def terminals (n : NameDerivation) : List Terminal :=
  n.head.terminal :: n.later.flatMap fun step => [step.1.terminal, step.2.terminal]

def name (n : NameDerivation) : NamePath :=
  ⟨n.head.text, n.later.map fun step => step.2.text, n.head.position⟩

end NameDerivation

namespace ParamDerivation

def terminals (p : ParamDerivation) : List Terminal :=
  p.name.terminal :: p.type.elim [] fun type => type.1.terminal :: type.2.terminals

def param (p : ParamDerivation) : ClosureParam :=
  ⟨p.name.text, p.type.map fun type => type.2.name⟩

end ParamDerivation

namespace ParamsDerivation

def terminals (p : ParamsDerivation) : List Terminal :=
  p.first.terminals ++ (p.later.flatMap fun step => step.1.terminal :: step.2.terminals) ++
    p.trailing.elim [] fun comma => [comma.terminal]

def params (p : ParamsDerivation) : List ClosureParam :=
  p.first.param :: p.later.map fun step => step.2.param

end ParamsDerivation

mutual

/-- The terminals that a derivation ends in. -/
def Derivation.terminals {n : Nonterminal} : Derivation n → List Terminal
  | .rename _ d => d.terminals
  | .closure opening params closing body =>
      opening.terminal :: params.elim [] ParamsDerivation.terminals ++
        closing.terminal :: body.terminals
  | .emptyClosure bars body => bars.terminal :: body.terminals
  | .binary _ _ left sign right => left.terminals ++ sign.terminal :: right.terminals
  | .cast operand asWord target => operand.terminals ++ asWord.terminal :: target.terminals
  | .unary _ _ sign operand => sign.terminal :: operand.terminals
  | .field object dot name => object.terminals ++ [dot.terminal, name.terminal]
  | .tupleField object dot index => object.terminals ++ [dot.terminal, index.terminal]
  | .call callee opening args closing =>
      callee.terminals ++ opening.terminal :: args.terminals ++ [closing.terminal]
  | .index object opening position closing =>
      object.terminals ++ opening.terminal :: position.terminals ++ [closing.terminal]
  | .propagate operand question => operand.terminals ++ [question.terminal]
  | .paren opening inner closing => opening.terminal :: inner.terminals ++ [closing.terminal]
  | .unit opening closing => [opening.terminal, closing.terminal]
  | .tuple opening first comma later closing =>
      opening.terminal :: first.terminals ++ comma.terminal :: later.terminals ++
        [closing.terminal]
  | .array opening elements closing =>
      opening.terminal :: elements.terminals ++ [closing.terminal]
  | .fill opening value semi count closing =>
      opening.terminal :: value.terminals ++ semi.terminal :: count.terminals ++
        [closing.terminal]
  | .invokeParen name bang opening args closing =>
      name.terminals ++ bang.terminal :: opening.terminal :: args.terminals ++
        [closing.terminal]
  | .invokeBracket name bang opening args closing =>
      name.terminals ++ bang.terminal :: opening.terminal :: args.terminals ++
        [closing.terminal]
  | .path name => name.terminals
  | .literal _ leaf => [leaf.terminal]

/-- The terminals of arguments that can be absent. -/
def OptionalArgs.terminals : OptionalArgs → List Terminal
  | .absent => []
  | .present args => args.terminals

def Args.terminals : Args → List Terminal
  | .args first later => first.terminals ++ later.terminals

/-- The terminals behind the first argument. -/
def LaterArgs.terminals : LaterArgs → List Terminal
  | .done => []
  | .trailing comma => [comma.terminal]
  | .next comma e later => comma.terminal :: e.terminals ++ later.terminals

end

/-! ## Expressions -/

mutual

/-- The expression that a derivation denotes, or the failure of its first literal that has no value. -/
def Derivation.value {n : Nonterminal} : Derivation n → Except Failure (Expr Literal)
  | .rename _ d => d.value
  | .closure _ params _ body => do
      pure (.closure (params.elim [] ParamsDerivation.params) (← body.value))
  | .emptyClosure _ body => do pure (.closure [] (← body.value))
  | .binary op _ left _ right => do pure (.binary op (← left.value) (← right.value))
  | .cast operand _ target => do pure (.cast (← operand.value) target.name)
  | .unary op _ _ operand => do pure (.unary op (← operand.value))
  | .field object _ name => do pure (.field (← object.value) name.text)
  | .tupleField object _ index => do pure (.field (← object.value) index.text)
  | .call callee _ args _ => do pure ((← callee.value).applied (← args.values))
  | .index object _ position _ => do pure (.index (← object.value) (← position.value))
  | .propagate operand _ => do pure (.propagate (← operand.value))
  | .paren _ inner _ => inner.value
  | .unit _ _ => pure (.tuple [])
  | .tuple _ first _ later _ => do pure (.tuple ((← first.value) :: (← later.values)))
  | .array _ elements _ => do pure (.array (← elements.values))
  | .fill _ value _ count _ => do pure (.fill (← value.value) (← count.value))
  | .invokeParen name _ _ args _ => do pure (.invocation name.name (← args.values))
  | .invokeBracket name _ _ args _ => do pure (.invocation name.name (← args.values))
  | .path name => pure (.path name.name)
  | .literal _ leaf => do
      pure (.literal (← leaf.terminal.decode leaf.position) leaf.position)

/-- The expressions that arguments denote, none if they are absent. -/
def OptionalArgs.values : OptionalArgs → Except Failure (List (Expr Literal))
  | .absent => pure []
  | .present args => args.values

/-- The expressions that arguments denote. -/
def Args.values : Args → Except Failure (List (Expr Literal))
  | .args first later => do pure ((← first.value) :: (← later.values))

/-- The expressions that the arguments behind the first one denote. -/
def LaterArgs.values : LaterArgs → Except Failure (List (Expr Literal))
  | .done => pure []
  | .trailing _ => pure []
  | .next _ e later => do pure ((← e.value) :: (← later.values))

end

mutual

/-- The terminals that a derivation reads as literals. -/
def Derivation.literals {n : Nonterminal} : Derivation n → List Terminal
  | .rename _ d => d.literals
  | .closure _ _ _ body => body.literals
  | .emptyClosure _ body => body.literals
  | .binary _ _ left _ right => left.literals ++ right.literals
  | .cast operand _ _ => operand.literals
  | .unary _ _ _ operand => operand.literals
  | .field object _ _ => object.literals
  | .tupleField object _ _ => object.literals
  | .call callee _ args _ => callee.literals ++ args.literals
  | .index object _ position _ => object.literals ++ position.literals
  | .propagate operand _ => operand.literals
  | .paren _ inner _ => inner.literals
  | .unit _ _ => []
  | .tuple _ first _ later _ => first.literals ++ later.literals
  | .array _ elements _ => elements.literals
  | .fill _ value _ count _ => value.literals ++ count.literals
  | .invokeParen _ _ _ args _ => args.literals
  | .invokeBracket _ _ _ args _ => args.literals
  | .path _ => []
  | .literal _ leaf => [leaf.terminal]

/-- The literals of arguments that can be absent. -/
def OptionalArgs.literals : OptionalArgs → List Terminal
  | .absent => []
  | .present args => args.literals

def Args.literals : Args → List Terminal
  | .args first later => first.literals ++ later.literals

/-- The literals of the arguments behind the first one. -/
def LaterArgs.literals : LaterArgs → List Terminal
  | .done => []
  | .trailing _ => []
  | .next _ e later => e.literals ++ later.literals

end

end AttrGrammar
