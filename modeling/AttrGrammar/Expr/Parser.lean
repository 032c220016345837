import AttrGrammar.Expr.Phrase

/-!
Contract: the parser of expressions, a machine that takes one terminal at a time.

Owns:
- the frames, which are the constructs that wait for an operand, the innermost first;
- the phases, which say what was read behind the innermost frame;
- the step for one terminal, and the phrase at the end;
- what the parser expected where it got stuck.

The grammar, from the loosest construct to the tightest: closures; the binary operators by level, to the left,
comparisons standing alone; casts to plain names; unary operators; calls, fields, indices and `?`; and literals,
names, invocations `name!(…)`, tuples, arrays and repetitions. A closure is an expression but never an operand.

When a terminal arrives that binds less than a frame does, the frame takes its operand. Each step looks at one
terminal only, so the parser gets stuck at the first terminal with which no expression begins. Frames and phases
keep all terminals that they were made of.

Does not own: the values of literals, and which trees belong to an expression.
-/

namespace AttrGrammar

namespace ExprParser

/-! ## States -/

/-- What items in brackets are for: a group or tuple, the arguments of a call, the arguments of an invocation in
one of two kinds of brackets, or an array. -/
inductive ItemsUse where
  | group
  | call (callee : Phrase)
  | invocation (name : NamePhrase) (bang : Terminal) (delimiter : Delimiter)
  | array

namespace ItemsUse

/-- The bracket that closes the items. -/
def closer : ItemsUse → TokenKind
  | group => .rparen
  | call _ => .rparen
  | invocation _ _ delimiter => delimiter.closeKind
  | array => .rbracket

/-- The phrase that items in brackets make up. A group makes a tuple here: one item without a comma is not made
up of items. -/
def build (opening : Terminal) (items : Items) (closing : Terminal) : ItemsUse → Phrase
  | group => .tuple opening items closing
  | call callee => .call callee opening items closing
  | invocation name bang _ => .invocation name bang opening items closing
  | array => .array opening items closing

end ItemsUse

/-- A construct that waits for an operand. -/
inductive Frame where
  /-- A binary operator behind its left operand. -/
  | binary (left : Phrase) (op : BinaryOp) (sign : Terminal)
  /-- A unary operator. -/
  | unary (op : UnaryOp) (sign : Terminal)
  /-- The parameters of a closure. -/
  | closure (head : ClosureHead)
  /-- An open bracket with items, each with a comma behind it. -/
  | items (use : ItemsUse) (opening : Terminal) (before : List (Phrase × Terminal))
  /-- An index bracket behind an object. -/
  | index (object : Phrase) (opening : Terminal)
  /-- An array bracket with a value and a semicolon. -/
  | fill (opening : Terminal) (value : Phrase) (semi : Terminal)

/-- Where a type name belongs. -/
inductive TypeUse where
  | cast (operand : Phrase) (asWord : Terminal)
  | param (before : OpenParams) (name colon : Terminal)

/-- What was read behind the innermost frame. -/
inductive Phase where
  /-- Nothing: an operand has to start. -/
  | start
  /-- An operand that calls, fields, indices and `?` can follow. -/
  | operand (e : Phrase)
  /-- A name, which can go on or be invoked. -/
  | path (name : NamePhrase)
  /-- A name and `::`. -/
  | pathSep (name : NamePhrase) (separator : Terminal)
  /-- A name and `!`. -/
  | bang (name : NamePhrase) (sign : Terminal)
  /-- An operand and a point. -/
  | dot (object : Phrase) (sign : Terminal)
  /-- A type name has to start. -/
  | typeStart (use : TypeUse)
  /-- A type name, which can go on. -/
  | typePath (use : TypeUse) (name : NamePhrase)
  /-- A type name and `::`. -/
  | typeSep (use : TypeUse) (name : NamePhrase) (separator : Terminal)
  /-- The bar of a closure, and parameters with commas. -/
  | params (before : OpenParams)
  /-- A parameter without a type so far. -/
  | paramName (before : OpenParams) (name : Terminal)

structure State where
  phase : Phase
  frames : List Frame

def State.initial : State :=
  ⟨.start, []⟩

/-! ## What is expected -/

/-- What can be expected at a place: a symbol, or the end. -/
inductive Expectation where
  | symbol (s : Symbol)
  | finish
deriving DecidableEq, Repr

/-- What messages call it. -/
def Expectation.description : Expectation → String
  | symbol s => s.description
  | finish => "$END"

def wanted (kind : TokenKind) : Expectation :=
  .symbol (.token kind)

/-- Where the parser got stuck: at a terminal or at the end, with what it expected there. Nothing is listed where
an operand could start or go on, as too much could stand there. -/
structure Stuck where
  terminal : Option Terminal
  expected : List Expectation

/-- What can follow a complete expression inside a frame. -/
def expectedBehind : List Frame → List Expectation
  | [] => [.finish]
  | .items .group _ [] :: _ => [wanted .rparen, wanted .comma]
  | .items .array _ [] :: _ => [wanted .comma, wanted .semi, wanted .rbracket]
  | .items .. :: _ => [wanted .rparen, wanted .comma, wanted .rbracket]
  | .index .. :: _ => [wanted .rbracket]
  | .fill .. :: _ => [wanted .rbracket]
  | _ :: _ => []

/-- Whether a symbol can only follow a complete expression: a closing bracket, a comma or a semicolon. -/
def endsExpr : Symbol → Bool
  | .token .rparen | .token .rbracket | .token .comma | .token .semi => true
  | _ => false

/-- Whether a symbol can follow a cast in some expression. -/
def followsCast (s : Symbol) : Bool :=
  s = .asWord || s.binaryOp?.isSome || endsExpr s

/-! ## Taking operands -/

/-- Lets the operators at the front that bind at least as strongly as a level take their operand. -/
def settle (level : Nat) (e : Phrase) : List Frame → Phrase × List Frame
  | .unary op sign :: outer => settle level (.unary op sign e) outer
  | .binary left op sign :: outer =>
      if level ≤ op.level then settle level (.binary left op sign e) outer
      else (e, .binary left op sign :: outer)
  | frames => (e, frames)

/-- Lets all operators and closures at the front take their operand, so that what is left is a bracket or
nothing. -/
def complete (e : Phrase) : List Frame → Phrase × List Frame
  | .unary op sign :: outer => complete (.unary op sign e) outer
  | .binary left op sign :: outer => complete (.binary left op sign e) outer
  | .closure head :: outer => complete (.closure head e) outer
  | frames => (e, frames)

/-! ## Steps -/

/-- The result of a step: the next state, or what was expected. -/
abbrev StepResult := Except (List Expectation) State

def goOn (phase : Phase) (frames : List Frame) : StepResult :=
  .ok ⟨phase, frames⟩

def stuck (expected : List Expectation) : StepResult :=
  .error expected

/-- Whether a closure may start here: an operator does not take one. -/
def takesClosure : List Frame → Bool
  | .binary .. :: _ => false
  | .unary .. :: _ => false
  | _ => true

/-- The step when an operand has to start. A bracket may also close here, behind its opening or a comma. -/
def stepStart (frames : List Frame) (t : Terminal) : StepResult :=
  if t.symbol.isLiteral then goOn (.operand (.literal t)) frames
  else match t.symbol.unaryOp? with
    | some op => goOn .start (.unary op t :: frames)
    | none =>
        match t.symbol with
        | .token .ident => goOn (.path ⟨t, []⟩) frames
        | .token .lparen => goOn .start (.items .group t [] :: frames)
        | .token .lbracket => goOn .start (.items .array t [] :: frames)
        | .token .pipe => if takesClosure frames then goOn (.params ⟨t, []⟩) frames else stuck []
        | .token .orOr =>
            if takesClosure frames then goOn .start (.closure (.orOr t) :: frames) else stuck []
        | .token kind =>
            match frames with
            | .items use opening before :: outer =>
                if kind = use.closer then
                  goOn (.operand (use.build opening (.behind before .nil) t)) outer
                else stuck []
            | _ => stuck []
        | _ => stuck []

def stepComma (e : Phrase) (frames : List Frame) (t : Terminal) : StepResult :=
  match frames with
  | .items use opening before :: outer =>
      goOn .start (.items use opening (before ++ [(e, t)]) :: outer)
  | _ => stuck (expectedBehind frames)

def stepSemi (e : Phrase) (frames : List Frame) (t : Terminal) : StepResult :=
  match frames with
  | .items .array opening [] :: outer => goOn .start (.fill opening e t :: outer)
  | _ => stuck (expectedBehind frames)

def stepClose (e : Phrase) (kind : TokenKind) (frames : List Frame) (t : Terminal) : StepResult :=
  match frames with
  | .items .group opening [] :: outer =>
      if kind = .rparen then goOn (.operand (.paren opening e t)) outer
      else stuck (expectedBehind frames)
  | .items use opening before :: outer =>
      if kind = use.closer then
        goOn (.operand (use.build opening (.behind before (.last e)) t)) outer
      else stuck (expectedBehind frames)
  | .index object opening :: outer =>
      if kind = .rbracket then goOn (.operand (.index object opening e t)) outer
      else stuck (expectedBehind frames)
  | .fill opening value semi :: outer =>
      if kind = .rbracket then goOn (.operand (.fill opening value semi e t)) outer
      else stuck (expectedBehind frames)
  | _ => stuck (expectedBehind frames)

/-- The step when a binary operator follows an operand. Operators of one level group to the left, except that a
comparison does not take another one as its operand. -/
def stepBinary (e : Phrase) (op : BinaryOp) (frames : List Frame) (t : Terminal) : StepResult :=
  let (left, outer) := settle (if op.isComparison then op.level + 1 else op.level) e frames
  let pending := goOn .start (.binary left op t :: outer)
  match outer with
  | .binary _ other _ :: _ => if op.isComparison && other.isComparison then stuck [] else pending
  | _ => pending

/-- The step behind an operand that nothing tighter than `as` can follow. -/
def stepBehind (e : Phrase) (frames : List Frame) (t : Terminal) : StepResult :=
  match t.symbol with
  | .asWord =>
      let (operand, outer) := settle castLevel e frames
      goOn (.typeStart (.cast operand t)) outer
  | .token .comma =>
      let (whole, outer) := complete e frames
      stepComma whole outer t
  | .token .semi =>
      let (whole, outer) := complete e frames
      stepSemi whole outer t
  | .token .rparen =>
      let (whole, outer) := complete e frames
      stepClose whole .rparen outer t
  | .token .rbracket =>
      let (whole, outer) := complete e frames
      stepClose whole .rbracket outer t
  | symbol =>
      match symbol.binaryOp? with
      | some op => stepBinary e op frames t
      | none => stuck []

def stepOperand (e : Phrase) (frames : List Frame) (t : Terminal) : StepResult :=
  match t.symbol with
  | .token .dot => goOn (.dot e t) frames
  | .token .lparen => goOn .start (.items (.call e) t [] :: frames)
  | .token .lbracket => goOn .start (.index e t :: frames)
  | .token .question => goOn (.operand (.propagate e t)) frames
  | _ => stepBehind e frames t

def stepTypePath (use : TypeUse) (name : NamePhrase) (frames : List Frame) (t : Terminal) :
    StepResult :=
  match t.symbol, use with
  | .token .pathSep, _ => goOn (.typeSep use name t) frames
  | _, .cast operand asWord => stepBehind (.cast operand asWord name) frames t
  | .token .comma, .param before param colon =>
      goOn (.params (before.push ⟨param, some (colon, name)⟩ t)) frames
  | .token .pipe, .param before param colon =>
      goOn .start (.closure (.bars before (some ⟨param, some (colon, name)⟩) t) :: frames)
  | symbol, .param .. =>
      stuck (if followsCast symbol then [wanted .comma, wanted .pipe] else [])

def step (state : State) (t : Terminal) : StepResult :=
  let frames := state.frames
  match state.phase, t.symbol with
  | .start, _ => stepStart frames t
  | .operand e, _ => stepOperand e frames t
  | .path name, .token .pathSep => goOn (.pathSep name t) frames
  | .path name, .token .bang => goOn (.bang name t) frames
  | .path name, _ => stepOperand (.path name) frames t
  | .pathSep name separator, .token .ident => goOn (.path (name.push separator t)) frames
  | .pathSep .., _ => stuck [wanted .ident]
  | .bang name sign, .token .lparen =>
      goOn .start (.items (.invocation name sign .paren) t [] :: frames)
  | .bang name sign, .token .lbracket =>
      goOn .start (.items (.invocation name sign .bracket) t [] :: frames)
  | .bang .., _ => stuck [wanted .lparen, wanted .lbracket]
  | .dot object sign, .token .ident => goOn (.operand (.field object sign t)) frames
  | .dot object sign, .token .int => goOn (.operand (.field object sign t)) frames
  | .dot .., _ => stuck [wanted .ident, wanted .int]
  | .typeStart use, .token .ident => goOn (.typePath use ⟨t, []⟩) frames
  | .typeStart _, _ => stuck [wanted .ident]
  | .typePath use name, _ => stepTypePath use name frames t
  | .typeSep use name separator, .token .ident =>
      goOn (.typePath use (name.push separator t)) frames
  | .typeSep .., _ => stuck [wanted .ident]
  | .params before, .token .ident => goOn (.paramName before t) frames
  | .params before, .token .pipe => goOn .start (.closure (.bars before none t) :: frames)
  | .params _, _ => stuck [wanted .ident, wanted .pipe]
  | .paramName before name, .token .colon => goOn (.typeStart (.param before name t)) frames
  | .paramName before name, .token .comma => goOn (.params (before.push ⟨name, none⟩ t)) frames
  | .paramName before name, .token .pipe =>
      goOn .start (.closure (.bars before (some ⟨name, none⟩) t) :: frames)
  | .paramName .., _ => stuck [wanted .comma, wanted .colon, wanted .pipe]

/-! ## The end -/

/-- The result when the terminals end behind an operand. -/
def finishOperand (e : Phrase) (frames : List Frame) : Except (List Expectation) Phrase :=
  match complete e frames with
  | (whole, []) => .ok whole
  | (_, outer) => .error (expectedBehind outer)

/-- The result when the terminals end. -/
def finish (state : State) : Except (List Expectation) Phrase :=
  match state.phase with
  | .start => .error []
  | .operand e => finishOperand e state.frames
  | .path name => finishOperand (.path name) state.frames
  | .pathSep .. => .error [wanted .ident]
  | .bang .. => .error [wanted .lparen, wanted .lbracket]
  | .dot .. => .error [wanted .ident, wanted .int]
  | .typeStart _ => .error [wanted .ident]
  | .typePath (.cast operand asWord) name =>
      finishOperand (.cast operand asWord name) state.frames
  | .typePath (.param ..) _ => .error [wanted .comma, wanted .pipe]
  | .typeSep .. => .error [wanted .ident]
  | .params _ => .error [wanted .ident, wanted .pipe]
  | .paramName .. => .error [wanted .comma, wanted .colon, wanted .pipe]

/-- The result of the terminals that follow a state. -/
def run (state : State) : List Terminal → Except Stuck Phrase
  | [] => (finish state).mapError (⟨none, ·⟩)
  | t :: later =>
      match step state t with
      | .ok next => run next later
      | .error expected => .error ⟨some t, expected⟩

end ExprParser

def parseTerminals (terminals : List Terminal) : Except ExprParser.Stuck Phrase :=
  ExprParser.run .initial terminals

end AttrGrammar
