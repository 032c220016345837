import AttrGrammar.Proofs.Attributes.Places
import AttrGrammar.Proofs.Expression.Calls
import AttrGrammar.Proofs.Printing.Emission
import AttrGrammar.Proofs.Reading.Taken

/-!
Contract: where the parts of an expression stand.

Owns:
- the parts of an expression and those of a derivation, in one order, and which part denotes which;
- the terminal whose place a part has: the first name or literal of its leading part;
- each part of an expression stands at a terminal that it was made of, or nowhere if there is no such terminal.

A call of a field is one part, a method call, while the derivation has a field access and a call of it. Arrays and the
empty tuple are brackets only, whose places are kept nowhere, so that what they lead has no place either.
-/

namespace AttrGrammar

/-! ## Parts of expressions -/

namespace Expr

/-- What stands at a place in an expression: an expression, or the name of a type or of what is invoked. -/
inductive Part where
  | expr (e : Expr Literal)
  | name (n : NamePath)

def Part.position : Part → Position
  | expr e => e.position
  | name n => n.position

/-- The names of the types of parameters. -/
def typeNames (params : List ClosureParam) : List NamePath :=
  params.filterMap ClosureParam.type

/-- Whether calling an expression is a method call. -/
def isMethod : Expr Literal → Bool
  | field _ name => !isTupleField name
  | _ => false

mutual

/-- The parts of an expression: itself, and then the parts of these in their order. -/
def parts : Expr Literal → List Part
  | literal l p => [.expr (literal l p)]
  | path n => [.expr (path n)]
  | binary op a b => .expr (binary op a b) :: (parts a ++ parts b)
  | unary op a => .expr (unary op a) :: parts a
  | call f as => .expr (call f as) :: (parts f ++ partsAll as)
  | methodCall a m as => .expr (methodCall a m as) :: (parts a ++ partsAll as)
  | field a m => .expr (field a m) :: parts a
  | index a i => .expr (index a i) :: (parts a ++ parts i)
  | propagate a => .expr (propagate a) :: parts a
  | cast a n => .expr (cast a n) :: (parts a ++ [.name n])
  | tuple as => .expr (tuple as) :: partsAll as
  | array as => .expr (array as) :: partsAll as
  | fill a n => .expr (fill a n) :: (parts a ++ parts n)
  | closure ps a => .expr (closure ps a) :: ((typeNames ps).map .name ++ parts a)
  | invocation n as => .expr (invocation n as) :: .name n :: partsAll as

def partsAll : List (Expr Literal) → List Part
  | [] => []
  | a :: as => parts a ++ partsAll as

end

/-- What is called as a method loses the access to its field. -/
theorem parts_applied (f : Expr Literal) (as : List (Expr Literal)) :
    (f.applied as).parts =
      .expr (f.applied as) :: ((if f.isMethod then f.parts.tail else f.parts) ++ partsAll as) := by
  cases f with
  | field object name =>
      by_cases inTuple : isTupleField name <;> simp [applied, isMethod, inTuple, parts]
  | _ => simp [applied, isMethod, parts]

theorem position_applied (f : Expr Literal) (as : List (Expr Literal)) :
    (f.applied as).position = f.position := by
  cases f with
  | field object name => by_cases inTuple : isTupleField name <;> simp [applied, inTuple, position]
  | _ => simp [applied, position]

end Expr

/-! ## Parts of derivations -/

/-- What is written at a place in an expression. -/
inductive WrittenPart where
  | expr {n : Nonterminal} (d : Derivation n)
  | name (n : NameDerivation)

/-- The names of the types of parameters, as they are written. -/
def ParamsDerivation.typeNames (p : ParamsDerivation) : List NameDerivation :=
  (p.first :: p.later.map Prod.snd).filterMap fun param => param.type.map Prod.snd

/-- Whether a call of what a derivation denotes is a method call. -/
def Derivation.isMethod {n : Nonterminal} (d : Derivation n) : Bool :=
  d.field?.any fun field => !Expr.isTupleField field.2

mutual

/-- The parts that a derivation is written with, without parentheses around them: itself, and then the parts of these in
their order. What is called as a method is no part. -/
def Derivation.parts {n : Nonterminal} : Derivation n → List WrittenPart
  | .rename _ d => d.parts
  | .closure opening params closing body =>
      .expr (.closure opening params closing body) ::
        ((params.elim [] ParamsDerivation.typeNames).map .name ++ body.parts)
  | .emptyClosure bars body => .expr (.emptyClosure bars body) :: body.parts
  | .binary op rule left sign right => .expr (.binary op rule left sign right) :: (left.parts ++ right.parts)
  | .cast operand asWord target => .expr (.cast operand asWord target) :: (operand.parts ++ [.name target])
  | .unary op rule sign operand => .expr (.unary op rule sign operand) :: operand.parts
  | .field object dot name => .expr (.field object dot name) :: object.parts
  | .tupleField object dot place => .expr (.tupleField object dot place) :: object.parts
  | .call callee opening args closing =>
      .expr (.call callee opening args closing) ::
        ((if callee.isMethod then callee.parts.tail else callee.parts) ++ args.parts)
  | .index object opening position closing =>
      .expr (.index object opening position closing) :: (object.parts ++ position.parts)
  | .propagate operand question => .expr (.propagate operand question) :: operand.parts
  | .paren _ inner _ => inner.parts
  | .unit opening closing => [.expr (.unit opening closing)]
  | .tuple opening first comma later closing =>
      .expr (.tuple opening first comma later closing) :: (first.parts ++ later.parts)
  | .array opening elements closing => .expr (.array opening elements closing) :: elements.parts
  | .fill opening value semi count closing =>
      .expr (.fill opening value semi count closing) :: (value.parts ++ count.parts)
  | .invokeParen name bang opening args closing =>
      .expr (.invokeParen name bang opening args closing) :: .name name :: args.parts
  | .invokeBracket name bang opening args closing =>
      .expr (.invokeBracket name bang opening args closing) :: .name name :: args.parts
  | .path name => [.expr (.path name)]
  | .literal rule leaf => [.expr (.literal rule leaf)]

/-- The parts of arguments that can be absent. -/
def OptionalArgs.parts : OptionalArgs → List WrittenPart
  | .absent => []
  | .present args => args.parts

def Args.parts : Args → List WrittenPart
  | .args first later => first.parts ++ later.parts

/-- The parts of the arguments behind the first one. -/
def LaterArgs.parts : LaterArgs → List WrittenPart
  | .done => []
  | .trailing _ => []
  | .next _ e later => e.parts ++ later.parts

end

/-- The terminal that a derivation stands at: the first name or literal of its leading part, if there is one. -/
def Derivation.lead? {n : Nonterminal} : Derivation n → Option Terminal
  | .rename _ d => d.lead?
  | .closure _ _ _ body => body.lead?
  | .emptyClosure _ body => body.lead?
  | .binary _ _ left _ _ => left.lead?
  | .cast operand _ _ => operand.lead?
  | .unary _ _ _ operand => operand.lead?
  | .field object _ _ => object.lead?
  | .tupleField object _ _ => object.lead?
  | .call callee _ _ _ => callee.lead?
  | .index object _ _ _ => object.lead?
  | .propagate operand _ => operand.lead?
  | .paren _ inner _ => inner.lead?
  | .unit _ _ => none
  | .tuple _ first _ _ _ => first.lead?
  | .array _ _ _ => none
  | .fill _ value _ _ _ => value.lead?
  | .invokeParen name _ _ _ _ => some name.head.terminal
  | .invokeBracket name _ _ _ _ => some name.head.terminal
  | .path name => some name.head.terminal
  | .literal _ leaf => some leaf.terminal

namespace WrittenPart

def terminals : WrittenPart → List Terminal
  | expr d => d.terminals
  | name n => n.terminals

def lead? : WrittenPart → Option Terminal
  | expr d => d.lead?
  | name n => some n.head.terminal

/-- Whether a part is what a written part denotes. -/
inductive Denotes : WrittenPart → Expr.Part → Prop where
  | expr {n : Nonterminal} {d : Derivation n} {e : Expr Literal} (value : d.value = .ok e) :
      Denotes (.expr d) (.expr e)
  | name (n : NameDerivation) : Denotes (.name n) (.name n.name)

end WrittenPart

/-! ## Parts in order -/

/-- Whether parts of an expression are those that are written, in order. -/
abbrev AreParts (written : List WrittenPart) (parts : List Expr.Part) : Prop :=
  List.Forall₂ WrittenPart.Denotes written parts

theorem AreParts.append {written written' : List WrittenPart} {parts parts' : List Expr.Part}
    (first : AreParts written parts) (second : AreParts written' parts') :
    AreParts (written ++ written') (parts ++ parts') :=
  List.rel_append first second

theorem AreParts.tail {written : List WrittenPart} {parts : List Expr.Part} (all : AreParts written parts) :
    AreParts written.tail parts.tail := by
  cases all with
  | nil => exact .nil
  | cons _ later => exact later

theorem areParts_names (names : List NameDerivation) :
    AreParts (names.map .name) ((names.map NameDerivation.name).map .name) := by
  induction names with
  | nil => exact .nil
  | cons n names inductionHypothesis => exact .cons (.name n) inductionHypothesis

theorem ParamsDerivation.typeNames_params (p : ParamsDerivation) :
    Expr.typeNames p.params = p.typeNames.map NameDerivation.name := by
  have each (params : List ParamDerivation) :
      Expr.typeNames (params.map ParamDerivation.param) =
        (params.filterMap fun param => param.type.map Prod.snd).map NameDerivation.name := by
    rw [Expr.typeNames, List.filterMap_map, List.map_filterMap]
    refine List.filterMap_congr fun param _ => ?_
    cases h : param.type <;> simp [ParamDerivation.param, h]
  have areParams : p.params = (p.first :: p.later.map Prod.snd).map ParamDerivation.param := by
    simp [params]
  rw [areParams, each, typeNames]

theorem Derivation.isMethod_eq {n : Nonterminal} (d : Derivation n) :
    Returns (fun e => e.isMethod = d.isMethod) d.value := by
  intro e value
  have access := d.isAccess e value
  unfold Derivation.isMethod
  cases found : d.field? with
  | none =>
      rw [found] at access
      cases e with
      | field object name => exact absurd rfl (access object name)
      | _ => rfl
  | some field =>
      obtain ⟨object, name⟩ := field
      rw [found] at access
      obtain ⟨receiver, -, rfl⟩ := access
      rfl

/-- A derivation denotes itself, for what is to hold of its value. -/
theorem returns_of_denotes {n : Nonterminal} {d : Derivation n} {holds : Expr Literal → Prop}
    (inner : Returns (fun e => WrittenPart.Denotes (.expr d) (.expr e) → holds e) d.value) : Returns holds d.value :=
  fun e value => inner e value (.expr value)

mutual

/-- The parts of the expression that a derivation denotes are those that are written. -/
theorem Derivation.areParts {n : Nonterminal} :
    ∀ d : Derivation n, Returns (fun e => AreParts d.parts e.parts) d.value
  | .rename _ d => d.areParts
  | .paren _ inner _ => inner.areParts
  | .closure _ params _ body => by
      refine returns_of_denotes (body.areParts.map fun a inBody itself => .cons itself (AreParts.append ?_ inBody))
      cases params with
      | none => exact .nil
      | some params =>
          show AreParts _ ((Expr.typeNames params.params).map .name)
          rw [params.typeNames_params]
          exact areParts_names params.typeNames
  | .emptyClosure _ body => returns_of_denotes (body.areParts.map fun _ inBody itself => .cons itself inBody)
  | .binary _ _ left _ right =>
      returns_of_denotes (left.areParts.map₂ right.areParts fun _ _ inLeft inRight itself =>
        .cons itself (inLeft.append inRight))
  | .cast operand _ target =>
      returns_of_denotes (operand.areParts.map fun _ inOperand itself =>
        .cons itself (inOperand.append (areParts_names [target])))
  | .unary _ _ _ operand | .propagate operand _ =>
      returns_of_denotes (operand.areParts.map fun _ inOperand itself => .cons itself inOperand)
  | .field object _ _ | .tupleField object _ _ =>
      returns_of_denotes (object.areParts.map fun _ inObject itself => .cons itself inObject)
  | .call callee _ args _ => by
      refine returns_of_denotes ((returns_self callee.value).map₂ args.areParts fun f as isCallee inArgs itself => ?_)
      have inCallee := callee.areParts f isCallee
      rw [Expr.parts_applied, callee.isMethod_eq f isCallee]
      refine .cons itself (AreParts.append ?_ inArgs)
      split
      · exact inCallee.tail
      · exact inCallee
  | .index object _ position _ =>
      returns_of_denotes (object.areParts.map₂ position.areParts fun _ _ inObject inPosition itself =>
        .cons itself (inObject.append inPosition))
  | .unit _ _ | .path _ => returns_of_denotes (returns_pure fun itself => .cons itself .nil)
  | .tuple _ first _ later _ =>
      returns_of_denotes (first.areParts.map₂ later.areParts fun _ _ inFirst inLater itself =>
        .cons itself (inFirst.append inLater))
  | .array _ elements _ =>
      returns_of_denotes (elements.areParts.map fun _ inElements itself => .cons itself inElements)
  | .fill _ value _ count _ =>
      returns_of_denotes (value.areParts.map₂ count.areParts fun _ _ inValue inCount itself =>
        .cons itself (inValue.append inCount))
  | .invokeParen name _ _ args _ | .invokeBracket name _ _ args _ =>
      returns_of_denotes (args.areParts.map fun _ inArgs itself => .cons itself (.cons (.name name) inArgs))
  | .literal _ _ => returns_of_denotes ((returns_self _).map fun _ _ itself => .cons itself .nil)

theorem OptionalArgs.areParts :
    ∀ args : OptionalArgs, Returns (fun es => AreParts args.parts (Expr.partsAll es)) args.values
  | .absent => returns_pure .nil
  | .present args => args.areParts

theorem Args.areParts :
    ∀ args : Args, Returns (fun es => AreParts args.parts (Expr.partsAll es)) args.values
  | .args first later => first.areParts.map₂ later.areParts fun _ _ => AreParts.append

theorem LaterArgs.areParts :
    ∀ later : LaterArgs, Returns (fun es => AreParts later.parts (Expr.partsAll es)) later.values
  | .done | .trailing _ => returns_pure .nil
  | .next _ e later => e.areParts.map₂ later.areParts fun _ _ => AreParts.append

end

/-! ## Places -/

/-- An expression stands at the terminal that leads it, or nowhere. -/
theorem Derivation.position_eq {n : Nonterminal} :
    ∀ d : Derivation n, Returns (fun e => e.position = d.lead?.elim .nowhere Terminal.position) d.value
  | .rename _ d => d.position_eq
  | .paren _ inner _ => inner.position_eq
  | .closure _ _ _ body | .emptyClosure _ body => body.position_eq.map fun _ same => same
  | .binary _ _ left _ right => left.position_eq.map₂ (returns_self right.value) fun _ _ same _ => same
  | .cast operand _ _ | .unary _ _ _ operand | .propagate operand _ => operand.position_eq.map fun _ same => same
  | .field object _ _ | .tupleField object _ _ => object.position_eq.map fun _ same => same
  | .call callee _ args _ =>
      callee.position_eq.map₂ (returns_self args.values) fun f as same _ => (f.position_applied as).trans same
  | .index object _ position _ => object.position_eq.map₂ (returns_self position.value) fun _ _ same _ => same
  | .unit _ _ | .path _ => returns_pure rfl
  | .tuple _ first _ later _ => first.position_eq.map₂ (returns_self later.values) fun _ _ same _ => same
  | .array _ elements _ => (returns_self elements.values).map fun _ _ => rfl
  | .fill _ value _ count _ => value.position_eq.map₂ (returns_self count.value) fun _ _ same _ => same
  | .invokeParen _ _ _ args _ | .invokeBracket _ _ _ args _ => (returns_self args.values).map fun _ _ => rfl
  | .literal _ _ => (returns_self _).map fun _ _ => rfl

theorem WrittenPart.Denotes.position_eq {written : WrittenPart} {part : Expr.Part} (denotes : written.Denotes part) :
    part.position = written.lead?.elim .nowhere Terminal.position := by
  cases denotes with
  | @expr _ d e value => exact d.position_eq e value
  | name n => rfl

theorem NameDerivation.head_mem (n : NameDerivation) : n.head.terminal ∈ n.terminals :=
  List.mem_cons_self

/-- The terminal that leads a derivation is one of its terminals. -/
theorem Derivation.mem_of_lead? {n : Nonterminal} {t : Terminal} :
    ∀ d : Derivation n, t ∈ d.lead? → t ∈ d.terminals
  | .rename _ d, leads => d.mem_of_lead? leads
  | .closure _ _ _ body, leads | .emptyClosure _ body, leads => by
      simp [terminals, body.mem_of_lead? leads]
  | .paren _ inner _, leads => by simp [terminals, inner.mem_of_lead? leads]
  | .binary _ _ left _ _, leads => by simp [terminals, left.mem_of_lead? leads]
  | .cast operand _ _, leads | .unary _ _ _ operand, leads | .propagate operand _, leads => by
      simp [terminals, operand.mem_of_lead? leads]
  | .field object _ _, leads | .tupleField object _ _, leads | .index object _ _ _, leads => by
      simp [terminals, object.mem_of_lead? leads]
  | .call callee _ _ _, leads => by simp [terminals, callee.mem_of_lead? leads]
  | .tuple _ first _ _ _, leads => by simp [terminals, first.mem_of_lead? leads]
  | .fill _ value _ _ _, leads => by simp [terminals, value.mem_of_lead? leads]
  | .invokeParen name _ _ _ _, leads | .invokeBracket name _ _ _ _, leads => by
      obtain rfl := Option.some.inj leads
      simp [terminals, name.head_mem]
  | .path name, leads => by
      obtain rfl := Option.some.inj leads
      exact name.head_mem
  | .literal _ leaf, leads => by
      obtain rfl := Option.some.inj leads
      exact List.mem_singleton_self _

theorem WrittenPart.mem_of_lead? {written : WrittenPart} {t : Terminal} (leads : t ∈ written.lead?) :
    t ∈ written.terminals := by
  cases written with
  | expr d => exact d.mem_of_lead? leads
  | name n =>
      obtain rfl := Option.some.inj leads
      exact n.head_mem

/-! ## Terminals of parts -/

section Within

variable {ts us vs : List Terminal}

theorem infix_front (within : ts <:+: us) : ts <:+: us ++ vs :=
  within.trans (List.prefix_append us vs).isInfix

theorem infix_behind (within : ts <:+: us) : ts <:+: vs ++ us :=
  within.trans (List.suffix_append vs us).isInfix

theorem infix_later {t : Terminal} (within : ts <:+: us) : ts <:+: t :: us :=
  within.trans (List.suffix_cons t us).isInfix

end Within

theorem ParamDerivation.infix_of_type {p : ParamDerivation} {n : NameDerivation} (isType : n ∈ p.type.map Prod.snd) :
    n.terminals <:+: p.terminals := by
  obtain ⟨⟨colon, name⟩, isSome, rfl⟩ := Option.map_eq_some_iff.1 isType
  rw [terminals, isSome]
  exact infix_later (infix_later (List.infix_refl _))

theorem ParamsDerivation.infix_of_typeNames {p : ParamsDerivation} {n : NameDerivation} (member : n ∈ p.typeNames) :
    n.terminals <:+: p.terminals := by
  obtain ⟨param, isParam, isType⟩ := List.mem_filterMap.1 member
  refine (ParamDerivation.infix_of_type isType).trans (infix_front ?_)
  rcases List.mem_cons.1 isParam with rfl | isLater
  · exact infix_front (List.infix_refl _)
  · obtain ⟨step, isStep, rfl⟩ := List.mem_map.1 isLater
    have isWritten : step.1.terminal :: step.2.terminals ∈
        p.later.map fun step => step.1.terminal :: step.2.terminals := List.mem_map.2 ⟨step, isStep, rfl⟩
    exact infix_behind ((infix_later (List.infix_refl _)).trans (List.infix_of_mem_flatten isWritten))

/-- Whether all parts that are written are made of terminals that stand side by side among some. -/
def AreWithin (written : List WrittenPart) (ts : List Terminal) : Prop :=
  ∀ part ∈ written, part.terminals <:+: ts

section AreWithin

variable {written written' : List WrittenPart} {part : WrittenPart} {ts us : List Terminal}

theorem AreWithin.front (within : AreWithin written ts) : AreWithin written (ts ++ us) :=
  fun part member => infix_front (within part member)

theorem AreWithin.behind (within : AreWithin written ts) : AreWithin written (us ++ ts) :=
  fun part member => infix_behind (within part member)

theorem AreWithin.later {t : Terminal} (within : AreWithin written ts) : AreWithin written (t :: ts) :=
  fun part member => infix_later (within part member)

theorem AreWithin.append (within : AreWithin written ts) (within' : AreWithin written' ts) :
    AreWithin (written ++ written') ts :=
  List.forall_mem_append.2 ⟨within, within'⟩

theorem AreWithin.cons (itself : part.terminals = ts) (within : AreWithin written ts) :
    AreWithin (part :: written) ts :=
  List.forall_mem_cons.2 ⟨itself ▸ List.infix_refl _, within⟩

end AreWithin

mutual

/-- The parts of a derivation are made of terminals that stand side by side in it. -/
theorem Derivation.areWithin {n : Nonterminal} : ∀ d : Derivation n, AreWithin d.parts d.terminals
  | .rename _ d => d.areWithin
  | .paren _ inner _ => inner.areWithin.later.front
  | .closure _ params _ body => by
      refine .cons rfl (.append ?_ body.areWithin.later.behind)
      intro part member
      obtain ⟨name, isName, rfl⟩ := List.mem_map.1 member
      cases params with
      | none => cases isName
      | some params => exact infix_front (infix_later (params.infix_of_typeNames isName))
  | .emptyClosure _ body => .cons rfl body.areWithin.later
  | .binary _ _ left _ right => .cons rfl (left.areWithin.front.append right.areWithin.later.behind)
  | .cast operand _ target => by
      have inName : AreWithin [.name target] target.terminals := .cons rfl nofun
      exact .cons rfl (operand.areWithin.front.append inName.later.behind)
  | .unary _ _ _ operand => .cons rfl operand.areWithin.later
  | .field object _ _ | .tupleField object _ _ => .cons rfl object.areWithin.front
  | .call callee _ args _ => by
      refine .cons rfl (.append (.front (.front ?_)) args.areWithin.later.behind.front)
      split
      · exact fun part member => callee.areWithin part (List.mem_of_mem_tail member)
      · exact callee.areWithin
  | .index object _ position _ =>
      .cons rfl (object.areWithin.front.front.append position.areWithin.later.behind.front)
  | .propagate operand _ => .cons rfl operand.areWithin.front
  | .unit _ _ | .path _ | .literal _ _ => .cons rfl nofun
  | .tuple _ first _ later _ =>
      .cons rfl (first.areWithin.later.front.front.append later.areWithin.later.behind.front)
  | .array _ elements _ => .cons rfl elements.areWithin.later.front
  | .fill _ value _ count _ =>
      .cons rfl (value.areWithin.later.front.front.append count.areWithin.later.behind.front)
  | .invokeParen name _ _ args _ | .invokeBracket name _ _ args _ => by
      have inName : AreWithin [.name name] name.terminals := .cons rfl nofun
      exact .cons rfl (inName.front.front.append args.areWithin.later.later.behind.front)

theorem OptionalArgs.areWithin : ∀ args : OptionalArgs, AreWithin args.parts args.terminals
  | .absent => nofun
  | .present args => args.areWithin

theorem Args.areWithin : ∀ args : Args, AreWithin args.parts args.terminals
  | .args first later => first.areWithin.front.append later.areWithin.behind

theorem LaterArgs.areWithin : ∀ later : LaterArgs, AreWithin later.parts later.terminals
  | .done | .trailing _ => nofun
  | .next _ e later => e.areWithin.later.front.append later.areWithin.behind

end

/-! ## Sources -/

namespace Expr

/-- Whether a written part stands in a source with the trees `trees`, as the part of an expression that it denotes: it
is made of terminals that stand side by side. If a terminal leads it, that is one of these, and the part stands at its
token; and else the part stands nowhere. -/
structure StandsAs (source : String) (trees : List Tree) (written : WrittenPart) (part : Part) : Prop where
  denotes : written.Denotes part
  within : written.terminals <:+: Terminal.ofTrees trees
  atLead : ∀ t ∈ written.lead?, t ∈ written.terminals ∧ part.position = t.position ∧ IsTokenPlace source t.position
  nowhere : written.lead? = none → part.position = .nowhere ∧ ¬IsTokenPlace source part.position

section Sources

variable {source : String} {trees : List Tree} {finish : Position}

theorem isTokenPlace_of_terminal (isRead : treesOf source = .ok (trees, finish)) {t : Terminal}
    (member : t ∈ Terminal.ofTrees trees) : IsTokenPlace source t.position := by
  obtain ⟨lexed, -, -⟩ := flattenAll_of_treesOf isRead
  obtain ⟨u, isToken, place⟩ : ∃ u ∈ Tree.flattenAll trees, t.position = u.position := by
    obtain ⟨u, isToken, rfl | rfl⟩ := Terminal.exists_of_mem_ofTokens member <;> exact ⟨u, isToken, rfl⟩
  exact ⟨_, Lexer.tokensFrom_eq_ok_iff.2 lexed, u, List.mem_append_left _ isToken, place.symm⟩

theorem standsAs (isRead : treesOf source = .ok (trees, finish)) {written : WrittenPart} {part : Part}
    (denotes : written.Denotes part) (within : written.terminals <:+: Terminal.ofTrees trees) :
    StandsAs source trees written part where
  denotes := denotes
  within := within
  atLead := by
    intro t leads
    have member := WrittenPart.mem_of_lead? leads
    refine ⟨member, ?_, isTokenPlace_of_terminal isRead (within.subset member)⟩
    rw [denotes.position_eq, leads]
    rfl
  nowhere := by
    intro noLead
    have place : part.position = .nowhere := by
      rw [denotes.position_eq, noLead]
      rfl
    refine ⟨place, fun isPlace => isPlace.isIn.ne_nowhere ?_⟩
    exact place

/-- What is read as all of an expression is read from all of the trees. -/
theorem ofTrees_of_payload {e : Spelled (Expr Literal)} {c : Cursor}
    (isRead : Reader.whole Payload.expr.read (.ofTrees trees finish) = .ok (.expr e) c) :
    e.trees = trees ∧ ofTrees trees finish = .ok e.node := by
  obtain ⟨isPayload, atEnd⟩ := Reader.whole_eq_ok_iff.1 isRead
  rw [Payload.read] at isPayload
  obtain ⟨e', isExpr, same⟩ := Reader.bind_pure_eq_ok_iff.1 isPayload
  obtain rfl := PayloadValue.expr.inj same
  obtain ⟨⟨-, -, isNode⟩, sameTrees, -⟩ := whole_read_eq_ok_iff.1 (Reader.whole_eq_ok_iff.2 ⟨isExpr, atEnd⟩)
  exact ⟨sameTrees, isNode⟩

/-- Of a source that is read as an expression, each part that is written is one part of the expression, in order. It
stands at a token that it was made of, the first name or literal of its leading part, or nowhere if there is none. -/
theorem parts_of_parse (e : Spelled (Expr Literal))
    (isRead : (Grammar.payload .expr).parse source = .ok (.payload (.expr e))) :
    ∃ d : Derivation .start, d.terminals = Terminal.ofTrees e.trees ∧ d.value = .ok e.node ∧
      List.Forall₂ (StandsAs source e.trees) d.parts e.node.parts := by
  obtain ⟨trees, finish, c, isSource, isWhole⟩ := Grammar.parse_eq_ok_iff.1 isRead
  obtain ⟨v, isExpr, isPayload⟩ := Grammar.whole_payload_eq_ok_iff.1 isWhole
  obtain rfl := Parsed.payload.inj isExpr
  obtain ⟨sameTrees, isNode⟩ := ofTrees_of_payload isPayload
  rw [sameTrees]
  obtain ⟨d, sameTerminals, value⟩ := Expr.ofTrees_eq_ok_iff.1 isNode
  refine ⟨d, sameTerminals, value, ?_⟩
  have within : AreWithin d.parts (Terminal.ofTrees trees) := sameTerminals ▸ d.areWithin
  refine ((List.forall₂_and_left _ _).2 ⟨within, d.areParts e.node value⟩).imp ?_
  exact fun written part both => standsAs isSource both.2 both.1

end Sources

/-- A call of `f` with the empty array. -/
def callOfArray : Spelled (Expr Literal) where
  node := .call (.path ⟨"f", [], ⟨1, 1⟩⟩) [.array []]
  trees := [.token ⟨.ident, "f", ⟨1, 1⟩, false⟩, .group .paren ⟨1, 2⟩ ⟨1, 5⟩ [.group .bracket ⟨1, 3⟩ ⟨1, 4⟩ []]]

theorem parse_callOfArray :
    (Grammar.payload .expr).parse "f([])" = .ok (.payload (.expr callOfArray)) := by
  have trees : treesOf "f([])" = .ok (callOfArray.trees, ⟨1, 6⟩) := by
    refine treesOf_eq_ok_iff_lexed.2 ⟨?_, by decide⟩
    refine @Lexer.Lexed.token _ [] 'f' ['(', '[', ']', ')'] .ident 0 _ rfl (by rfl) ?_
    refine @Lexer.Lexed.token _ [] '(' ['[', ']', ')'] .lparen 0 _ rfl rfl ?_
    refine @Lexer.Lexed.token _ [] '[' [']', ')'] .lbracket 0 _ rfl rfl ?_
    refine @Lexer.Lexed.token _ [] ']' [')'] .rbracket 0 _ rfl rfl ?_
    exact @Lexer.Lexed.token _ [] ')' [] .rparen 0 _ rfl rfl (.finish rfl)
  rw [Grammar.parse_of_trees trees]
  rfl

/-- Of a call with an array, the call and its callee stand at the name, and the array stands nowhere. -/
theorem parts_of_parse_callOfArray :
    (Grammar.payload .expr).parse "f([])" = .ok (.payload (.expr callOfArray)) ∧
      ∃ d : Derivation .start, d.terminals = Terminal.ofTrees callOfArray.trees ∧ d.value = .ok callOfArray.node ∧
        List.Forall₂ (StandsAs "f([])" callOfArray.trees) d.parts
          [.expr callOfArray.node, .expr (.path ⟨"f", [], ⟨1, 1⟩⟩), .expr (.array [])] :=
  ⟨parse_callOfArray, parts_of_parse callOfArray parse_callOfArray⟩

/-- Not all parts of an expression stand at tokens of its source. -/
theorem parts_of_array_nowhere :
    ¬∀ source e, (Grammar.payload .expr).parse source = .ok (.payload (.expr e)) →
      ∀ part ∈ e.node.parts, IsTokenPlace source part.position := by
  intro allPlaced
  have array : Part.expr (.array []) ∈ callOfArray.node.parts := by
    simp [callOfArray, parts, partsAll]
  exact (allPlaced "f([])" callOfArray parse_callOfArray _ array).isIn.ne_nowhere rfl

end Expr

end AttrGrammar
