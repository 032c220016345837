import AttrGrammar.Proofs.Expression.Derivation
import AttrGrammar.Proofs.Trees.Alike

/-!
Contract: derivations do not depend on places.

Owns:
- computations that do what others do, given an equality of values;
- a derivation of terminals that differ in their places only, which denotes the same expression.
-/

namespace AttrGrammar

/-! ## Results -/

/-- Whether a computation does what another one does: it yields the same value, or it fails with the same failure,
places aside. -/
structure Reproduces {α : Type} (same : α → α → Bool) (x y : Except Failure α) : Prop where
  values : ∀ a, x = .ok a → ∃ b, y = .ok b ∧ same b a
  failures : ∀ f, x = .error f → ∃ f', y = .error f' ∧ f'.unplaced = f.unplaced

section Reproduces

variable {α β γ : Type} {sameA : α → α → Bool} {sameB : β → β → Bool} {sameC : γ → γ → Bool}

theorem reproduces_pure {a b : α} (same : sameA b a) :
    Reproduces sameA (pure a) (pure b) where
  values := by
    intro a' isValue
    obtain rfl := Except.ok.inj isValue
    exact ⟨b, rfl, same⟩
  failures := by
    intro f fails
    cases fails

theorem reproduces_error {f f' : Failure} (same : f'.unplaced = f.unplaced) :
    Reproduces sameA (.error f) (.error f') where
  values := by
    intro a isValue
    cases isValue
  failures := by
    intro g fails
    obtain rfl := Except.error.inj fails
    exact ⟨f', rfl, same⟩

theorem Reproduces.map {x y : Except Failure α} {f g : α → β} (first : Reproduces sameA x y)
    (same : ∀ a b, sameA b a → sameB (g b) (f a)) :
    Reproduces sameB (x >>= fun a => pure (f a)) (y >>= fun b => pure (g b)) := by
  cases x with
  | error failure =>
      obtain ⟨failure', rfl, sameFailure⟩ := first.failures failure rfl
      exact reproduces_error sameFailure
  | ok a =>
      obtain ⟨b, rfl, sameValue⟩ := first.values a rfl
      exact reproduces_pure (same a b sameValue)

theorem Reproduces.map₂ {x y : Except Failure α} {z w : Except Failure β} {f g : α → β → γ}
    (first : Reproduces sameA x y) (second : Reproduces sameB z w)
    (same : ∀ a a' b b', sameA a' a → sameB b' b → sameC (g a' b') (f a b)) :
    Reproduces sameC (x >>= fun a => z >>= fun b => pure (f a b))
      (y >>= fun a => w >>= fun b => pure (g a b)) := by
  cases x with
  | error failure =>
      obtain ⟨failure', rfl, sameFailure⟩ := first.failures failure rfl
      exact reproduces_error sameFailure
  | ok a =>
      obtain ⟨a', rfl, sameValue⟩ := first.values a rfl
      exact second.map fun b b' => same a a' b b' sameValue

end Reproduces

/-! ## Terminals that are alike -/

namespace Terminal

/-- Whether terminals differ in their places only. -/
def Alike (ts us : List Terminal) : Prop :=
  ts.map unplaced = us.map unplaced

theorem decode_eq_ok_iff {t : Terminal} {position : Position} {l : Literal} :
    t.decode position = .ok l ↔ Literal.decode t.symbol.tokenKind t.text = .ok l := by
  unfold decode
  cases Literal.decode t.symbol.tokenKind t.text with
  | error fault => exact ⟨nofun, nofun⟩
  | ok value => exact Iff.rfl.trans ⟨fun same => congrArg _ (Except.ok.inj same),
      fun same => congrArg _ (Except.ok.inj same)⟩

/-- Whether the value of a terminal, if it has one, equals itself. -/
def IsReflexive (t : Terminal) : Prop :=
  ∀ l, Literal.decode t.symbol.tokenKind t.text = .ok l → l.same l

/-- Terminals that differ in their places only are decoded alike. -/
theorem reproduces_decode {t t' : Terminal} (alike : t'.unplaced = t.unplaced) (reflexive : t.IsReflexive)
    (position position' : Position) :
    Reproduces Literal.same (t.decode position) (t'.decode position') := by
  obtain ⟨sameSymbol, sameText⟩ := unplaced_eq_iff.1 alike
  rw [decode, decode, sameSymbol, sameText]
  cases decoded : Literal.decode t.symbol.tokenKind t.text with
  | ok l => exact reproduces_pure (reflexive l decoded)
  | error fault => exact reproduces_error (Failure.unplaced_ofLiteral position' position fault)

section Alike

variable {ts us front back : List Terminal}

theorem Alike.nil (alike : Alike ts []) : ts = [] :=
  List.map_eq_nil_iff.1 alike

theorem Alike.append (alike : Alike ts (front ++ back)) :
    ∃ front' back', ts = front' ++ back' ∧ Alike front' front ∧ Alike back' back := by
  rw [Alike, List.map_append] at alike
  exact List.map_eq_append_iff.1 alike

theorem Alike.leaf {s : Symbol} {leaf : Leaf s} (alike : Alike ts (leaf.terminal :: us)) :
    ∃ (leaf' : Leaf s) (us' : List Terminal), ts = leaf'.terminal :: us' ∧
      leaf'.text = leaf.text ∧ Alike us' us := by
  rw [Alike, List.map_cons] at alike
  obtain ⟨t, us', rfl, sameLeaf, behind⟩ := List.map_eq_cons_iff.1 alike
  obtain ⟨sameSymbol, sameText⟩ := unplaced_eq_iff.1 sameLeaf
  refine ⟨⟨t.text, t.position⟩, us', ?_, sameText, behind⟩
  have isTerminal : t = ⟨s, t.text, t.position⟩ := by
    rw [show s = t.symbol from sameSymbol.symm]
  exact congrArg (· :: us') isTerminal

/-- Around a terminal in the middle. -/
theorem Alike.around {s : Symbol} {leaf : Leaf s} (alike : Alike ts (front ++ leaf.terminal :: back)) :
    ∃ (front' : List Terminal) (leaf' : Leaf s) (back' : List Terminal),
      ts = front' ++ leaf'.terminal :: back' ∧ leaf'.text = leaf.text ∧
        Alike front' front ∧ Alike back' back := by
  obtain ⟨front', behind', rfl, inFront, behind⟩ := alike.append
  obtain ⟨leaf', back', rfl, sameText, inBack⟩ := behind.leaf
  exact ⟨front', leaf', back', rfl, sameText, inFront, inBack⟩

/-- In front of the last terminal. -/
theorem Alike.closed {s : Symbol} {leaf : Leaf s} (alike : Alike ts (front ++ [leaf.terminal])) :
    ∃ (front' : List Terminal) (leaf' : Leaf s), ts = front' ++ [leaf'.terminal] ∧ Alike front' front := by
  obtain ⟨front', leaf', back', rfl, -, inFront, inBack⟩ := alike.around
  obtain rfl := inBack.nil
  exact ⟨front', leaf', rfl, inFront⟩

end Alike

end Terminal

open Terminal (Alike)

/-! ## Names and parameters -/

theorem NameDerivation.relabel (n : NameDerivation) {ts : List Terminal}
    (alike : Alike ts n.terminals) :
    ∃ n' : NameDerivation, n'.terminals = ts ∧ n'.name.segments = n.name.segments := by
  have steps : ∀ (later : List (Mark .pathSep × Mark .ident)) (us : List Terminal),
      Alike us (later.flatMap fun step => [step.1.terminal, step.2.terminal]) →
        ∃ later' : List (Mark .pathSep × Mark .ident),
          (later'.flatMap fun step => [step.1.terminal, step.2.terminal]) = us ∧
            (later'.map fun step => step.2.text) = later.map fun step => step.2.text := by
    intro later
    induction later with
    | nil =>
        intro us alike
        exact ⟨[], alike.nil.symm, rfl⟩
    | cons step later inductionHypothesis =>
        intro us alike
        obtain ⟨separator, us, rfl, -, alike⟩ := Alike.leaf alike
        obtain ⟨word, us, rfl, sameWord, alike⟩ := Alike.leaf alike
        obtain ⟨later', rfl, sameLater⟩ := inductionHypothesis us alike
        exact ⟨(separator, word) :: later', rfl, by simp [sameWord, sameLater]⟩
  obtain ⟨head, us, rfl, sameHead, alike⟩ := Alike.leaf alike
  obtain ⟨later, rfl, sameLater⟩ := steps n.later us alike
  refine ⟨⟨head, later⟩, rfl, ?_⟩
  simp [NameDerivation.name, NamePath.segments, sameHead, sameLater]

theorem ParamDerivation.relabel (p : ParamDerivation) {ts : List Terminal}
    (alike : Alike ts p.terminals) :
    ∃ p' : ParamDerivation, p'.terminals = ts ∧ p'.param.same p.param := by
  obtain ⟨name, type⟩ := p
  obtain ⟨name', us, rfl, sameName, alike⟩ := Alike.leaf alike
  cases type with
  | none =>
      obtain rfl := alike.nil
      exact ⟨⟨name', none⟩, rfl, by simp [param, ClosureParam.same, sameName]⟩
  | some type =>
      obtain ⟨colon, us, rfl, -, alike⟩ := Alike.leaf alike
      obtain ⟨target, rfl, sameTarget⟩ := type.2.relabel alike
      exact ⟨⟨name', some (colon, target)⟩, rfl,
        by simp [param, ClosureParam.same, NamePath.same, sameName, sameTarget]⟩

def sameParams (ps qs : List ClosureParam) : Bool :=
  ps.length = qs.length && (ps.zip qs).all fun pair => pair.1.same pair.2

theorem sameParams_cons {p q : ClosureParam} {ps qs : List ClosureParam}
    (first : p.same q) (later : sameParams ps qs) : sameParams (p :: ps) (q :: qs) := by
  simpa [sameParams, first] using later

theorem ParamsDerivation.relabel (p : ParamsDerivation) {ts : List Terminal}
    (alike : Alike ts p.terminals) :
    ∃ p' : ParamsDerivation, p'.terminals = ts ∧ sameParams p'.params p.params := by
  have steps : ∀ (later : List (Mark .comma × ParamDerivation)) (us : List Terminal),
      Alike us (later.flatMap fun step => step.1.terminal :: step.2.terminals) →
        ∃ later' : List (Mark .comma × ParamDerivation),
          (later'.flatMap fun step => step.1.terminal :: step.2.terminals) = us ∧
            sameParams (later'.map fun step => step.2.param)
              (later.map fun step => step.2.param) := by
    intro later
    induction later with
    | nil =>
        intro us alike
        exact ⟨[], alike.nil.symm, rfl⟩
    | cons step later inductionHypothesis =>
        intro us alike
        obtain ⟨front, back, rfl, alike, behind⟩ := Alike.append alike
        obtain ⟨comma, us, rfl, -, alike⟩ := Alike.leaf alike
        obtain ⟨param, rfl, sameParam⟩ := step.2.relabel alike
        obtain ⟨later', rfl, sameLater⟩ := inductionHypothesis back behind
        exact ⟨(comma, param) :: later', rfl, sameParams_cons sameParam sameLater⟩
  obtain ⟨first, later, trailing⟩ := p
  obtain ⟨front, back, rfl, alike, behind⟩ := Alike.append alike
  obtain ⟨front, middle, rfl, alike, between⟩ := Alike.append alike
  obtain ⟨first', rfl, sameFirst⟩ := first.relabel alike
  obtain ⟨later', rfl, sameLater⟩ := steps later middle between
  have sameAll := sameParams_cons sameFirst sameLater
  cases trailing with
  | none =>
      obtain rfl := behind.nil
      exact ⟨⟨first', later', none⟩, rfl, sameAll⟩
  | some comma =>
      obtain ⟨comma', us, rfl, -, alike⟩ := Alike.leaf behind
      obtain rfl := alike.nil
      exact ⟨⟨first', later', some comma'⟩, rfl, sameAll⟩

/-! ## Expressions -/

namespace Expr

section Applied

variable {f g : Expr Literal} {as bs : List (Expr Literal)}

def IsField (e : Expr Literal) : Prop :=
  ∃ object name, e = .field object name

theorem applied_of_other (other : ¬f.IsField) : f.applied as = .call f as := by
  cases f with
  | field object name => exact absurd ⟨object, name, rfl⟩ other
  | _ => rfl

theorem isField_of_same (same : f.same Literal.same g) (isField : g.IsField) : f.IsField := by
  obtain ⟨object', name', rfl⟩ := isField
  cases f with
  | field object name => exact ⟨object, name, rfl⟩
  | _ => simp [Expr.same] at same

/-- Calls of the same expression with the same arguments are the same. -/
theorem same_applied (callee : f.same Literal.same g) (args : sameAll Literal.same as bs) :
    (f.applied as).same Literal.same (g.applied bs) := by
  by_cases isField : f.IsField
  · obtain ⟨object, name, rfl⟩ := isField
    cases g with
    | field object' name' =>
        simp only [Expr.same, Bool.and_eq_true, decide_eq_true_eq] at callee
        obtain ⟨sameObject, rfl⟩ := callee
        unfold applied
        by_cases isPlace : isTupleField name <;> simp [isPlace, Expr.same, sameObject, args]
    | _ => simp [Expr.same] at callee
  · have otherToo : ¬g.IsField := mt (isField_of_same callee) isField
    rw [applied_of_other isField, applied_of_other otherToo, Expr.same, callee, args]
    rfl

end Applied

end Expr

/-- Whether terminals that differ in their places from those of a derivation have a derivation that denotes the
same. -/
def Derivation.IsRelabelled {n : Nonterminal} (d : Derivation n) : Prop :=
  ∀ ts : List Terminal, Alike ts d.terminals → (∀ t ∈ d.literals, t.IsReflexive) →
    ∃ d' : Derivation n, d'.terminals = ts ∧ Reproduces (Expr.same Literal.same) d.value d'.value

def OptionalArgs.AreRelabelled (args : OptionalArgs) : Prop :=
  ∀ ts : List Terminal, Alike ts args.terminals → (∀ t ∈ args.literals, t.IsReflexive) →
    ∃ args' : OptionalArgs, args'.terminals = ts ∧ Reproduces (Expr.sameAll Literal.same) args.values args'.values

def LaterArgs.AreRelabelled (later : LaterArgs) : Prop :=
  ∀ ts : List Terminal, Alike ts later.terminals → (∀ t ∈ later.literals, t.IsReflexive) →
    ∃ later' : LaterArgs, later'.terminals = ts ∧
      Reproduces (Expr.sameAll Literal.same) later.values later'.values

section Productions

-- The productions are told apart by what the expressions are made of.
attribute [local simp] Expr.same Expr.sameAll

namespace Derivation.IsRelabelled

theorem rename {n m : Nonterminal} {d : Derivation m} (relabelled : d.IsRelabelled) (rule : Renames n m) :
    (Derivation.rename rule d).IsRelabelled := by
  intro ts whole reflexive
  obtain ⟨d', sameTerminals, same⟩ := relabelled _ whole reflexive
  exact ⟨.rename rule d', sameTerminals, same⟩

section Closures

variable {body : Derivation .expr}

theorem closure (relabelled : body.IsRelabelled) (opening closing : Mark .pipe) (params : Option ParamsDerivation) :
    (Derivation.closure opening params closing body).IsRelabelled := by
  intro ts whole reflexive
  obtain ⟨front, closing', back, rfl, -, initial, rest⟩ := Alike.around whole
  obtain ⟨opening', us, rfl, -, core⟩ := Alike.leaf initial
  obtain ⟨body', rfl, same⟩ := relabelled _ rest reflexive
  cases params with
  | none =>
      obtain rfl := core.nil
      exact ⟨.closure opening' none closing' body', rfl,
        same.map fun a b sameBody => by simp [sameBody]⟩
  | some params =>
      obtain ⟨params', rfl, sameParams⟩ := params.relabel core
      refine ⟨.closure opening' (some params') closing' body', rfl, same.map ?_⟩
      intro a b sameBody
      rw [Expr.same, sameBody, Bool.and_true]
      exact sameParams

theorem emptyClosure (relabelled : body.IsRelabelled) (bars : Mark .orOr) :
    (Derivation.emptyClosure bars body).IsRelabelled := by
  intro ts whole reflexive
  obtain ⟨bars', us, rfl, -, initial⟩ := Alike.leaf whole
  obtain ⟨body', rfl, same⟩ := relabelled _ initial reflexive
  exact ⟨.emptyClosure bars' body', rfl,
    same.map fun a b sameBody => by simp [sameBody]⟩

end Closures

section Operators

theorem binary {n l r : Nonterminal} {s : Symbol} {op : BinaryOp} {left : Derivation l} {right : Derivation r}
    (relabelledLeft : left.IsRelabelled) (relabelledRight : right.IsRelabelled) (rule : Infixes n l s r op)
    (sign : Leaf s) : (Derivation.binary op rule left sign right).IsRelabelled := by
  intro ts whole reflexive
  obtain ⟨front, sign', back, rfl, -, initial, rest⟩ := Alike.around whole
  obtain ⟨inLeft, inRight⟩ := List.forall_mem_append.1 reflexive
  obtain ⟨left', rfl, sameLeft⟩ := relabelledLeft _ initial inLeft
  obtain ⟨right', rfl, sameRight⟩ := relabelledRight _ rest inRight
  exact ⟨.binary op rule left' sign' right', rfl,
    sameLeft.map₂ sameRight fun a a' b b' first second => by simp [first, second]⟩

theorem cast {operand : Derivation .castExpr} (relabelled : operand.IsRelabelled) (asWord : Leaf .asWord)
    (target : NameDerivation) : (Derivation.cast operand asWord target).IsRelabelled := by
  intro ts whole reflexive
  obtain ⟨front, asWord', back, rfl, -, initial, rest⟩ := Alike.around whole
  obtain ⟨operand', rfl, same⟩ := relabelled _ initial reflexive
  obtain ⟨target', rfl, sameTarget⟩ := target.relabel rest
  exact ⟨.cast operand' asWord' target', rfl, same.map fun a b sameOperand => by
    simp [NamePath.same, sameOperand, sameTarget]⟩

theorem unary {s : Symbol} {op : UnaryOp} {operand : Derivation .unaryExpr} (relabelled : operand.IsRelabelled)
    (rule : Signs s op) (sign : Leaf s) : (Derivation.unary op rule sign operand).IsRelabelled := by
  intro ts whole reflexive
  obtain ⟨sign', us, rfl, -, initial⟩ := Alike.leaf whole
  obtain ⟨operand', rfl, same⟩ := relabelled _ initial reflexive
  exact ⟨.unary op rule sign' operand', rfl,
    same.map fun a b sameOperand => by simp [sameOperand]⟩

end Operators

section Postfix

variable {object : Derivation .postfixExpr}

theorem field (relabelled : object.IsRelabelled) (dot : Mark .dot) (name : Mark .ident) :
    (Derivation.field object dot name).IsRelabelled := by
  intro ts whole reflexive
  obtain ⟨front, dot', back, rfl, -, initial, rest⟩ := Alike.around whole
  obtain ⟨name', us, rfl, sameName, final⟩ := Alike.leaf rest
  obtain rfl := final.nil
  obtain ⟨object', rfl, same⟩ := relabelled _ initial reflexive
  exact ⟨.field object' dot' name', rfl,
    same.map fun a b sameObject => by simp [sameObject, sameName]⟩

theorem tupleField (relabelled : object.IsRelabelled) (dot : Mark .dot) (index : Mark .int) :
    (Derivation.tupleField object dot index).IsRelabelled := by
  intro ts whole reflexive
  obtain ⟨front, dot', back, rfl, -, initial, rest⟩ := Alike.around whole
  obtain ⟨index', us, rfl, sameIndex, final⟩ := Alike.leaf rest
  obtain rfl := final.nil
  obtain ⟨object', rfl, same⟩ := relabelled _ initial reflexive
  exact ⟨.tupleField object' dot' index', rfl,
    same.map fun a b sameObject => by simp [sameObject, sameIndex]⟩

theorem call (relabelled : object.IsRelabelled) {args : OptionalArgs} (areRelabelled : args.AreRelabelled)
    (opening : Mark .lparen) (closing : Mark .rparen) :
    (Derivation.call object opening args closing).IsRelabelled := by
  intro ts whole reflexive
  obtain ⟨front, closing', rfl, initial⟩ := Alike.closed whole
  obtain ⟨front, opening', back, rfl, -, core, inside⟩ := Alike.around initial
  obtain ⟨inObject, inArgs⟩ := List.forall_mem_append.1 reflexive
  obtain ⟨object', rfl, sameObject⟩ := relabelled _ core inObject
  obtain ⟨args', rfl, sameArgs⟩ := areRelabelled _ inside inArgs
  exact ⟨.call object' opening' args' closing', rfl,
    sameObject.map₂ sameArgs fun a a' b b' first second => Expr.same_applied first second⟩

theorem index (relabelled : object.IsRelabelled) {position : Derivation .expr}
    (relabelledInner : position.IsRelabelled) (opening : Mark .lbracket) (closing : Mark .rbracket) :
    (Derivation.index object opening position closing).IsRelabelled := by
  intro ts whole reflexive
  obtain ⟨front, closing', rfl, initial⟩ := Alike.closed whole
  obtain ⟨front, opening', back, rfl, -, core, inside⟩ := Alike.around initial
  obtain ⟨inObject, inPosition⟩ := List.forall_mem_append.1 reflexive
  obtain ⟨object', rfl, sameObject⟩ := relabelled _ core inObject
  obtain ⟨position', rfl, samePosition⟩ := relabelledInner _ inside inPosition
  exact ⟨.index object' opening' position' closing', rfl,
    sameObject.map₂ samePosition fun a a' b b' first second => by simp [first, second]⟩

theorem propagate (relabelled : object.IsRelabelled) (question : Mark .question) :
    (Derivation.propagate object question).IsRelabelled := by
  intro ts whole reflexive
  obtain ⟨front, question', rfl, initial⟩ := Alike.closed whole
  obtain ⟨object', rfl, same⟩ := relabelled _ initial reflexive
  exact ⟨.propagate object' question', rfl,
    same.map fun a b sameObject => by simp [sameObject]⟩

end Postfix

section Primary

theorem paren {inner : Derivation .expr} (relabelled : inner.IsRelabelled) (opening : Mark .lparen)
    (closing : Mark .rparen) : (Derivation.paren opening inner closing).IsRelabelled := by
  intro ts whole reflexive
  obtain ⟨front, closing', rfl, initial⟩ := Alike.closed whole
  obtain ⟨opening', us, rfl, -, core⟩ := Alike.leaf initial
  obtain ⟨inner', rfl, same⟩ := relabelled _ core reflexive
  exact ⟨.paren opening' inner' closing', rfl, same⟩

theorem unit (opening : Mark .lparen) (closing : Mark .rparen) :
    (Derivation.unit opening closing).IsRelabelled := by
  intro ts whole _
  obtain ⟨opening', us, rfl, -, initial⟩ := Alike.leaf whole
  obtain ⟨closing', us, rfl, -, core⟩ := Alike.leaf initial
  obtain rfl := core.nil
  exact ⟨.unit opening' closing', rfl, reproduces_pure rfl⟩

theorem tuple {first : Derivation .expr} (relabelled : first.IsRelabelled) {later : OptionalArgs}
    (areRelabelled : later.AreRelabelled) (opening : Mark .lparen) (comma : Mark .comma)
    (closing : Mark .rparen) : (Derivation.tuple opening first comma later closing).IsRelabelled := by
  intro ts whole reflexive
  obtain ⟨front, closing', rfl, initial⟩ := Alike.closed whole
  obtain ⟨front, comma', back, rfl, -, core, inside⟩ := Alike.around initial
  obtain ⟨opening', us, rfl, -, kernel⟩ := Alike.leaf core
  obtain ⟨inFirst, inLater⟩ := List.forall_mem_append.1 reflexive
  obtain ⟨first', rfl, sameFirst⟩ := relabelled _ kernel inFirst
  obtain ⟨later', rfl, sameLater⟩ := areRelabelled _ inside inLater
  exact ⟨.tuple opening' first' comma' later' closing', rfl,
    sameFirst.map₂ sameLater fun a a' b b' here behind => by
      simp [here, behind]⟩

theorem array {elements : OptionalArgs} (areRelabelled : elements.AreRelabelled) (opening : Mark .lbracket)
    (closing : Mark .rbracket) : (Derivation.array opening elements closing).IsRelabelled := by
  intro ts whole reflexive
  obtain ⟨front, closing', rfl, initial⟩ := Alike.closed whole
  obtain ⟨opening', us, rfl, -, core⟩ := Alike.leaf initial
  obtain ⟨elements', rfl, same⟩ := areRelabelled _ core reflexive
  exact ⟨.array opening' elements' closing', rfl,
    same.map fun a b sameElements => by simp [sameElements]⟩

theorem fill {value count : Derivation .expr} (relabelledValue : value.IsRelabelled)
    (relabelledCount : count.IsRelabelled) (opening : Mark .lbracket) (semi : Mark .semi)
    (closing : Mark .rbracket) : (Derivation.fill opening value semi count closing).IsRelabelled := by
  intro ts whole reflexive
  obtain ⟨front, closing', rfl, initial⟩ := Alike.closed whole
  obtain ⟨front, semi', back, rfl, -, core, inside⟩ := Alike.around initial
  obtain ⟨opening', us, rfl, -, kernel⟩ := Alike.leaf core
  obtain ⟨inValue, inCount⟩ := List.forall_mem_append.1 reflexive
  obtain ⟨value', rfl, sameValue⟩ := relabelledValue _ kernel inValue
  obtain ⟨count', rfl, sameCount⟩ := relabelledCount _ inside inCount
  exact ⟨.fill opening' value' semi' count' closing', rfl,
    sameValue.map₂ sameCount fun a a' b b' first second => by simp [first, second]⟩

theorem invokeParen {args : OptionalArgs} (areRelabelled : args.AreRelabelled) (name : NameDerivation)
    (bang : Mark .bang) (opening : Mark .lparen) (closing : Mark .rparen) :
    (Derivation.invokeParen name bang opening args closing).IsRelabelled := by
  intro ts whole reflexive
  obtain ⟨front, closing', rfl, initial⟩ := Alike.closed whole
  obtain ⟨front, bang', back, rfl, -, core, inside⟩ := Alike.around initial
  obtain ⟨opening', us, rfl, -, within⟩ := Alike.leaf inside
  obtain ⟨name', rfl, sameName⟩ := name.relabel core
  obtain ⟨args', rfl, sameArgs⟩ := areRelabelled _ within reflexive
  exact ⟨.invokeParen name' bang' opening' args' closing', rfl,
    sameArgs.map fun a b same => by simp [NamePath.same, sameName, same]⟩

theorem invokeBracket {args : OptionalArgs} (areRelabelled : args.AreRelabelled) (name : NameDerivation)
    (bang : Mark .bang) (opening : Mark .lbracket) (closing : Mark .rbracket) :
    (Derivation.invokeBracket name bang opening args closing).IsRelabelled := by
  intro ts whole reflexive
  obtain ⟨front, closing', rfl, initial⟩ := Alike.closed whole
  obtain ⟨front, bang', back, rfl, -, core, inside⟩ := Alike.around initial
  obtain ⟨opening', us, rfl, -, within⟩ := Alike.leaf inside
  obtain ⟨name', rfl, sameName⟩ := name.relabel core
  obtain ⟨args', rfl, sameArgs⟩ := areRelabelled _ within reflexive
  exact ⟨.invokeBracket name' bang' opening' args' closing', rfl,
    sameArgs.map fun a b same => by simp [NamePath.same, sameName, same]⟩

theorem path (name : NameDerivation) : (Derivation.path name).IsRelabelled := by
  intro ts whole _
  obtain ⟨name', rfl, sameName⟩ := name.relabel whole
  exact ⟨.path name', rfl, reproduces_pure (by simp [NamePath.same, sameName])⟩

theorem literal {s : Symbol} (rule : SpellsLiteral s) (leaf : Leaf s) :
    (Derivation.literal rule leaf).IsRelabelled := by
  intro ts whole reflexive
  obtain ⟨leaf', us, rfl, sameText, initial⟩ := Alike.leaf whole
  obtain rfl := initial.nil
  have alike : leaf'.terminal.unplaced = leaf.terminal.unplaced :=
    Terminal.unplaced_eq_iff.2 ⟨rfl, sameText⟩
  have same := Terminal.reproduces_decode alike
    (reflexive leaf.terminal (List.mem_singleton_self _)) leaf.position leaf'.position
  exact ⟨.literal rule leaf', rfl, same.map fun a b sameLiteral => by
    simp [sameLiteral]⟩

end Primary

end Derivation.IsRelabelled

section Arguments

theorem areRelabelled_absent : OptionalArgs.absent.AreRelabelled := by
  intro ts whole _
  obtain rfl := whole.nil
  exact ⟨.absent, rfl, reproduces_pure rfl⟩

theorem areRelabelled_present {first : Derivation .expr} {later : LaterArgs} (relabelled : first.IsRelabelled)
    (areRelabelled : later.AreRelabelled) : (OptionalArgs.present (.args first later)).AreRelabelled := by
  intro ts whole reflexive
  obtain ⟨front, back, rfl, initial, behind⟩ := Alike.append whole
  obtain ⟨inFirst, inLater⟩ := List.forall_mem_append.1 reflexive
  obtain ⟨first', rfl, sameFirst⟩ := relabelled _ initial inFirst
  obtain ⟨later', rfl, sameLater⟩ := areRelabelled _ behind inLater
  exact ⟨.present (.args first' later'), rfl, sameFirst.map₂ sameLater fun a a' b b' here behind => by
    simp [here, behind]⟩

theorem areRelabelled_done : LaterArgs.done.AreRelabelled := by
  intro ts whole _
  obtain rfl := whole.nil
  exact ⟨.done, rfl, reproduces_pure rfl⟩

theorem areRelabelled_trailing (comma : Mark .comma) : (LaterArgs.trailing comma).AreRelabelled := by
  intro ts whole _
  obtain ⟨comma', us, rfl, -, initial⟩ := Alike.leaf whole
  obtain rfl := initial.nil
  exact ⟨.trailing comma', rfl, reproduces_pure rfl⟩

theorem areRelabelled_next {e : Derivation .expr} {later : LaterArgs} (relabelled : e.IsRelabelled)
    (areRelabelled : later.AreRelabelled) (comma : Mark .comma) :
    (LaterArgs.next comma e later).AreRelabelled := by
  intro ts whole reflexive
  obtain ⟨front, back, rfl, initial, behind⟩ := Alike.append whole
  obtain ⟨comma', us, rfl, -, core⟩ := Alike.leaf initial
  obtain ⟨inFirst, inLater⟩ := List.forall_mem_append.1 reflexive
  obtain ⟨e', rfl, sameFirst⟩ := relabelled _ core inFirst
  obtain ⟨later', rfl, sameLater⟩ := areRelabelled _ behind inLater
  exact ⟨.next comma' e' later', rfl, sameFirst.map₂ sameLater fun a a' b b' here behind => by
    simp [here, behind]⟩

end Arguments

end Productions

mutual

/-- All derivations are relabelled: one law for each production. -/
theorem Derivation.isRelabelled {n : Nonterminal} : ∀ d : Derivation n, d.IsRelabelled
  | .rename rule d => d.isRelabelled.rename rule
  | .closure opening params closing body => body.isRelabelled.closure opening closing params
  | .emptyClosure bars body => body.isRelabelled.emptyClosure bars
  | .binary _ rule left sign right => left.isRelabelled.binary right.isRelabelled rule sign
  | .cast operand asWord target => operand.isRelabelled.cast asWord target
  | .unary _ rule sign operand => operand.isRelabelled.unary rule sign
  | .field object dot name => object.isRelabelled.field dot name
  | .tupleField object dot index => object.isRelabelled.tupleField dot index
  | .call callee opening args closing => callee.isRelabelled.call args.areRelabelled opening closing
  | .index object opening position closing =>
      object.isRelabelled.index position.isRelabelled opening closing
  | .propagate operand question => operand.isRelabelled.propagate question
  | .paren opening inner closing => inner.isRelabelled.paren opening closing
  | .unit opening closing => .unit opening closing
  | .tuple opening first comma later closing =>
      first.isRelabelled.tuple later.areRelabelled opening comma closing
  | .array opening elements closing => .array elements.areRelabelled opening closing
  | .fill opening value semi count closing =>
      value.isRelabelled.fill count.isRelabelled opening semi closing
  | .invokeParen name bang opening args closing => .invokeParen args.areRelabelled name bang opening closing
  | .invokeBracket name bang opening args closing =>
      .invokeBracket args.areRelabelled name bang opening closing
  | .path name => .path name
  | .literal rule leaf => .literal rule leaf

theorem OptionalArgs.areRelabelled : ∀ args : OptionalArgs, args.AreRelabelled
  | .absent => areRelabelled_absent
  | .present (.args first later) => areRelabelled_present first.isRelabelled later.areRelabelled

theorem LaterArgs.areRelabelled : ∀ later : LaterArgs, later.AreRelabelled
  | .done => areRelabelled_done
  | .trailing comma => areRelabelled_trailing comma
  | .next comma e later => areRelabelled_next e.isRelabelled later.areRelabelled comma

end

end AttrGrammar
