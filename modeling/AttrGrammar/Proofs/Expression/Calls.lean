import AttrGrammar.Proofs.Expression.Correctness
import Mathlib.Data.List.Forall2

/-!
Contract: what the calls of an expression are made of.

Owns:
- the calls that are written in a derivation, and the calls of an expression, both in order;
- the field that a callee is the access of, parentheses around it aside;
- each written call is one call of the expression: a method call if its callee accesses a field whose name is not all
  digits, and else a call of its callee.

Whether a field is a place in a tuple is seen from its name alone, so that `x.0u8()` is a method call; and a callee in
parentheses is not told apart from one without, so that `(r.f)()` is one as well.
-/

namespace AttrGrammar

/-! ## Calls in expressions -/

namespace Expr

mutual

/-- The calls and method calls in an expression: those in its parts come before it. -/
def calls {α : Type} : Expr α → List (Expr α)
  | literal _ _ => []
  | path _ => []
  | binary _ a b => calls a ++ calls b
  | unary _ a => calls a
  | call f as => calls f ++ callsAll as ++ [call f as]
  | methodCall a m as => calls a ++ callsAll as ++ [methodCall a m as]
  | field a _ => calls a
  | index a i => calls a ++ calls i
  | propagate a => calls a
  | cast a _ => calls a
  | tuple as => callsAll as
  | array as => callsAll as
  | fill a n => calls a ++ calls n
  | closure _ a => calls a
  | invocation _ as => callsAll as

def callsAll {α : Type} : List (Expr α) → List (Expr α)
  | [] => []
  | a :: as => calls a ++ callsAll as

end

/-- A call stands behind the calls in its callee and its arguments, whether it is a method call or not. -/
theorem calls_applied {α : Type} (f : Expr α) (as : List (Expr α)) :
    (f.applied as).calls = f.calls ++ callsAll as ++ [f.applied as] := by
  cases f with
  | field object name =>
      by_cases inTuple : isTupleField name <;> simp [applied, inTuple, calls]
  | _ => simp [applied, calls]

end Expr

/-! ## Calls in derivations -/

/-- A call as it is written. -/
structure CallSite where
  callee : Derivation .postfixExpr
  args : OptionalArgs

mutual

/-- The calls that are written in a derivation: those in its parts come before it. -/
def Derivation.calls {n : Nonterminal} : Derivation n → List CallSite
  | .rename _ d => d.calls
  | .closure _ _ _ body => body.calls
  | .emptyClosure _ body => body.calls
  | .binary _ _ left _ right => left.calls ++ right.calls
  | .cast operand _ _ => operand.calls
  | .unary _ _ _ operand => operand.calls
  | .field object _ _ => object.calls
  | .tupleField object _ _ => object.calls
  | .call callee _ args _ => callee.calls ++ args.calls ++ [⟨callee, args⟩]
  | .index object _ position _ => object.calls ++ position.calls
  | .propagate operand _ => operand.calls
  | .paren _ inner _ => inner.calls
  | .unit _ _ => []
  | .tuple _ first _ later _ => first.calls ++ later.calls
  | .array _ elements _ => elements.calls
  | .fill _ value _ count _ => value.calls ++ count.calls
  | .invokeParen _ _ _ args _ => args.calls
  | .invokeBracket _ _ _ args _ => args.calls
  | .path _ => []
  | .literal _ _ => []

/-- The calls in arguments that can be absent. -/
def OptionalArgs.calls : OptionalArgs → List CallSite
  | .absent => []
  | .present args => args.calls

def Args.calls : Args → List CallSite
  | .args first later => first.calls ++ later.calls

/-- The calls in the arguments behind the first one. -/
def LaterArgs.calls : LaterArgs → List CallSite
  | .done => []
  | .trailing _ => []
  | .next _ e later => e.calls ++ later.calls

end

/-- The field access that a derivation is, parentheses around it aside: its object and the name behind the point. -/
def Derivation.field? {n : Nonterminal} : Derivation n → Option (Derivation .postfixExpr × String)
  | .rename _ d => d.field?
  | .paren _ inner _ => inner.field?
  | .field object _ name => some (object, name.text)
  | .tupleField object _ place => some (object, place.text)
  | _ => none

/-- What a written call denotes. -/
inductive CallSite.Denotes : CallSite → Expr Literal → Prop where
  | method {callee object : Derivation .postfixExpr} {args : OptionalArgs} {name : String}
      {receiver : Expr Literal} {as : List (Expr Literal)}
      (isField : callee.field? = some (object, name)) (isName : Expr.isTupleField name = false)
      (isReceiver : object.value = .ok receiver) (areArgs : args.values = .ok as) :
      Denotes ⟨callee, args⟩ (.methodCall receiver name as)
  | place {callee object : Derivation .postfixExpr} {args : OptionalArgs} {name : String}
      {f : Expr Literal} {as : List (Expr Literal)}
      (isField : callee.field? = some (object, name)) (isPlace : Expr.isTupleField name = true)
      (isCallee : callee.value = .ok f) (areArgs : args.values = .ok as) :
      Denotes ⟨callee, args⟩ (.call f as)
  | other {callee : Derivation .postfixExpr} {args : OptionalArgs} {f : Expr Literal}
      {as : List (Expr Literal)} (noField : callee.field? = none)
      (isCallee : callee.value = .ok f) (areArgs : args.values = .ok as) :
      Denotes ⟨callee, args⟩ (.call f as)

/-! ## The field that a callee is -/

/-- Whether an expression is what a field access denotes, if there is one, and otherwise no field access. -/
def Expr.IsAccess (f : Expr Literal) : Option (Derivation .postfixExpr × String) → Prop
  | some (object, name) => ∃ o, object.value = .ok o ∧ f = .field o name
  | none => ∀ object name, f ≠ .field object name

theorem Expr.applied_ne_field {α : Type} (f : Expr α) (as : List (Expr α)) (object : Expr α)
    (name : String) : f.applied as ≠ .field object name := by
  cases f with
  | field object' name' =>
      unfold applied
      dsimp only
      split <;> exact nofun
  | _ => exact nofun

theorem Derivation.isAccess {n : Nonterminal} :
    ∀ d : Derivation n, Returns (·.IsAccess d.field?) d.value
  | .rename _ d => d.isAccess
  | .paren _ inner _ => inner.isAccess
  | .field object _ _ | .tupleField object _ _ =>
      (returns_self object.value).map fun o isObject => ⟨o, isObject, rfl⟩
  | .call callee _ args _ =>
      (returns_self callee.value).map₂ (returns_self args.values) fun f as _ _ =>
        f.applied_ne_field as
  | .closure _ _ _ _ | .emptyClosure _ _ | .cast _ _ _ | .unary _ _ _ _ | .propagate _ _
  | .array _ _ _ | .invokeParen _ _ _ _ _ | .invokeBracket _ _ _ _ _ | .literal _ _ =>
      (returns_self _).map fun _ _ => nofun
  | .binary _ _ _ _ _ | .index _ _ _ _ | .tuple _ _ _ _ _ | .fill _ _ _ _ _ =>
      (returns_self _).map₂ (returns_self _) fun _ _ _ _ => nofun
  | .unit _ _ | .path _ => returns_pure nofun

/-! ## The calls of an expression -/

theorem CallSite.denotes_applied {callee : Derivation .postfixExpr} {args : OptionalArgs}
    {f : Expr Literal} {as : List (Expr Literal)} (isCallee : callee.value = .ok f)
    (areArgs : args.values = .ok as) : CallSite.Denotes ⟨callee, args⟩ (f.applied as) := by
  have access := callee.isAccess f isCallee
  cases found : callee.field? with
  | none =>
      rw [found] at access
      have isCall : f.applied as = .call f as := by
        cases f with
        | field object name => exact absurd rfl (access object name)
        | _ => rfl
      rw [isCall]
      exact .other found isCallee areArgs
  | some field =>
      obtain ⟨object, name⟩ := field
      rw [found] at access
      obtain ⟨receiver, isReceiver, rfl⟩ := access
      rw [Expr.applied]
      cases place : Expr.isTupleField name with
      | true => exact .place found place isCallee areArgs
      | false => exact .method found place isReceiver areArgs

/-- Whether calls of an expression are those that are written, in order. -/
abbrev AreCalls (sites : List CallSite) (nodes : List (Expr Literal)) : Prop :=
  List.Forall₂ CallSite.Denotes sites nodes

theorem AreCalls.append {sites sites' : List CallSite} {nodes nodes' : List (Expr Literal)}
    (first : AreCalls sites nodes) (second : AreCalls sites' nodes') :
    AreCalls (sites ++ sites') (nodes ++ nodes') :=
  List.rel_append first second

mutual

/-- The calls of the expression that a derivation denotes are those that are written. -/
theorem Derivation.areCalls {n : Nonterminal} :
    ∀ d : Derivation n, Returns (fun e => AreCalls d.calls e.calls) d.value
  | .rename _ d => d.areCalls
  | .closure _ _ _ body | .emptyClosure _ body => body.areCalls.map fun _ calls => calls
  | .binary _ _ left _ right => left.areCalls.map₂ right.areCalls fun _ _ => AreCalls.append
  | .cast operand _ _ | .unary _ _ _ operand | .propagate operand _ =>
      operand.areCalls.map fun _ calls => calls
  | .field object _ _ | .tupleField object _ _ => object.areCalls.map fun _ calls => calls
  | .call callee _ args _ => by
      refine (returns_self callee.value).map₂ (returns_self args.values) fun f as isCallee areArgs => ?_
      have inCallee := callee.areCalls f isCallee
      have inArgs := args.areCalls as areArgs
      have itself : AreCalls [⟨callee, args⟩] [f.applied as] :=
        .cons (CallSite.denotes_applied isCallee areArgs) .nil
      rw [Expr.calls_applied]
      exact (inCallee.append inArgs).append itself
  | .index object _ position _ =>
      object.areCalls.map₂ position.areCalls fun _ _ => AreCalls.append
  | .paren _ inner _ => inner.areCalls
  | .unit _ _ | .path _ => returns_pure .nil
  | .tuple _ first _ later _ => first.areCalls.map₂ later.areCalls fun _ _ => AreCalls.append
  | .array _ elements _ => elements.areCalls.map fun _ calls => calls
  | .fill _ value _ count _ => value.areCalls.map₂ count.areCalls fun _ _ => AreCalls.append
  | .invokeParen _ _ _ args _ | .invokeBracket _ _ _ args _ =>
      args.areCalls.map fun _ calls => calls
  | .literal _ _ => (returns_self _).map fun _ _ => .nil

theorem OptionalArgs.areCalls :
    ∀ args : OptionalArgs, Returns (fun es => AreCalls args.calls (Expr.callsAll es)) args.values
  | .absent => returns_pure .nil
  | .present args => args.areCalls

theorem Args.areCalls :
    ∀ args : Args, Returns (fun es => AreCalls args.calls (Expr.callsAll es)) args.values
  | .args first later => first.areCalls.map₂ later.areCalls fun _ _ => AreCalls.append

theorem LaterArgs.areCalls :
    ∀ later : LaterArgs, Returns (fun es => AreCalls later.calls (Expr.callsAll es)) later.values
  | .done | .trailing _ => returns_pure .nil
  | .next _ e later => e.areCalls.map₂ later.areCalls fun _ _ => AreCalls.append

end

/-- Of trees that are read as an expression, each written call is one call of the expression, in order: a method call
exactly if its callee accesses a field, parentheses aside, whose name is not all digits. -/
theorem Expr.calls_of_ofTrees (trees : List Tree) (finish : Position) (e : Expr Literal)
    (read : Expr.ofTrees trees finish = .ok e) :
    ∃ d : Derivation .start, d.terminals = Terminal.ofTrees trees ∧ d.value = .ok e ∧
      List.Forall₂ CallSite.Denotes d.calls e.calls := by
  obtain ⟨d, sameTerminals, value⟩ := Expr.ofTrees_eq_ok_iff.1 read
  exact ⟨d, sameTerminals, value, d.areCalls e value⟩

/-- The call in `(r.f)(a)` is a method call, though its callee is in parentheses. -/
theorem Expr.calls_of_ofTrees_parenthesised :
    ∃ d : Derivation .start, d.terminals = Terminal.ofTrees
      [.group .paren ⟨1, 1⟩ ⟨1, 5⟩ [.token ⟨.ident, "r", ⟨1, 2⟩, false⟩,
        .token ⟨.dot, ".", ⟨1, 3⟩, false⟩, .token ⟨.ident, "f", ⟨1, 4⟩, false⟩],
        .group .paren ⟨1, 6⟩ ⟨1, 8⟩ [.token ⟨.ident, "a", ⟨1, 7⟩, false⟩]] ∧
      List.Forall₂ CallSite.Denotes d.calls
        [.methodCall (.path ⟨"r", [], ⟨1, 2⟩⟩) "f" [.path ⟨"a", [], ⟨1, 7⟩⟩]] := by
  obtain ⟨d, sameTerminals, -, areCalls⟩ := Expr.calls_of_ofTrees
    [.group .paren ⟨1, 1⟩ ⟨1, 5⟩ [.token ⟨.ident, "r", ⟨1, 2⟩, false⟩,
      .token ⟨.dot, ".", ⟨1, 3⟩, false⟩, .token ⟨.ident, "f", ⟨1, 4⟩, false⟩],
      .group .paren ⟨1, 6⟩ ⟨1, 8⟩ [.token ⟨.ident, "a", ⟨1, 7⟩, false⟩]] ⟨1, 9⟩ _ rfl
  exact ⟨d, sameTerminals, areCalls⟩

/-- Not every method call is written with a name behind the point: that of `x.0u8()` has a place in a tuple there. -/
theorem Expr.calls_suffixedPlace :
    ¬∀ (trees : List Tree) (finish : Position) (e : Expr Literal) (d : Derivation .start),
      Expr.ofTrees trees finish = .ok e → d.terminals = Terminal.ofTrees trees →
        List.Forall₂ (fun site node =>
          (∃ object dot name, site.callee = .field object dot name) ↔
            ∃ receiver name as, node = .methodCall receiver name as) d.calls e.calls := by
  intro every
  let x : Derivation .postfixExpr :=
    .rename .postfixExpr (.rename .path (.path ⟨⟨"x", ⟨1, 1⟩⟩, []⟩))
  let callee : Derivation .postfixExpr := .tupleField x ⟨".", ⟨1, 2⟩⟩ ⟨"0u8", ⟨1, 3⟩⟩
  have claimed := every
    [.token ⟨.ident, "x", ⟨1, 1⟩, false⟩, .token ⟨.dot, ".", ⟨1, 2⟩, false⟩,
      .token ⟨.int, "0u8", ⟨1, 3⟩, false⟩, .group .paren ⟨1, 6⟩ ⟨1, 7⟩ []] ⟨1, 8⟩
    (.methodCall (.path ⟨"x", [], ⟨1, 1⟩⟩) "0u8" [])
    (.ofPostfix (.call callee ⟨"(", ⟨1, 6⟩⟩ .absent ⟨")", ⟨1, 7⟩⟩)) rfl rfl
  obtain ⟨same, -⟩ := List.forall₂_cons.1 claimed
  obtain ⟨object, dot, name, written⟩ := same.2 ⟨_, _, _, rfl⟩
  cases written

end AttrGrammar
