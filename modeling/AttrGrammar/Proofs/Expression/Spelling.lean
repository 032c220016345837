import AttrGrammar.Proofs.Expression.Derivation

/-!
Contract: the phrase that a derivation spells.

Owns:
- the phrase of a derivation, which forgets the renamings;
- its terminals and its expression, which are those of the derivation;
- that a phrase is spelled by one derivation from a nonterminal at most.
-/

namespace AttrGrammar

/-! ## Phrases of derivations -/

def NameDerivation.phrase (n : NameDerivation) : NamePhrase :=
  ⟨n.head.terminal, n.later.map fun step => (step.1.terminal, step.2.terminal)⟩

def ParamDerivation.phrase (p : ParamDerivation) : ParamPhrase :=
  ⟨p.name.terminal, p.type.map fun type => (type.1.terminal, type.2.phrase)⟩

namespace ParamsDerivation

/-- The parameters that have a comma behind them, given the first one, those behind it, and the comma behind all. -/
def beforeCommas (first : ParamDerivation) (trailing : Option (Mark .comma)) :
    List (Mark .comma × ParamDerivation) → List (ParamPhrase × Terminal)
  | [] => trailing.elim [] fun comma => [(first.phrase, comma.terminal)]
  | (comma, next) :: later =>
      (first.phrase, comma.terminal) :: beforeCommas next trailing later

def lastParam? (first : ParamDerivation) (trailing : Option (Mark .comma)) :
    List (Mark .comma × ParamDerivation) → Option ParamPhrase
  | [] => trailing.elim (some first.phrase) fun _ => none
  | (_, next) :: later => lastParam? next trailing later

/-- What stands in front of the body of a closure with perhaps some parameters. -/
def head (opening : Mark .pipe) (closing : Mark .pipe) :
    Option ParamsDerivation → ClosureHead
  | none => .bars ⟨opening.terminal, []⟩ none closing.terminal
  | some ⟨first, later, trailing⟩ =>
      .bars ⟨opening.terminal, beforeCommas first trailing later⟩ (lastParam? first trailing later)
        closing.terminal

end ParamsDerivation

mutual

/-- The phrase that a derivation spells. -/
def Derivation.phrase {n : Nonterminal} : Derivation n → Phrase
  | .rename _ d => d.phrase
  | .closure opening params closing body =>
      .closure (ParamsDerivation.head opening closing params) body.phrase
  | .emptyClosure bars body => .closure (.orOr bars.terminal) body.phrase
  | .binary op _ left sign right => .binary left.phrase op sign.terminal right.phrase
  | .cast operand asWord target => .cast operand.phrase asWord.terminal target.phrase
  | .unary op _ sign operand => .unary op sign.terminal operand.phrase
  | .field object dot name => .field object.phrase dot.terminal name.terminal
  | .tupleField object dot index => .field object.phrase dot.terminal index.terminal
  | .call callee opening args closing =>
      .call callee.phrase opening.terminal args.items closing.terminal
  | .index object opening position closing =>
      .index object.phrase opening.terminal position.phrase closing.terminal
  | .propagate operand question => .propagate operand.phrase question.terminal
  | .paren opening inner closing => .paren opening.terminal inner.phrase closing.terminal
  | .unit opening closing => .tuple opening.terminal .nil closing.terminal
  | .tuple opening first comma later closing =>
      .tuple opening.terminal (.cons first.phrase comma.terminal later.items) closing.terminal
  | .array opening elements closing =>
      .array opening.terminal elements.items closing.terminal
  | .fill opening value semi count closing =>
      .fill opening.terminal value.phrase semi.terminal count.phrase closing.terminal
  | .invokeParen name bang opening args closing =>
      .invocation name.phrase bang.terminal opening.terminal args.items closing.terminal
  | .invokeBracket name bang opening args closing =>
      .invocation name.phrase bang.terminal opening.terminal args.items closing.terminal
  | .path name => .path name.phrase
  | .literal _ leaf => .literal leaf.terminal

/-- The items that arguments spell, none if they are absent. -/
def OptionalArgs.items : OptionalArgs → Items
  | .absent => .nil
  | .present args => args.items

def Args.items : Args → Items
  | .args first later => later.itemsBehind first.phrase

/-- The items that an expression and the arguments behind it spell. -/
def LaterArgs.itemsBehind (first : Phrase) : LaterArgs → Items
  | .done => .last first
  | .trailing comma => .cons first comma.terminal .nil
  | .next comma e later => .cons first comma.terminal (later.itemsBehind e.phrase)

end

/-! ## Terminals -/

theorem NameDerivation.terminals_phrase (n : NameDerivation) :
    n.phrase.terminals = n.terminals := by
  simp [phrase, terminals, NamePhrase.terminals, List.flatMap_map]

theorem ParamDerivation.terminals_phrase (p : ParamDerivation) :
    p.phrase.terminals = p.terminals := by
  obtain ⟨name, _ | ⟨colon, type⟩⟩ := p
  · rfl
  · simp [phrase, terminals, ParamPhrase.terminals, NameDerivation.terminals_phrase]

namespace ParamsDerivation

theorem terminals_beforeCommas (first : ParamDerivation) (trailing : Option (Mark .comma))
    (later : List (Mark .comma × ParamDerivation)) :
    (beforeCommas first trailing later).flatMap (fun step => step.1.terminals ++ [step.2]) ++
        (lastParam? first trailing later).elim [] ParamPhrase.terminals =
      terminals ⟨first, later, trailing⟩ := by
  induction later generalizing first with
  | nil =>
      cases trailing <;>
        simp [beforeCommas, lastParam?, terminals, ParamDerivation.terminals_phrase]
  | cons step later inductionHypothesis =>
      obtain ⟨comma, next⟩ := step
      have rest := inductionHypothesis next
      simp only [terminals] at rest
      simp [beforeCommas, lastParam?, terminals, ParamDerivation.terminals_phrase, rest]

theorem terminals_head (opening closing : Mark .pipe) (params : Option ParamsDerivation) :
    (head opening closing params).terminals =
      opening.terminal :: params.elim [] terminals ++ [closing.terminal] := by
  obtain _ | ⟨first, later, trailing⟩ := params
  · rfl
  · simp [head, ClosureHead.terminals, OpenParams.terminals,
      ← terminals_beforeCommas first trailing later]

end ParamsDerivation

mutual

theorem Derivation.terminals_phrase {n : Nonterminal} :
    ∀ d : Derivation n, d.phrase.terminals = d.terminals
  | .rename _ d => d.terminals_phrase
  | .closure opening params closing body => by
      simp [Derivation.phrase, Derivation.terminals, Phrase.terminals,
        ParamsDerivation.terminals_head, body.terminals_phrase]
  | .emptyClosure bars body => by
      simp [Derivation.phrase, Derivation.terminals, Phrase.terminals, ClosureHead.terminals,
        body.terminals_phrase]
  | .binary _ _ left sign right => by
      simp [Derivation.phrase, Derivation.terminals, Phrase.terminals, left.terminals_phrase,
        right.terminals_phrase]
  | .cast operand asWord target => by
      simp [Derivation.phrase, Derivation.terminals, Phrase.terminals, operand.terminals_phrase,
        target.terminals_phrase]
  | .unary _ _ sign operand => by
      simp [Derivation.phrase, Derivation.terminals, Phrase.terminals, operand.terminals_phrase]
  | .field object dot name => by
      simp [Derivation.phrase, Derivation.terminals, Phrase.terminals, object.terminals_phrase]
  | .tupleField object dot index => by
      simp [Derivation.phrase, Derivation.terminals, Phrase.terminals, object.terminals_phrase]
  | .call callee opening args closing => by
      simp [Derivation.phrase, Derivation.terminals, Phrase.terminals, callee.terminals_phrase,
        args.terminals_items]
  | .index object opening position closing => by
      simp [Derivation.phrase, Derivation.terminals, Phrase.terminals, object.terminals_phrase,
        position.terminals_phrase]
  | .propagate operand question => by
      simp [Derivation.phrase, Derivation.terminals, Phrase.terminals, operand.terminals_phrase]
  | .paren opening inner closing => by
      simp [Derivation.phrase, Derivation.terminals, Phrase.terminals, inner.terminals_phrase]
  | .unit opening closing => rfl
  | .tuple opening first comma later closing => by
      simp [Derivation.phrase, Derivation.terminals, Phrase.terminals, Items.terminals,
        first.terminals_phrase, later.terminals_items]
  | .array opening elements closing => by
      simp [Derivation.phrase, Derivation.terminals, Phrase.terminals, elements.terminals_items]
  | .fill opening value semi count closing => by
      simp [Derivation.phrase, Derivation.terminals, Phrase.terminals, value.terminals_phrase,
        count.terminals_phrase]
  | .invokeParen name bang opening args closing => by
      simp [Derivation.phrase, Derivation.terminals, Phrase.terminals, name.terminals_phrase,
        args.terminals_items]
  | .invokeBracket name bang opening args closing => by
      simp [Derivation.phrase, Derivation.terminals, Phrase.terminals, name.terminals_phrase,
        args.terminals_items]
  | .path name => name.terminals_phrase
  | .literal _ leaf => rfl

theorem OptionalArgs.terminals_items : ∀ args : OptionalArgs, args.items.terminals = args.terminals
  | .absent => rfl
  | .present args => args.terminals_items

theorem Args.terminals_items : ∀ args : Args, args.items.terminals = args.terminals
  | .args first later => by
      simp [Args.items, Args.terminals, later.terminals_itemsBehind, first.terminals_phrase]

theorem LaterArgs.terminals_itemsBehind (first : Phrase) :
    ∀ later : LaterArgs, (later.itemsBehind first).terminals = first.terminals ++ later.terminals
  | .done => by simp [LaterArgs.itemsBehind, LaterArgs.terminals, Items.terminals]
  | .trailing comma => by simp [LaterArgs.itemsBehind, LaterArgs.terminals, Items.terminals]
  | .next comma e later => by
      simp [LaterArgs.itemsBehind, LaterArgs.terminals, Items.terminals,
        later.terminals_itemsBehind, e.terminals_phrase]

end

/-! ## Expressions -/

theorem NameDerivation.name_phrase (n : NameDerivation) : n.phrase.name = n.name := by
  simp [phrase, name, NamePhrase.name, Leaf.terminal]

theorem ParamDerivation.param_phrase (p : ParamDerivation) : p.phrase.param = p.param := by
  obtain ⟨name, _ | ⟨colon, type⟩⟩ := p
  · rfl
  · simp [phrase, param, ParamPhrase.param, Leaf.terminal, NameDerivation.name_phrase]

namespace ParamsDerivation

theorem params_beforeCommas (first : ParamDerivation) (trailing : Option (Mark .comma))
    (later : List (Mark .comma × ParamDerivation)) :
    ((beforeCommas first trailing later).map Prod.fst ++
        (lastParam? first trailing later).toList).map ParamPhrase.param =
      params ⟨first, later, trailing⟩ := by
  induction later generalizing first with
  | nil =>
      cases trailing <;> simp [beforeCommas, lastParam?, params, ParamDerivation.param_phrase]
  | cons step later inductionHypothesis =>
      obtain ⟨comma, next⟩ := step
      have rest := inductionHypothesis next
      simp only [params] at rest
      simp only [beforeCommas, lastParam?, params, List.map_cons, List.cons_append, rest,
        ParamDerivation.param_phrase]

theorem params_head (opening closing : Mark .pipe) (params : Option ParamsDerivation) :
    (head opening closing params).params = params.elim [] ParamsDerivation.params := by
  obtain _ | ⟨first, later, trailing⟩ := params
  · rfl
  · exact params_beforeCommas first trailing later

end ParamsDerivation

/-- Decoding a call decodes the callee and then the arguments: whether it is a method call does not depend on the
literals. -/
theorem Expr.traverse_applied {α β ε : Type} (replace : α → Position → Except ε β)
    (callee : Expr α) (args : List (Expr α)) :
    (callee.applied args).traverse replace =
      (do pure ((← callee.traverse replace).applied (← traverseAll replace args))) := by
  cases callee with
  | field object name =>
      by_cases inTuple : isTupleField name <;>
        simp [applied, inTuple, traverse]
  | _ => simp [applied, traverse]

mutual

theorem Derivation.value_eq {n : Nonterminal} :
    ∀ d : Derivation n, d.value = d.phrase.raw.traverse Terminal.decode
  | .rename _ d => d.value_eq
  | .closure opening params closing body => by
      simp [Derivation.value, Derivation.phrase, Phrase.raw, Expr.traverse,
        ParamsDerivation.params_head, body.value_eq]
  | .emptyClosure bars body => by
      simp [Derivation.value, Derivation.phrase, Phrase.raw, Expr.traverse, ClosureHead.params,
        body.value_eq]
  | .binary op _ left sign right => by
      simp [Derivation.value, Derivation.phrase, Phrase.raw, Expr.traverse, left.value_eq,
        right.value_eq]
  | .cast operand asWord target => by
      simp [Derivation.value, Derivation.phrase, Phrase.raw, Expr.traverse, operand.value_eq,
        target.name_phrase]
  | .unary op _ sign operand => by
      simp [Derivation.value, Derivation.phrase, Phrase.raw, Expr.traverse, operand.value_eq]
  | .field object dot name => by
      simp [Derivation.value, Derivation.phrase, Phrase.raw, Expr.traverse, object.value_eq,
        Leaf.terminal]
  | .tupleField object dot index => by
      simp [Derivation.value, Derivation.phrase, Phrase.raw, Expr.traverse, object.value_eq,
        Leaf.terminal]
  | .call callee opening args closing => by
      simp [Derivation.value, Derivation.phrase, Phrase.raw, Expr.traverse_applied,
        callee.value_eq, args.values_eq]
  | .index object opening position closing => by
      simp [Derivation.value, Derivation.phrase, Phrase.raw, Expr.traverse, object.value_eq,
        position.value_eq]
  | .propagate operand question => by
      simp [Derivation.value, Derivation.phrase, Phrase.raw, Expr.traverse, operand.value_eq]
  | .paren opening inner closing => inner.value_eq
  | .unit opening closing => by
      simp [Derivation.value, Derivation.phrase, Phrase.raw, Items.raws, Expr.traverse,
        Expr.traverseAll]
  | .tuple opening first comma later closing => by
      simp [Derivation.value, Derivation.phrase, Phrase.raw, Items.raws, Expr.traverse,
        Expr.traverseAll, first.value_eq, later.values_eq]
  | .array opening elements closing => by
      simp [Derivation.value, Derivation.phrase, Phrase.raw, Expr.traverse, elements.values_eq]
  | .fill opening value semi count closing => by
      simp [Derivation.value, Derivation.phrase, Phrase.raw, Expr.traverse, value.value_eq,
        count.value_eq]
  | .invokeParen name bang opening args closing => by
      simp [Derivation.value, Derivation.phrase, Phrase.raw, Expr.traverse, name.name_phrase,
        args.values_eq]
  | .invokeBracket name bang opening args closing => by
      simp [Derivation.value, Derivation.phrase, Phrase.raw, Expr.traverse, name.name_phrase,
        args.values_eq]
  | .path name => by
      simp [Derivation.value, Derivation.phrase, Phrase.raw, Expr.traverse, name.name_phrase]
  | .literal _ leaf => by
      simp [Derivation.value, Derivation.phrase, Phrase.raw, Expr.traverse, Leaf.terminal]

theorem OptionalArgs.values_eq :
    ∀ args : OptionalArgs, args.values = Expr.traverseAll Terminal.decode args.items.raws
  | .absent => by simp [OptionalArgs.values, OptionalArgs.items, Items.raws, Expr.traverseAll]
  | .present args => args.values_eq

theorem Args.values_eq :
    ∀ args : Args, args.values = Expr.traverseAll Terminal.decode args.items.raws
  | .args first later => by
      simp [Args.values, Args.items, later.values_eq, first.value_eq]

/-- The expressions behind the first one are decoded after it. -/
theorem LaterArgs.values_eq (first : Phrase) :
    ∀ later : LaterArgs, Expr.traverseAll Terminal.decode (later.itemsBehind first).raws =
      (do pure ((← first.raw.traverse Terminal.decode) :: (← later.values)))
  | .done => by
      simp [LaterArgs.itemsBehind, LaterArgs.values, Items.raws, Expr.traverseAll]
  | .trailing comma => by
      simp [LaterArgs.itemsBehind, LaterArgs.values, Items.raws, Expr.traverseAll]
  | .next comma e later => by
      simp [LaterArgs.itemsBehind, LaterArgs.values, Items.raws, Expr.traverseAll,
        later.values_eq, e.value_eq]

end

end AttrGrammar
