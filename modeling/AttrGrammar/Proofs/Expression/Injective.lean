import AttrGrammar.Proofs.Expression.Spelling

/-!
Contract: a phrase is spelled by one derivation from a nonterminal at most.

Owns:
- how tightly a phrase binds, and how tightly the phrases of a nonterminal do;
- the injectivity of the phrases of names, parameters, derivations and arguments.

Only the renamings of a nonterminal are forgotten by a phrase, and they are told by its outermost construct: what
a nonterminal is renamed to binds more tightly than its other productions do.
-/

namespace AttrGrammar

/-! ## Names and parameters -/

theorem Leaf.terminal_injective {s : Symbol} : Function.Injective (Leaf.terminal (s := s)) := by
  rintro ⟨text, position⟩ ⟨text', position'⟩ same
  simp only [Leaf.terminal, Terminal.mk.injEq, true_and] at same
  obtain ⟨rfl, rfl⟩ := same
  rfl

@[simp] theorem Leaf.terminal_inj {s : Symbol} {a b : Leaf s} :
    a.terminal = b.terminal ↔ a = b :=
  ⟨fun same => terminal_injective same, congrArg _⟩

theorem NameDerivation.phrase_injective : Function.Injective NameDerivation.phrase := by
  rintro ⟨head, later⟩ ⟨head', later'⟩ same
  simp only [phrase, NamePhrase.mk.injEq, Leaf.terminal_inj] at same
  obtain ⟨rfl, same⟩ := same
  have step (a b : Mark .pathSep × Mark .ident)
      (h : (a.1.terminal, a.2.terminal) = (b.1.terminal, b.2.terminal)) : a = b := by
    simpa [Prod.ext_iff] using h
  rw [(List.map_inj_right step).1 same]

@[simp] theorem NameDerivation.phrase_inj {a b : NameDerivation} : a.phrase = b.phrase ↔ a = b :=
  ⟨fun same => phrase_injective same, congrArg _⟩

theorem ParamDerivation.phrase_injective : Function.Injective ParamDerivation.phrase := by
  rintro ⟨name, type⟩ ⟨name', type'⟩ same
  cases type <;> cases type' <;> simp_all [phrase, Prod.ext_iff]

@[simp] theorem ParamDerivation.phrase_inj {a b : ParamDerivation} : a.phrase = b.phrase ↔ a = b :=
  ⟨fun same => phrase_injective same, congrArg _⟩

namespace ParamsDerivation

theorem last_of_beforeCommas_nil {first : ParamDerivation} {trailing : Option (Mark .comma)}
    {later : List (Mark .comma × ParamDerivation)} (none : beforeCommas first trailing later = []) :
    trailing = .none ∧ later = [] := by
  cases later with
  | nil => cases trailing <;> simp_all [beforeCommas]
  | cons step later => simp [beforeCommas] at none

theorem series_injective {first first' : ParamDerivation} {trailing trailing' : Option (Mark .comma)}
    {later later' : List (Mark .comma × ParamDerivation)}
    (sameBefore : beforeCommas first trailing later = beforeCommas first' trailing' later')
    (sameLast : lastParam? first trailing later = lastParam? first' trailing' later') :
    first = first' ∧ later = later' ∧ trailing = trailing' := by
  induction later generalizing first first' later' with
  | nil =>
      cases later' with
      | nil => cases trailing <;> cases trailing' <;> simp_all [beforeCommas, lastParam?]
      | cons step' later' =>
          cases trailing with
          | none => simp [beforeCommas] at sameBefore
          | some comma =>
              simp only [beforeCommas, Option.elim_some, List.cons.injEq] at sameBefore
              obtain ⟨rfl, rfl⟩ := last_of_beforeCommas_nil sameBefore.2.symm
              simp [lastParam?] at sameLast
  | cons step later inductionHypothesis =>
      cases later' with
      | nil =>
          cases trailing' with
          | none => simp [beforeCommas] at sameBefore
          | some comma =>
              simp only [beforeCommas, Option.elim_some, List.cons.injEq] at sameBefore
              obtain ⟨rfl, rfl⟩ := last_of_beforeCommas_nil sameBefore.2
              simp [lastParam?] at sameLast
      | cons step' later' =>
          simp only [beforeCommas, List.cons.injEq, Prod.mk.injEq, ParamDerivation.phrase_inj,
            Leaf.terminal_inj] at sameBefore
          obtain ⟨⟨rfl, sameComma⟩, sameBefore⟩ := sameBefore
          obtain ⟨sameNext, rfl, rfl⟩ := inductionHypothesis sameBefore sameLast
          exact ⟨rfl, by rw [Prod.ext sameComma sameNext], rfl⟩

theorem head_injective {opening opening' closing closing' : Mark .pipe}
    {params params' : Option ParamsDerivation}
    (same : head opening closing params = head opening' closing' params') :
    opening = opening' ∧ params = params' ∧ closing = closing' := by
  obtain _ | ⟨first, later, trailing⟩ := params <;>
    obtain _ | ⟨first', later', trailing'⟩ := params' <;>
    simp only [head, ClosureHead.bars.injEq, OpenParams.mk.injEq, Leaf.terminal_inj] at same
  · exact ⟨same.1.1, rfl, same.2.2⟩
  · obtain ⟨rfl, rfl⟩ := last_of_beforeCommas_nil same.1.2.symm
    simp [lastParam?] at same
  · obtain ⟨rfl, rfl⟩ := last_of_beforeCommas_nil same.1.2
    simp [lastParam?] at same
  · obtain ⟨rfl, rfl, rfl⟩ := series_injective same.1.2 same.2.1
    exact ⟨same.1.1, rfl, same.2.2⟩

end ParamsDerivation


/-! ## Tightness -/

/-- How tightly a phrase binds, by its outermost construct. -/
def Phrase.tightness : Phrase → Nat
  | .closure .. => 0
  | .binary _ op _ _ => op.level
  | .cast .. => 10
  | .unary .. => 11
  | .field .. | .call .. | .index .. | .propagate .. => 12
  | .paren .. | .tuple .. | .array .. | .fill .. => 13
  | .literal _ | .path _ | .invocation .. => 14

/-- How tightly the phrases of a nonterminal bind at least. -/
def Nonterminal.tightness : Nonterminal → Nat
  | .start | .expr | .closure => 0
  | .orExpr => 1
  | .andExpr => 2
  | .cmpExpr => 3
  | .bitOrExpr => 4
  | .bitXorExpr => 5
  | .bitAndExpr => 6
  | .shiftExpr => 7
  | .sumExpr => 8
  | .productExpr => 9
  | .castExpr => 10
  | .unaryExpr => 11
  | .postfixExpr => 12
  | .primaryExpr => 13
  | .invocation | .path | .literal => 14

theorem Renames.tightness_le {n m : Nonterminal} (rule : Renames n m) :
    n.tightness ≤ m.tightness := by
  cases rule <;> decide

theorem Infixes.tightness_eq {n l r : Nonterminal} {s : Symbol} {op : BinaryOp}
    (rule : Infixes n l s r op) : n.tightness = op.level := by
  cases rule <;> rfl

theorem Derivation.tightness_le {n : Nonterminal} (d : Derivation n) :
    n.tightness ≤ d.phrase.tightness := by
  match d with
  | .rename rule d => exact Nat.le_trans rule.tightness_le d.tightness_le
  | .binary _ rule _ _ _ => exact Nat.le_of_eq rule.tightness_eq
  | .closure .. | .emptyClosure .. | .cast .. | .unary .. | .field .. | .tupleField .. | .call ..
  | .index .. | .propagate .. | .paren .. | .unit .. | .tuple .. | .array .. | .fill ..
  | .invokeParen .. | .invokeBracket .. | .path _ | .literal .. => exact Nat.le_refl _

/-- Two productions of one sign for one nonterminal are the same. -/
theorem Infixes.operands_eq {n l r l' r' : Nonterminal} {s : Symbol} {op : BinaryOp}
    (rule : Infixes n l s r op) (rule' : Infixes n l' s r' op) : l = l' ∧ r = r' := by
  cases rule <;> cases rule' <;> exact ⟨rfl, rfl⟩

theorem Leaf.heq_of_terminal_eq {s s' : Symbol} {a : Leaf s} {b : Leaf s'}
    (same : a.terminal = b.terminal) : s = s' ∧ HEq a b := by
  obtain rfl : s = s' := congrArg Terminal.symbol same
  exact ⟨rfl, heq_of_eq (Leaf.terminal_injective same)⟩

/-! ## Renamings -/

/-- A derivation whose phrase is spelled by a renaming is a renaming: all other productions of a nonterminal bind
just as tightly as it does, and what it is renamed to binds more tightly. -/
theorem Derivation.rename_of_phrase_eq {n m : Nonterminal} (rule : Renames n m)
    {d : Derivation m} {d' : Derivation n} (same : d.phrase = d'.phrase) :
    ∃ (m' : Nonterminal) (rule' : Renames n m') (d'' : Derivation m'), d' = .rename rule' d'' := by
  have atLeast : m.tightness ≤ d'.phrase.tightness := same ▸ d.tightness_le
  cases d' with
  | rename rule' d'' => exact ⟨_, rule', d'', rfl⟩
  | binary op rule' =>
      have own := rule'.tightness_eq
      simp only [phrase, Phrase.tightness] at atLeast
      cases rule <;> cases rule' <;> simp [Nonterminal.tightness, BinaryOp.level] at atLeast
  | _ => cases rule <;> simp [phrase, Phrase.tightness, Nonterminal.tightness] at atLeast

/-- Whether a derivation starts with a renaming. -/
def Derivation.isRename {n : Nonterminal} : Derivation n → Bool
  | .rename .. => true
  | _ => false

theorem Derivation.isRename_of_phrase_eq {n m : Nonterminal} (rule : Renames n m)
    {d : Derivation m} {d' : Derivation n} (same : d.phrase = d'.phrase) : d'.isRename = true := by
  obtain ⟨m', rule', d'', rfl⟩ := rename_of_phrase_eq rule same
  rfl

/-- The nonterminal without other phrases that a phrase belongs to, if any. -/
def Phrase.root? : Phrase → Option Nonterminal
  | .closure .. => some .closure
  | .literal _ => some .literal
  | .path _ => some .path
  | .invocation .. => some .invocation
  | _ => none

theorem Derivation.root?_phrase {n : Nonterminal} (d : Derivation n)
    (rooted : n = .closure ∨ n = .literal ∨ n = .path ∨ n = .invocation) :
    d.phrase.root? = some n := by
  cases d with
  | rename rule | binary _ rule => cases rule <;> simp at rooted
  | closure | emptyClosure | literal | path | invokeParen | invokeBracket => rfl
  | _ => simp at rooted

theorem Derivation.root?_phrase_ne_closure (d : Derivation .orExpr) :
    d.phrase.root? ≠ some .closure := by
  have tight := d.tightness_le
  cases shape : d.phrase <;>
    simp_all [Phrase.root?, Phrase.tightness, Nonterminal.tightness]

/-- The phrase tells what a nonterminal was renamed to. -/
theorem Derivation.renamed_eq {n m m' : Nonterminal} (rule : Renames n m) (rule' : Renames n m')
    {d : Derivation m} {d' : Derivation m'} (same : d.phrase = d'.phrase) : m = m' := by
  have root := d.root?_phrase
  have root' := d'.root?_phrase
  rw [same] at root
  cases rule <;> cases rule' <;> try rfl
  -- Left are the nonterminals with several renamings: `expr` and `primaryExpr`.
  · exact absurd (same ▸ root' (by simp)) d.root?_phrase_ne_closure
  · exact absurd (root (by simp)) d'.root?_phrase_ne_closure
  all_goals simp_all

/-! ## Derivations -/

/-- Whether a derivation is the only one of its nonterminal that spells its phrase. -/
def Derivation.IsDetermined {n : Nonterminal} (d : Derivation n) : Prop :=
  ∀ d' : Derivation n, d.phrase = d'.phrase → d = d'

/-- Whether arguments are the only ones that make up their items. -/
def OptionalArgs.AreDetermined (args : OptionalArgs) : Prop :=
  ∀ args' : OptionalArgs, args.items = args'.items → args = args'

/-- Whether arguments behind a first one are the only ones that make up their items, with this first one. -/
def LaterArgs.AreDetermined (later : LaterArgs) : Prop :=
  ∀ {first first' : Phrase} (later' : LaterArgs),
    later.itemsBehind first = later'.itemsBehind first' → first = first' ∧ later = later'

namespace Derivation.IsDetermined

section Operators

theorem rename {n m : Nonterminal} {d : Derivation m} (determined : d.IsDetermined) (rule : Renames n m) :
    (Derivation.rename rule d).IsDetermined := by
  intro d' same
  obtain ⟨m', rule', d'', rfl⟩ := Derivation.rename_of_phrase_eq rule same
  obtain rfl := Derivation.renamed_eq rule rule' same
  rw [determined d'' same]

theorem closure {body : Derivation .expr} (determined : body.IsDetermined) (opening closing : Mark .pipe)
    (params : Option ParamsDerivation) : (Derivation.closure opening params closing body).IsDetermined := by
  intro d' same
  cases d' with
  | closure opening' params' closing' body' =>
      simp only [Derivation.phrase, Phrase.closure.injEq] at same
      obtain ⟨rfl, rfl, rfl⟩ := ParamsDerivation.head_injective same.1
      rw [determined body' same.2]
  | emptyClosure => cases params <;> simp [Derivation.phrase, ParamsDerivation.head] at same
  | rename rule | binary _ rule => cases rule

theorem emptyClosure {body : Derivation .expr} (determined : body.IsDetermined) (bars : Mark .orOr) :
    (Derivation.emptyClosure bars body).IsDetermined := by
  intro d' same
  cases d' with
  | emptyClosure bars' body' =>
      simp only [Derivation.phrase, Phrase.closure.injEq, ClosureHead.orOr.injEq,
        Leaf.terminal_inj] at same
      rw [same.1, determined body' same.2]
  | closure _ params => cases params <;> simp [Derivation.phrase, ParamsDerivation.head] at same
  | rename rule | binary _ rule => cases rule

theorem binary {n l r : Nonterminal} {s : Symbol} {op : BinaryOp} {left : Derivation l} {right : Derivation r}
    (determinedLeft : left.IsDetermined) (determinedRight : right.IsDetermined) (rule : Infixes n l s r op)
    (sign : Leaf s) : (Derivation.binary op rule left sign right).IsDetermined := by
  intro d' same
  cases d' with
  | binary op' rule' left' sign' right' =>
      simp only [Derivation.phrase, Phrase.binary.injEq] at same
      obtain ⟨sameLeft, rfl, sameSign, sameRight⟩ := same
      obtain ⟨rfl, sameSign⟩ := Leaf.heq_of_terminal_eq sameSign
      obtain ⟨rfl, rfl⟩ := rule.operands_eq rule'
      rw [determinedLeft left' sameLeft, determinedRight right' sameRight, eq_of_heq sameSign]
  | rename rule' d' => cases Derivation.isRename_of_phrase_eq rule' same.symm
  | _ => simp only [Derivation.phrase, reduceCtorEq] at same

theorem cast {operand : Derivation .castExpr} (determined : operand.IsDetermined) (asWord : Leaf .asWord)
    (target : NameDerivation) : (Derivation.cast operand asWord target).IsDetermined := by
  intro d' same
  cases d' with
  | cast operand' asWord' target' =>
      simp only [Derivation.phrase, Phrase.cast.injEq, Leaf.terminal_inj,
        NameDerivation.phrase_inj] at same
      obtain ⟨sameOperand, rfl, rfl⟩ := same
      rw [determined operand' sameOperand]
  | rename rule' d' => cases Derivation.isRename_of_phrase_eq rule' same.symm
  | _ => simp only [Derivation.phrase, reduceCtorEq] at same

theorem unary {operand : Derivation .unaryExpr} (determined : operand.IsDetermined) {s : Symbol} {op : UnaryOp}
    (rule : Signs s op) (sign : Leaf s) : (Derivation.unary op rule sign operand).IsDetermined := by
  intro d' same
  cases d' with
  | unary op' rule' sign' operand' =>
      simp only [Derivation.phrase, Phrase.unary.injEq] at same
      obtain ⟨rfl, sameSign, sameOperand⟩ := same
      obtain ⟨rfl, sameSign⟩ := Leaf.heq_of_terminal_eq sameSign
      rw [determined operand' sameOperand, eq_of_heq sameSign]
  | rename rule' d' => cases Derivation.isRename_of_phrase_eq rule' same.symm
  | _ => simp only [Derivation.phrase, reduceCtorEq] at same

end Operators

section Postfix

variable {object : Derivation .postfixExpr}

theorem field (determined : object.IsDetermined) (dot : Mark .dot) (name : Mark .ident) :
    (Derivation.field object dot name).IsDetermined := by
  intro d' same
  cases d' with
  | field object' dot' name' =>
      simp only [Derivation.phrase, Phrase.field.injEq, Leaf.terminal_inj] at same
      obtain ⟨sameObject, rfl, rfl⟩ := same
      rw [determined object' sameObject]
  | tupleField => simp [Derivation.phrase, Leaf.terminal] at same
  | rename rule' d' => cases Derivation.isRename_of_phrase_eq rule' same.symm
  | _ => simp only [Derivation.phrase, reduceCtorEq] at same

theorem tupleField (determined : object.IsDetermined) (dot : Mark .dot) (index : Mark .int) :
    (Derivation.tupleField object dot index).IsDetermined := by
  intro d' same
  cases d' with
  | tupleField object' dot' index' =>
      simp only [Derivation.phrase, Phrase.field.injEq, Leaf.terminal_inj] at same
      obtain ⟨sameObject, rfl, rfl⟩ := same
      rw [determined object' sameObject]
  | field => simp [Derivation.phrase, Leaf.terminal] at same
  | rename rule' d' => cases Derivation.isRename_of_phrase_eq rule' same.symm
  | _ => simp only [Derivation.phrase, reduceCtorEq] at same

theorem call (determined : object.IsDetermined) {args : OptionalArgs} (areDetermined : args.AreDetermined)
    (opening : Mark .lparen) (closing : Mark .rparen) :
    (Derivation.call object opening args closing).IsDetermined := by
  intro d' same
  cases d' with
  | call object' opening' args' closing' =>
      simp only [Derivation.phrase, Phrase.call.injEq, Leaf.terminal_inj] at same
      obtain ⟨sameObject, rfl, sameArgs, rfl⟩ := same
      rw [determined object' sameObject, areDetermined args' sameArgs]
  | rename rule' d' => cases Derivation.isRename_of_phrase_eq rule' same.symm
  | _ => simp only [Derivation.phrase, reduceCtorEq] at same

theorem index (determined : object.IsDetermined) {position : Derivation .expr}
    (determinedInner : position.IsDetermined) (opening : Mark .lbracket) (closing : Mark .rbracket) :
    (Derivation.index object opening position closing).IsDetermined := by
  intro d' same
  cases d' with
  | index object' opening' position' closing' =>
      simp only [Derivation.phrase, Phrase.index.injEq, Leaf.terminal_inj] at same
      obtain ⟨sameObject, rfl, samePosition, rfl⟩ := same
      rw [determined object' sameObject, determinedInner position' samePosition]
  | rename rule' d' => cases Derivation.isRename_of_phrase_eq rule' same.symm
  | _ => simp only [Derivation.phrase, reduceCtorEq] at same

theorem propagate (determined : object.IsDetermined) (question : Mark .question) :
    (Derivation.propagate object question).IsDetermined := by
  intro d' same
  cases d' with
  | propagate object' question' =>
      simp only [Derivation.phrase, Phrase.propagate.injEq, Leaf.terminal_inj] at same
      obtain ⟨sameObject, rfl⟩ := same
      rw [determined object' sameObject]
  | rename rule' d' => cases Derivation.isRename_of_phrase_eq rule' same.symm
  | _ => simp only [Derivation.phrase, reduceCtorEq] at same

end Postfix

section Primary

theorem paren {inner : Derivation .expr} (determined : inner.IsDetermined) (opening : Mark .lparen)
    (closing : Mark .rparen) : (Derivation.paren opening inner closing).IsDetermined := by
  intro d' same
  cases d' with
  | paren opening' inner' closing' =>
      simp only [Derivation.phrase, Phrase.paren.injEq, Leaf.terminal_inj] at same
      obtain ⟨rfl, sameInner, rfl⟩ := same
      rw [determined inner' sameInner]
  | rename rule' d' => cases Derivation.isRename_of_phrase_eq rule' same.symm
  | _ => simp only [Derivation.phrase, reduceCtorEq] at same

theorem unit (opening : Mark .lparen) (closing : Mark .rparen) :
    (Derivation.unit opening closing).IsDetermined := by
  intro d' same
  cases d' with
  | unit opening' closing' =>
      simp only [Derivation.phrase, Phrase.tuple.injEq, Leaf.terminal_inj] at same
      obtain ⟨rfl, -, rfl⟩ := same
      rfl
  | rename rule' d' => cases Derivation.isRename_of_phrase_eq rule' same.symm
  | _ =>
      simp only [Derivation.phrase, Phrase.tuple.injEq, reduceCtorEq, and_false, false_and] at same

theorem tuple {first : Derivation .expr} (determined : first.IsDetermined) {later : OptionalArgs}
    (areDetermined : later.AreDetermined) (opening : Mark .lparen) (comma : Mark .comma)
    (closing : Mark .rparen) : (Derivation.tuple opening first comma later closing).IsDetermined := by
  intro d' same
  cases d' with
  | tuple opening' first' comma' later' closing' =>
      simp only [Derivation.phrase, Phrase.tuple.injEq, Items.cons.injEq, Leaf.terminal_inj] at same
      obtain ⟨rfl, ⟨sameFirst, rfl, sameLater⟩, rfl⟩ := same
      rw [determined first' sameFirst, areDetermined later' sameLater]
  | rename rule' d' => cases Derivation.isRename_of_phrase_eq rule' same.symm
  | _ =>
      simp only [Derivation.phrase, Phrase.tuple.injEq, reduceCtorEq, and_false, false_and] at same

theorem array {elements : OptionalArgs} (areDetermined : elements.AreDetermined) (opening : Mark .lbracket)
    (closing : Mark .rbracket) : (Derivation.array opening elements closing).IsDetermined := by
  intro d' same
  cases d' with
  | array opening' elements' closing' =>
      simp only [Derivation.phrase, Phrase.array.injEq, Leaf.terminal_inj] at same
      obtain ⟨rfl, sameElements, rfl⟩ := same
      rw [areDetermined elements' sameElements]
  | rename rule' d' => cases Derivation.isRename_of_phrase_eq rule' same.symm
  | _ => simp only [Derivation.phrase, reduceCtorEq] at same

theorem fill {value count : Derivation .expr} (determinedValue : value.IsDetermined)
    (determinedCount : count.IsDetermined) (opening : Mark .lbracket) (semi : Mark .semi)
    (closing : Mark .rbracket) : (Derivation.fill opening value semi count closing).IsDetermined := by
  intro d' same
  cases d' with
  | fill opening' value' semi' count' closing' =>
      simp only [Derivation.phrase, Phrase.fill.injEq, Leaf.terminal_inj] at same
      obtain ⟨rfl, sameValue, rfl, sameCount, rfl⟩ := same
      rw [determinedValue value' sameValue, determinedCount count' sameCount]
  | rename rule' d' => cases Derivation.isRename_of_phrase_eq rule' same.symm
  | _ => simp only [Derivation.phrase, reduceCtorEq] at same

theorem invokeParen {args : OptionalArgs} (areDetermined : args.AreDetermined) (name : NameDerivation)
    (bang : Mark .bang) (opening : Mark .lparen) (closing : Mark .rparen) :
    (Derivation.invokeParen name bang opening args closing).IsDetermined := by
  intro d' same
  cases d' with
  | invokeParen name' bang' opening' args' closing' =>
      simp only [Derivation.phrase, Phrase.invocation.injEq, Leaf.terminal_inj,
        NameDerivation.phrase_inj] at same
      obtain ⟨rfl, rfl, rfl, sameArgs, rfl⟩ := same
      rw [areDetermined args' sameArgs]
  | invokeBracket => simp [Derivation.phrase, Leaf.terminal] at same
  | rename rule | binary _ rule => cases rule

theorem invokeBracket {args : OptionalArgs} (areDetermined : args.AreDetermined) (name : NameDerivation)
    (bang : Mark .bang) (opening : Mark .lbracket) (closing : Mark .rbracket) :
    (Derivation.invokeBracket name bang opening args closing).IsDetermined := by
  intro d' same
  cases d' with
  | invokeBracket name' bang' opening' args' closing' =>
      simp only [Derivation.phrase, Phrase.invocation.injEq, Leaf.terminal_inj,
        NameDerivation.phrase_inj] at same
      obtain ⟨rfl, rfl, rfl, sameArgs, rfl⟩ := same
      rw [areDetermined args' sameArgs]
  | invokeParen => simp [Derivation.phrase, Leaf.terminal] at same
  | rename rule | binary _ rule => cases rule

theorem path (name : NameDerivation) : (Derivation.path name).IsDetermined := by
  intro d' same
  cases d' with
  | path name' =>
      simp only [Derivation.phrase, Phrase.path.injEq, NameDerivation.phrase_inj] at same
      rw [same]
  | rename rule | binary _ rule => cases rule

theorem literal {s : Symbol} (rule : SpellsLiteral s) (leaf : Leaf s) :
    (Derivation.literal rule leaf).IsDetermined := by
  intro d' same
  cases d' with
  | literal rule' leaf' =>
      simp only [Derivation.phrase, Phrase.literal.injEq] at same
      obtain ⟨rfl, sameLeaf⟩ := Leaf.heq_of_terminal_eq same
      rw [eq_of_heq sameLeaf]
  | rename rule | binary _ rule => cases rule

end Primary

end Derivation.IsDetermined

section Arguments

theorem areDetermined_absent : OptionalArgs.absent.AreDetermined
  | .absent, _ => rfl
  | .present (.args _ later), same => by
      cases later <;> simp [OptionalArgs.items, Args.items, LaterArgs.itemsBehind] at same

theorem areDetermined_present {first : Derivation .expr} {later : LaterArgs} (determined : first.IsDetermined)
    (areDetermined : later.AreDetermined) : (OptionalArgs.present (.args first later)).AreDetermined
  | .absent, same => by
      cases later <;> simp [OptionalArgs.items, Args.items, LaterArgs.itemsBehind] at same
  | .present (.args first' later'), same => by
      simp only [OptionalArgs.items, Args.items] at same
      obtain ⟨sameFirst, sameLater⟩ := areDetermined later' same
      rw [determined first' sameFirst, sameLater]

theorem areDetermined_done : LaterArgs.done.AreDetermined := by
  intro first first' later' same
  cases later' <;> simp_all [LaterArgs.itemsBehind]

theorem areDetermined_trailing (comma : Mark .comma) : (LaterArgs.trailing comma).AreDetermined := by
  intro first first' later' same
  cases later' with
  | next comma' e' later' => cases later' <;> simp [LaterArgs.itemsBehind] at same
  | _ => simp_all [LaterArgs.itemsBehind]

theorem areDetermined_next {e : Derivation .expr} {later : LaterArgs} (determined : e.IsDetermined)
    (areDetermined : later.AreDetermined) (comma : Mark .comma) :
    (LaterArgs.next comma e later).AreDetermined := by
  intro first first' later' same
  cases later' with
  | done => simp [LaterArgs.itemsBehind] at same
  | trailing comma' => cases later <;> simp [LaterArgs.itemsBehind] at same
  | next comma' e' later' =>
      simp only [LaterArgs.itemsBehind, Items.cons.injEq, Leaf.terminal_inj] at same
      obtain ⟨sameFirst, rfl, sameRest⟩ := same
      obtain ⟨sameNext, rfl⟩ := areDetermined later' sameRest
      rw [determined e' sameNext]
      exact ⟨sameFirst, rfl⟩

end Arguments

mutual

/-- All derivations are determined by their phrases: one law for each production. -/
theorem Derivation.isDetermined {n : Nonterminal} : ∀ d : Derivation n, d.IsDetermined
  | .rename rule d => d.isDetermined.rename rule
  | .closure opening params closing body => body.isDetermined.closure opening closing params
  | .emptyClosure bars body => body.isDetermined.emptyClosure bars
  | .binary _ rule left sign right => left.isDetermined.binary right.isDetermined rule sign
  | .cast operand asWord target => operand.isDetermined.cast asWord target
  | .unary _ rule sign operand => operand.isDetermined.unary rule sign
  | .field object dot name => object.isDetermined.field dot name
  | .tupleField object dot index => object.isDetermined.tupleField dot index
  | .call callee opening args closing => callee.isDetermined.call args.areDetermined opening closing
  | .index object opening position closing =>
      object.isDetermined.index position.isDetermined opening closing
  | .propagate operand question => operand.isDetermined.propagate question
  | .paren opening inner closing => inner.isDetermined.paren opening closing
  | .unit opening closing => .unit opening closing
  | .tuple opening first comma later closing =>
      first.isDetermined.tuple later.areDetermined opening comma closing
  | .array opening elements closing => .array elements.areDetermined opening closing
  | .fill opening value semi count closing =>
      value.isDetermined.fill count.isDetermined opening semi closing
  | .invokeParen name bang opening args closing => .invokeParen args.areDetermined name bang opening closing
  | .invokeBracket name bang opening args closing =>
      .invokeBracket args.areDetermined name bang opening closing
  | .path name => .path name
  | .literal rule leaf => .literal rule leaf

theorem OptionalArgs.areDetermined : ∀ args : OptionalArgs, args.AreDetermined
  | .absent => areDetermined_absent
  | .present (.args first later) => areDetermined_present first.isDetermined later.areDetermined

theorem LaterArgs.areDetermined : ∀ later : LaterArgs, later.AreDetermined
  | .done => areDetermined_done
  | .trailing comma => areDetermined_trailing comma
  | .next comma e later => areDetermined_next e.isDetermined later.areDetermined comma

end

end AttrGrammar
