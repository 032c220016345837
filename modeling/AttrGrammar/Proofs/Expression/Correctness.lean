import AttrGrammar.Proofs.Expression.Completeness
import AttrGrammar.Proofs.Expression.Injective
import AttrGrammar.Proofs.Expression.Soundness
import Mathlib.Data.Option.Basic

/-!
Contract: an expression is read exactly where the grammar derives it.

Owns:
- the expression of a derivation exists exactly if its literals have values, and else fails as the first that has
  none;
- trees are read as an expression exactly if their terminals have a derivation, which is unique, and its literals
  have values; the expression is the one that the derivation denotes.

A number behind a point is part of a name and no literal: it is not decoded.
-/

namespace AttrGrammar

/-! ## Derivations whose literals have values -/

/-- Whether a computation succeeds. -/
def Succeeds {ε α : Type} (x : Except ε α) : Prop :=
  ∃ a, x = .ok a

/-- A computation without its value: whether it fails, and with what. -/
def verdict {ε α : Type} (x : Except ε α) : Except ε Unit :=
  x.map fun _ => ()

section Verdict

variable {ε α β γ : Type}

theorem verdict_map (x : Except ε α) (f : α → β) : verdict (f <$> x) = verdict x := by
  cases x <;> rfl

theorem verdict_bind_map (x : Except ε α) (y : Except ε β) (f : α → β → γ) :
    verdict (x >>= fun a => f a <$> y) = verdict x >>= fun _ => verdict y := by
  cases x with
  | error failure => rfl
  | ok a => exact verdict_map y (f a)

theorem verdict_eq_ok_iff {x : Except ε α} : verdict x = .ok () ↔ Succeeds x := by
  cases x with
  | error failure => exact ⟨nofun, nofun⟩
  | ok a => exact ⟨fun _ => ⟨a, rfl⟩, fun _ => rfl⟩

theorem verdict_eq_error_iff {x : Except ε α} {failure : ε} :
    verdict x = .error failure ↔ x = .error failure := by
  cases x with
  | error failure' =>
      constructor <;> intro same <;> rw [Except.error.inj same]
      rfl
  | ok a => exact ⟨nofun, nofun⟩

end Verdict

section Returns

variable {ε α β γ : Type}

/-- Whether something holds of the value of a computation, if it has one. -/
def Returns (holds : α → Prop) (x : Except ε α) : Prop :=
  ∀ a, x = .ok a → holds a

theorem returns_pure {holds : α → Prop} {a : α} (here : holds a) :
    Returns holds (pure a : Except ε α) := by
  intro a' isValue
  obtain rfl := Except.ok.inj isValue
  exact here

theorem Returns.map {holds : α → Prop} {x : Except ε α} (first : Returns holds x)
    {goal : β → Prop} {f : α → β} (next : ∀ a, holds a → goal (f a)) :
    Returns goal (x >>= fun a => pure (f a)) := by
  cases x with
  | error failure => exact nofun
  | ok a => exact returns_pure (next a (first a rfl))

theorem Returns.map₂ {holds : α → Prop} {x : Except ε α} (first : Returns holds x)
    {holds' : β → Prop} {y : Except ε β} (second : Returns holds' y) {goal : γ → Prop}
    {f : α → β → γ} (next : ∀ a b, holds a → holds' b → goal (f a b)) :
    Returns goal (x >>= fun a => y >>= fun b => pure (f a b)) := by
  cases x with
  | error failure => exact nofun
  | ok a => exact second.map fun b behind => next a b (first a rfl) behind

theorem returns_self (x : Except ε α) : Returns (fun a => x = .ok a) x :=
  fun _ isValue => isValue

end Returns

namespace Terminal

/-- Whether a terminal has a value as a literal, or why not. -/
def verdict (t : Terminal) : Except Failure Unit :=
  AttrGrammar.verdict (t.decode t.position)

/-- Whether a terminal has a value as a literal. -/
def Decodes (t : Terminal) : Prop :=
  Succeeds (t.decode t.position)

theorem forM_verdict_eq_ok_iff {ts : List Terminal} :
    forM ts verdict = .ok () ↔ ∀ t ∈ ts, t.Decodes := by
  induction ts with
  | nil => exact ⟨nofun, fun _ => rfl⟩
  | cons t ts inductionHypothesis =>
      rw [List.forM_cons, List.forall_mem_cons, ← inductionHypothesis, Decodes, ← verdict_eq_ok_iff]
      cases first : AttrGrammar.verdict (t.decode t.position) with
      | error failure =>
          rw [verdict, first]
          exact ⟨nofun, fun both => nomatch both.1⟩
      | ok u =>
          rw [verdict, first]
          exact ⟨fun later => ⟨rfl, later⟩, fun both => both.2⟩

/-- Decoding terminals fails as the first of them without a value does. -/
theorem forM_verdict_eq_error_iff {ts : List Terminal} {failure : Failure} :
    forM ts verdict = .error failure ↔ ∃ before t after, ts = before ++ t :: after ∧
      (∀ l ∈ before, l.Decodes) ∧ t.decode t.position = .error failure := by
  constructor
  · intro fails
    induction ts with
    | nil => cases fails
    | cons t ts inductionHypothesis =>
        rw [List.forM_cons] at fails
        cases first : t.verdict with
        | error failure' =>
            rw [first] at fails
            obtain rfl := Except.error.inj fails
            exact ⟨[], t, ts, rfl, nofun, verdict_eq_error_iff.1 first⟩
        | ok u =>
            rw [first] at fails
            obtain ⟨before, t', after, rfl, decode, fault⟩ := inductionHypothesis fails
            exact ⟨t :: before, t', after, rfl,
              List.forall_mem_cons.2 ⟨verdict_eq_ok_iff.1 first, decode⟩, fault⟩
  · rintro ⟨before, t, after, rfl, decode, fault⟩
    induction before with
    | nil =>
        have fails : t.verdict = .error failure := verdict_eq_error_iff.2 fault
        rw [List.nil_append, List.forM_cons, fails]
        rfl
    | cons l before inductionHypothesis =>
        obtain ⟨here, behind⟩ := List.forall_mem_cons.1 decode
        have decodes : l.verdict = .ok () := verdict_eq_ok_iff.2 here
        rw [List.cons_append, List.forM_cons, decodes]
        exact inductionHypothesis behind

end Terminal

mutual

/-- A derivation fails as its first literal that has no value, or not at all. -/
theorem Derivation.verdict_value {n : Nonterminal} :
    ∀ d : Derivation n, verdict d.value = forM d.literals Terminal.verdict
  | .rename _ d => d.verdict_value
  | .closure _ _ _ body => by
      simp [Derivation.value, Derivation.literals, verdict_map, body.verdict_value]
  | .emptyClosure _ body => by
      simp [Derivation.value, Derivation.literals, verdict_map, body.verdict_value]
  | .binary _ _ left _ right => by
      simp [Derivation.value, Derivation.literals, verdict_bind_map, left.verdict_value,
        right.verdict_value]
  | .cast operand _ _ => by
      simp [Derivation.value, Derivation.literals, verdict_map, operand.verdict_value]
  | .unary _ _ _ operand => by
      simp [Derivation.value, Derivation.literals, verdict_map, operand.verdict_value]
  | .field object _ _ => by
      simp [Derivation.value, Derivation.literals, verdict_map, object.verdict_value]
  | .tupleField object _ _ => by
      simp [Derivation.value, Derivation.literals, verdict_map, object.verdict_value]
  | .call callee _ args _ => by
      simp [Derivation.value, Derivation.literals, verdict_bind_map, callee.verdict_value,
        args.verdict_values]
  | .index object _ position _ => by
      simp [Derivation.value, Derivation.literals, verdict_bind_map, object.verdict_value,
        position.verdict_value]
  | .propagate operand _ => by
      simp [Derivation.value, Derivation.literals, verdict_map, operand.verdict_value]
  | .paren _ inner _ => inner.verdict_value
  | .unit _ _ => rfl
  | .tuple _ first _ later _ => by
      simp [Derivation.value, Derivation.literals, verdict_bind_map, first.verdict_value,
        later.verdict_values]
  | .array _ elements _ => by
      simp [Derivation.value, Derivation.literals, verdict_map, elements.verdict_values]
  | .fill _ value _ count _ => by
      simp [Derivation.value, Derivation.literals, verdict_bind_map, value.verdict_value,
        count.verdict_value]
  | .invokeParen _ _ _ args _ => by
      simp [Derivation.value, Derivation.literals, verdict_map, args.verdict_values]
  | .invokeBracket _ _ _ args _ => by
      simp [Derivation.value, Derivation.literals, verdict_map, args.verdict_values]
  | .path _ => rfl
  | .literal _ leaf => by
      simp [Derivation.value, Derivation.literals, verdict_map, Terminal.verdict, Leaf.terminal]

theorem OptionalArgs.verdict_values :
    ∀ args : OptionalArgs, verdict args.values = forM args.literals Terminal.verdict
  | .absent => rfl
  | .present args => args.verdict_values

theorem Args.verdict_values :
    ∀ args : Args, verdict args.values = forM args.literals Terminal.verdict
  | .args first later => by
      simp [Args.values, Args.literals, verdict_bind_map, first.verdict_value,
        later.verdict_values]

theorem LaterArgs.verdict_values :
    ∀ later : LaterArgs, verdict later.values = forM later.literals Terminal.verdict
  | .done => rfl
  | .trailing _ => rfl
  | .next _ e later => by
      simp [LaterArgs.values, LaterArgs.literals, verdict_bind_map, e.verdict_value,
        later.verdict_values]

end

/-- A derivation denotes an expression exactly if its literals have values. -/
theorem Derivation.succeeds_value {n : Nonterminal} (d : Derivation n) :
    Succeeds d.value ↔ ∀ t ∈ d.literals, t.Decodes := by
  rw [← verdict_eq_ok_iff, d.verdict_value, Terminal.forM_verdict_eq_ok_iff]

/-- Where a derivation denotes no expression, the fault is that of one of its literals. -/
theorem Derivation.exists_of_value_eq_error {n : Nonterminal} (d : Derivation n) {failure : Failure}
    (fails : d.value = .error failure) : ∃ t ∈ d.literals, t.decode t.position = .error failure := by
  rw [← verdict_eq_error_iff, d.verdict_value] at fails
  obtain ⟨before, t, after, split, -, fault⟩ := Terminal.forM_verdict_eq_error_iff.1 fails
  exact ⟨t, split ▸ List.mem_append_right _ List.mem_cons_self, fault⟩

/-! ## Reading -/

/-- The parser yields a phrase exactly if a derivation of the terminals spells it. -/
theorem parseTerminals_eq_ok_iff {ts : List Terminal} {p : Phrase} :
    parseTerminals ts = .ok p ↔ ∃ d : Derivation .start, d.terminals = ts ∧ d.phrase = p := by
  constructor
  · intro parsed
    obtain ⟨d, spelled, sameTerminals⟩ := parseTerminals_sound parsed
    exact ⟨d, sameTerminals, spelled⟩
  · rintro ⟨d, rfl, rfl⟩
    exact d.parseTerminals_eq

/-- Terminals have one derivation at most. -/
theorem Derivation.eq_of_terminals_eq {d d' : Derivation .start}
    (same : d.terminals = d'.terminals) : d = d' := by
  have parsed := d.parseTerminals_eq
  rw [same, d'.parseTerminals_eq] at parsed
  exact (d'.isDetermined d (Except.ok.inj parsed)).symm

theorem Derivation.terminals_ne_nil (d : Derivation .start) : d.terminals ≠ [] := by
  intro none
  have parsed := d.parseTerminals_eq
  rw [none] at parsed
  cases parsed

theorem Expr.ofTrees_eq_ok_iff {trees : List Tree} {finish : Position} {e : Expr Literal} :
    Expr.ofTrees trees finish = .ok e ↔
      ∃ d : Derivation .start, d.terminals = Terminal.ofTrees trees ∧ d.value = .ok e := by
  unfold Expr.ofTrees
  split
  · rename_i isEmpty
    refine ⟨nofun, fun ⟨d, sameTerminals, _⟩ => absurd ?_ d.terminals_ne_nil⟩
    rw [sameTerminals, List.isEmpty_iff.1 isEmpty]
    rfl
  · split
    · rename_i stuck failed
      refine ⟨nofun, fun ⟨d, sameTerminals, _⟩ => ?_⟩
      rw [← sameTerminals, d.parseTerminals_eq] at failed
      cases failed
    · rename_i phrase parsed
      obtain ⟨d, sameTerminals, rfl⟩ := parseTerminals_eq_ok_iff.1 parsed
      rw [← d.value_eq]
      constructor
      · intro value
        exact ⟨d, sameTerminals, value⟩
      · rintro ⟨d', sameTerminals', value⟩
        rwa [Derivation.eq_of_terminals_eq (sameTerminals.trans sameTerminals'.symm)]

/-- Trees are read as an expression exactly if their terminals have a derivation whose literals have values. The
derivation is unique, and the expression is the one that it denotes. -/
theorem Expr.ofTrees_iff_derivation (trees : List Tree) (finish : Position) :
    (∀ e, Expr.ofTrees trees finish = .ok e ↔
      ∃ d : Derivation .start, d.terminals = Terminal.ofTrees trees ∧ d.value = .ok e) ∧
    Subsingleton {d : Derivation .start // d.terminals = Terminal.ofTrees trees} ∧
    ((∃ e, Expr.ofTrees trees finish = .ok e) ↔
      ∃ d : Derivation .start, d.terminals = Terminal.ofTrees trees ∧
        ∀ t ∈ d.literals, ∃ l, t.decode t.position = .ok l) := by
  refine ⟨fun e => Expr.ofTrees_eq_ok_iff, ⟨fun d d' => ?_⟩, ?_⟩
  · exact Subtype.ext (Derivation.eq_of_terminals_eq (d.2.trans d'.2.symm))
  · constructor
    · rintro ⟨e, read⟩
      obtain ⟨d, sameTerminals, value⟩ := Expr.ofTrees_eq_ok_iff.1 read
      exact ⟨d, sameTerminals, d.succeeds_value.1 ⟨e, value⟩⟩
    · rintro ⟨d, sameTerminals, decode⟩
      obtain ⟨e, value⟩ := d.succeeds_value.2 decode
      exact ⟨e, Expr.ofTrees_eq_ok_iff.2 ⟨d, sameTerminals, value⟩⟩

/-- The derivation of an expression that is a postfix expression. -/
def Derivation.ofPostfix (d : Derivation .postfixExpr) : Derivation .start :=
  .rename .start <| .rename .operation <| .rename .orExpr <| .rename .andExpr <|
    .rename .cmpExpr <| .rename .bitOrExpr <| .rename .bitXorExpr <| .rename .bitAndExpr <|
    .rename .shiftExpr <| .rename .sumExpr <| .rename .productExpr <| .rename .castExpr <|
    .rename .unaryExpr d

/-- The number in `12?` is a literal with a value, so that the trees are read. -/
theorem Expr.ofTrees_twelve_propagated :
    ∃ e, Expr.ofTrees
      [.token ⟨.int, "12", ⟨1, 1⟩, false⟩, .token ⟨.question, "?", ⟨1, 3⟩, false⟩] ⟨1, 4⟩ = .ok e :=
  (Expr.ofTrees_iff_derivation _ _).2.2.2
    ⟨.ofPostfix (.propagate
        (.rename .postfixExpr (.rename .literal (.literal .int ⟨"12", ⟨1, 1⟩⟩))) ⟨"?", ⟨1, 3⟩⟩),
      rfl, fun t member => by
        obtain rfl := List.mem_singleton.1 member
        exact ⟨⟨.int 12, ""⟩, by cbv⟩⟩

/-- Not every number among the terminals has to be a literal with a value: `x.0u7` is read, though there is no
suffix `u7`. -/
theorem Expr.ofTrees_undecoded_index :
    ¬ ∀ (trees : List Tree) (finish : Position),
      (∃ e, Expr.ofTrees trees finish = .ok e) ↔
        (∃ d : Derivation .start, d.terminals = Terminal.ofTrees trees) ∧
          ∀ t ∈ Terminal.ofTrees trees, t.symbol.isLiteral →
            ∃ l, t.decode t.position = .ok l := by
  intro every
  have read : ∃ e, Expr.ofTrees
      [.token ⟨.ident, "x", ⟨1, 1⟩, false⟩, .token ⟨.dot, ".", ⟨1, 2⟩, false⟩,
        .token ⟨.int, "0u7", ⟨1, 3⟩, false⟩] ⟨1, 6⟩ = .ok e :=
    ⟨.field (.path ⟨"x", [], ⟨1, 1⟩⟩) "0u7", rfl⟩
  obtain ⟨l, decoded⟩ := ((every _ _).1 read).2 ⟨.token .int, "0u7", ⟨1, 3⟩⟩
    (List.mem_cons_of_mem _ (List.mem_cons_of_mem _ (List.mem_singleton_self _))) rfl
  cbv at decoded
  cases decoded

end AttrGrammar
