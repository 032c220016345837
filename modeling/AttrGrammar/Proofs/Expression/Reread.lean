import AttrGrammar.Proofs.Expression.Correctness
import AttrGrammar.Proofs.Expression.Relabel
import AttrGrammar.Proofs.Expression.Stuck
import AttrGrammar.Proofs.Literal.Reflexive

/-!
Contract: an expression is read again from trees that differ in their places only.

Owns:
- every character that a derivation ends in is a literal of it, so that no expression has an empty one;
- trees that are alike are read as the same expression or fail alike, and as many of them belong to it.
-/

namespace AttrGrammar

/-! ## Literals among terminals -/

def NoChars (ts : List Terminal) : Prop :=
  ∀ t ∈ ts, t.symbol ≠ .token .char

/-- Whether the first terminals are among the second ones in their order, and all characters of these are among
them. -/
structure Collects (literals terminals : List Terminal) : Prop where
  sublist : literals.Sublist terminals
  chars : ∀ t ∈ terminals, t.symbol = .token .char → t ∈ literals

section Collects

variable {literals terminals front back : List Terminal}

theorem noChars_leaf {s : Symbol} (leaf : Leaf s) (other : s ≠ .token .char) :
    NoChars [leaf.terminal] := by
  intro t member
  obtain rfl := List.mem_singleton.1 member
  exact other

theorem NoChars.append (first : NoChars front) (second : NoChars back) :
    NoChars (front ++ back) :=
  List.forall_mem_append.2 ⟨first, second⟩

theorem NoChars.cons {s : Symbol} (leaf : Leaf s) (second : NoChars back)
    (other : s ≠ .token .char) : NoChars (leaf.terminal :: back) :=
  (noChars_leaf leaf other).append second

theorem Collects.subset (collects : Collects literals terminals) : literals ⊆ terminals :=
  collects.sublist.subset

theorem NoChars.collects (none : NoChars terminals) : Collects [] terminals :=
  ⟨List.nil_sublist _, fun t member isChar => absurd isChar (none t member)⟩

theorem Collects.append {others behind : List Terminal} (first : Collects literals terminals)
    (second : Collects others behind) : Collects (literals ++ others) (terminals ++ behind) where
  sublist := first.sublist.append second.sublist
  chars := by
    intro t member isChar
    rcases List.mem_append.1 member with here | there
    · exact List.mem_append_left _ (first.chars t here isChar)
    · exact List.mem_append_right _ (second.chars t there isChar)

theorem Collects.behind (second : Collects literals terminals) (first : NoChars front) :
    Collects literals (front ++ terminals) :=
  first.collects.append second

theorem Collects.before (first : Collects literals terminals) (second : NoChars back) :
    Collects literals (terminals ++ back) := by
  have both := first.append second.collects
  rwa [List.append_nil] at both

theorem Collects.mark (second : Collects literals terminals) {s : Symbol} (leaf : Leaf s)
    (other : s ≠ .token .char) : Collects literals (leaf.terminal :: terminals) :=
  second.behind (noChars_leaf leaf other)

theorem Collects.between (inner : Collects literals terminals) {s s' : Symbol} (opening : Leaf s)
    (closing : Leaf s') (other : s ≠ .token .char) (other' : s' ≠ .token .char) :
    Collects literals (opening.terminal :: terminals ++ [closing.terminal]) :=
  (inner.mark opening other).before (noChars_leaf closing other')

end Collects

theorem Infixes.sign_ne_char {n l r : Nonterminal} {s : Symbol} {op : BinaryOp}
    (rule : Infixes n l s r op) : s ≠ .token .char := by
  cases rule <;> decide

theorem Signs.sign_ne_char {s : Symbol} {op : UnaryOp} (rule : Signs s op) :
    s ≠ .token .char := by
  cases rule <;> decide

theorem NameDerivation.noChars (n : NameDerivation) : NoChars n.terminals := by
  obtain ⟨head, later⟩ := n
  refine NoChars.cons head ?_ (by decide)
  intro t member
  obtain ⟨step, -, isStep⟩ := List.mem_flatMap.1 member
  exact ((noChars_leaf step.2 (by decide)).cons step.1 (by decide)) t isStep

theorem ParamDerivation.noChars (p : ParamDerivation) : NoChars p.terminals := by
  obtain ⟨name, type⟩ := p
  cases type with
  | none => exact noChars_leaf name (by decide)
  | some type => exact (type.2.noChars.cons type.1 (by decide)).cons name (by decide)

theorem ParamsDerivation.noChars (p : ParamsDerivation) : NoChars p.terminals := by
  obtain ⟨first, later, trailing⟩ := p
  have steps : NoChars (later.flatMap fun step => step.1.terminal :: step.2.terminals) := by
    intro t member
    obtain ⟨step, -, isStep⟩ := List.mem_flatMap.1 member
    exact (step.2.noChars.cons step.1 (by decide)) t isStep
  refine (first.noChars.append steps).append ?_
  cases trailing with
  | none => exact nofun
  | some comma => exact noChars_leaf comma (by decide)

mutual

/-- The literals of a derivation are among the terminals that it ends in and in their order, with all characters of
these. -/
theorem Derivation.collects {n : Nonterminal} : ∀ d : Derivation n,
    Collects d.literals d.terminals
  | .rename _ d => d.collects
  | .closure opening params closing body => by
      have head : NoChars (opening.terminal :: params.elim [] ParamsDerivation.terminals) := by
        cases params with
        | none => exact noChars_leaf opening (by decide)
        | some params => exact params.noChars.cons opening (by decide)
      exact (body.collects.mark closing (by decide)).behind head
  | .emptyClosure bars body => body.collects.mark bars (by decide)
  | .binary _ rule left sign right =>
      left.collects.append (right.collects.mark sign rule.sign_ne_char)
  | .cast operand asWord target =>
      operand.collects.before (target.noChars.cons asWord (by decide))
  | .unary _ rule sign operand => operand.collects.mark sign rule.sign_ne_char
  | .field object dot name =>
      object.collects.before ((noChars_leaf name (by decide)).cons dot (by decide))
  | .tupleField object dot index =>
      object.collects.before ((noChars_leaf index (by decide)).cons dot (by decide))
  | .call callee opening args closing =>
      (callee.collects.append (args.collects.mark opening (by decide))).before
        (noChars_leaf closing (by decide))
  | .index object opening position closing =>
      (object.collects.append (position.collects.mark opening (by decide))).before
        (noChars_leaf closing (by decide))
  | .propagate operand question => operand.collects.before (noChars_leaf question (by decide))
  | .paren opening inner closing =>
      inner.collects.between opening closing (by decide) (by decide)
  | .unit opening closing =>
      ((noChars_leaf closing (by decide)).cons opening (by decide)).collects
  | .tuple opening first comma later closing =>
      ((first.collects.mark opening (by decide)).append
        (later.collects.mark comma (by decide))).before (noChars_leaf closing (by decide))
  | .array opening elements closing =>
      elements.collects.between opening closing (by decide) (by decide)
  | .fill opening value semi count closing =>
      ((value.collects.mark opening (by decide)).append
        (count.collects.mark semi (by decide))).before (noChars_leaf closing (by decide))
  | .invokeParen name bang opening args closing =>
      (((args.collects.mark opening (by decide)).mark bang (by decide)).behind
        name.noChars).before (noChars_leaf closing (by decide))
  | .invokeBracket name bang opening args closing =>
      (((args.collects.mark opening (by decide)).mark bang (by decide)).behind
        name.noChars).before (noChars_leaf closing (by decide))
  | .path name => name.noChars.collects
  | .literal _ leaf => ⟨.refl _, fun _ member _ => member⟩

theorem OptionalArgs.collects : ∀ args : OptionalArgs, Collects args.literals args.terminals
  | .absent => ⟨.refl _, nofun⟩
  | .present args => args.collects

theorem Args.collects : ∀ args : Args, Collects args.literals args.terminals
  | .args first later => first.collects.append later.collects

theorem LaterArgs.collects : ∀ later : LaterArgs, Collects later.literals later.terminals
  | .done => ⟨.refl _, nofun⟩
  | .trailing comma => (noChars_leaf comma (by decide)).collects
  | .next comma e later => (e.collects.mark comma (by decide)).append later.collects

end

/-! ## Tokens -/

/-- Whether the value of a token, if it has one, equals itself. -/
def Token.IsReflexive (t : Token) : Prop :=
  ∀ l, Literal.decode t.kind t.text = .ok l → l.same l

/-- Whether a token has a value if it is a character. -/
def Token.HasCharacter (t : Token) : Prop :=
  t.kind = .char → ∃ l, Literal.decode .char t.text = .ok l

namespace Terminal

theorem isReflexive_ofTokens {tokens : List Token} (reflexive : ∀ t ∈ tokens, t.IsReflexive) :
    ∀ t ∈ ofTokens tokens, t.IsReflexive := by
  have single {t : Token} (reflexive : t.IsReflexive) : (ofToken t).IsReflexive := by
    rw [IsReflexive, tokenKind_ofToken]
    exact reflexive
  fun_induction ofTokens tokens with
  | case1 t u later isShift inductionHypothesis =>
      obtain ⟨-, -, behind⟩ := by simpa only [List.forall_mem_cons] using reflexive
      refine List.forall_mem_cons.2 ⟨?_, inductionHypothesis behind⟩
      intro l decoded
      cases decoded
  | case2 t u later notShift inductionHypothesis =>
      obtain ⟨here, behind⟩ := List.forall_mem_cons.1 reflexive
      exact List.forall_mem_cons.2 ⟨single here, inductionHypothesis behind⟩
  | case3 t =>
      intro u member
      obtain rfl := List.mem_singleton.1 member
      exact single (reflexive t (List.mem_singleton_self t))
  | case4 =>
      intro t member
      cases member

/-- Every token but a `>` is a terminal by itself. -/
theorem ofToken_mem_ofTokens {t : Token} {tokens : List Token} (member : t ∈ tokens)
    (other : t.kind ≠ .rangle) : ofToken t ∈ ofTokens tokens := by
  fun_induction ofTokens tokens with
  | case1 u v later isShift inductionHypothesis =>
      simp only [Bool.and_eq_true, decide_eq_true_eq] at isShift
      obtain ⟨⟨first, -⟩, second⟩ := isShift
      rcases List.mem_cons.1 member with rfl | behind
      · exact absurd first other
      rcases List.mem_cons.1 behind with rfl | behind
      · exact absurd second other
      · exact List.mem_cons_of_mem _ (inductionHypothesis behind)
  | case2 u v later notShift inductionHypothesis =>
      rcases List.mem_cons.1 member with rfl | behind
      · exact List.mem_cons_self ..
      · exact List.mem_cons_of_mem _ (inductionHypothesis behind)
  | case3 u =>
      obtain rfl := List.mem_singleton.1 member
      exact List.mem_singleton_self _
  | case4 => cases member

theorem isReflexive_ofTrees {trees : List Tree}
    (reflexive : ∀ t ∈ Tree.leavesAll trees, t.IsReflexive) :
    ∀ t ∈ ofTrees trees, t.IsReflexive := by
  refine isReflexive_ofTokens fun t member => ?_
  rcases Tree.mem_flattenAll member with isLeaf | ⟨d, isOpen | isClose⟩
  · exact reflexive t isLeaf
  · intro l decoded
    rw [isOpen] at decoded
    cases d <;> cases decoded
  · intro l decoded
    rw [isClose] at decoded
    cases d <;> cases decoded

end Terminal

/-! ## Expressions -/

namespace Expr

variable {trees trees' : List Tree} {finish : Position} {e : Expr Literal}

theorem hasCharacter_of_ofTrees (read : ofTrees trees finish = .ok e) :
    ∀ t ∈ Tree.leavesAll trees, t.HasCharacter := by
  intro t member isChar
  obtain ⟨d, sameTerminals, value⟩ := ofTrees_eq_ok_iff.1 read
  have isTerminal : Terminal.ofToken t ∈ d.terminals := by
    rw [sameTerminals]
    exact Terminal.ofToken_mem_ofTokens (Tree.leavesAll_subset_flattenAll trees member)
      (by rw [isChar]; decide)
  have charSymbol : (Terminal.ofToken t).symbol = .token .char := by
    rw [Terminal.ofToken, Symbol.ofToken, isChar, if_neg (by decide)]
  have isLiteral := d.collects.chars _ isTerminal charSymbol
  obtain ⟨l, decoded⟩ := d.succeeds_value.1 ⟨e, value⟩ _ isLiteral
  refine ⟨l, ?_⟩
  have isValue := Terminal.decode_eq_ok_iff.1 decoded
  rwa [Terminal.tokenKind_ofToken, isChar] at isValue

theorem ofTrees_of_derivation {d : Derivation .start} (sameTerminals : d.terminals = Terminal.ofTrees trees)
    (finish : Position) : ofTrees trees finish = d.value := by
  have notEmpty : trees.isEmpty = false := by
    cases trees with
    | nil => exact absurd sameTerminals d.terminals_ne_nil
    | cons tree later => rfl
  rw [ofTrees, notEmpty, ← sameTerminals, d.parseTerminals_eq, d.value_eq]
  rfl

theorem ofTrees_of_stuck {stuck : ExprParser.Stuck} (notEmpty : trees ≠ [])
    (isStuck : parseTerminals (Terminal.ofTrees trees) = .error stuck) (finish : Position) :
    ofTrees trees finish = .error (.rejected (stuck.error finish)) := by
  rw [ofTrees, isStuck, if_neg (by rwa [List.isEmpty_iff])]

/-- Trees that differ in their places only are read as the same expression, or fail alike. -/
theorem reproduces_ofTrees (alike : Tree.unplacedAll trees' = Tree.unplacedAll trees)
    (reflexive : ∀ t ∈ Tree.leavesAll trees, t.IsReflexive) (finish finish' : Position) :
    Reproduces (same Literal.same) (ofTrees trees finish) (ofTrees trees' finish') := by
  have alikeTerminals : Terminal.Alike (Terminal.ofTrees trees') (Terminal.ofTrees trees) := by
    rw [Terminal.Alike, ← Terminal.ofTrees_unplacedAll, alike, Terminal.ofTrees_unplacedAll]
  by_cases isEmpty : trees = []
  · subst isEmpty
    obtain rfl := Tree.eq_nil_of_alike alike
    exact reproduces_error rfl
  cases parsed : parseTerminals (Terminal.ofTrees trees) with
  | error stuck =>
      have notEmpty : trees' ≠ [] := by
        rintro rfl
        exact isEmpty (Tree.eq_nil_of_alike alike.symm)
      obtain ⟨stuck', isStuck', sameStuck⟩ := ExprParser.run_stuck .initial alikeTerminals parsed
      rw [ofTrees_of_stuck isEmpty parsed, ofTrees_of_stuck notEmpty isStuck']
      exact reproduces_error (congrArg Failure.rejected (sameStuck.unplaced_error finish' finish))
  | ok phrase =>
      obtain ⟨d, sameTerminals, rfl⟩ := parseTerminals_eq_ok_iff.1 parsed
      have inLiterals : ∀ t ∈ d.literals, t.IsReflexive := fun t member =>
        Terminal.isReflexive_ofTrees reflexive t (sameTerminals ▸ d.collects.subset member)
      rw [← sameTerminals] at alikeTerminals
      obtain ⟨d', sameTerminals', same⟩ := d.isRelabelled _ alikeTerminals inLiterals
      rw [ofTrees_of_derivation sameTerminals finish, ofTrees_of_derivation sameTerminals' finish']
      exact same

theorem extent_unplacedAll (inParams : Bool) (before : Option Tree) (trees : List Tree) :
    extent inParams (before.map Tree.unplaced) (Tree.unplacedAll trees) =
      extent inParams before trees := by
  have isKind (kind : TokenKind) (tree : Tree) : tree.unplaced.isKind kind = tree.isKind kind := by
    cases tree <;> rfl
  have ends (before : Option Tree) :
      (before.map Tree.unplaced).any endsOperand = before.any endsOperand := by
    cases before with
    | none => rfl
    | some tree => cases tree <;> rfl
  induction trees generalizing inParams before with
  | nil => rfl
  | cons tree later inductionHypothesis =>
      have behind (inParams : Bool) := inductionHypothesis inParams (some tree)
      rw [Option.map_some] at behind
      rw [Tree.unplacedAll, extent, extent, Tree.isComma, Tree.isComma, isKind, isKind, ends,
        behind, behind, inductionHypothesis]

/-- As many trees belong to an expression if they differ in their places only. -/
theorem extent_eq_of_alike (alike : Tree.unplacedAll trees' = Tree.unplacedAll trees) :
    extent false none trees' = extent false none trees := by
  rw [← extent_unplacedAll, alike]
  exact extent_unplacedAll false none trees

end Expr

end AttrGrammar
