import AttrGrammar.Proofs.Expression.Print
import AttrGrammar.Proofs.Expression.Reread

/-!
Contract: a printed expression is read as that expression.

Owns:
- trees that are read as an expression of a level, and the laws of the printed forms;
- every expression that can be printed is read from its trees, by induction on the expression, with its operands at
  the levels that their operators ask for;
- the level of a printed expression is the highest one whose nonterminal derives its trees;
- the same from all trees that differ in their places only.

Does not own: the texts of the trees.
-/

namespace AttrGrammar

/-- The value of a token as a literal. -/
def Token.decode (t : Token) (position : Position) : Except Failure Literal :=
  (Literal.decode t.kind t.text).mapError (.ofLiteral position)

theorem Terminal.decode_ofToken (t : Token) (position : Position) :
    (ofToken t).decode position = t.decode position := by
  rw [decode, tokenKind_ofToken]
  rfl

/-- A token with a value is a literal of the grammar. -/
theorem Symbol.isLiteral_of_decode {t : Token} {position : Position} {l : Literal}
    (decoded : t.decode position = .ok l) : (ofToken t).isLiteral := by
  obtain ⟨kind, text, _, _⟩ := t
  unfold Token.decode at decoded
  by_cases isWord : kind = .ident
  · subst isWord
    by_cases isBoolean : text = "true" ∨ text = "false"
    · rcases isBoolean with rfl | rfl <;> rfl
    · rw [not_or] at isBoolean
      simp [Literal.decode, isBoolean, Except.mapError] at decoded
  · rw [ofToken, if_neg isWord]
    cases kind <;> first | rfl | exact absurd rfl isWord | cases decoded

/-! ## Levels and tightness -/

theorem tightness_nonterminalAt {level : Nat} (atMost : level ≤ 12) : (nonterminalAt level).tightness = level := by
  match level with
  | 0 | 1 | 2 | 3 | 4 | 5 | 6 | 7 | 8 | 9 | 10 | 11 | 12 => rfl
  | _ + 13 => omega

theorem Binds.le_tightness {level : Nat} {p : Phrase} (binds : Binds level p) (atMost : level ≤ 12) :
    level ≤ p.tightness := by
  obtain ⟨d, rfl⟩ := binds
  calc
    level = (nonterminalAt level).tightness := (tightness_nonterminalAt atMost).symm
    _ ≤ d.phrase.tightness := d.tightness_le

/-- Terminals have one phrase at most, whatever the levels at which they are looked for. -/
theorem Binds.eq_of_terminals_eq {low high : Nat} {p q : Phrase} (binds : Binds low p) (binds' : Binds high q)
    (same : p.terminals = q.terminals) : p = q := by
  obtain ⟨d, rfl⟩ := binds.of_le (Nat.zero_le _)
  obtain ⟨d', rfl⟩ := binds'.of_le (Nat.zero_le _)
  rw [d.terminals_phrase, d'.terminals_phrase] at same
  have sameStart : Derivation.rename .start d = .rename .start d' := Derivation.eq_of_terminals_eq same
  exact congrArg (@Derivation.phrase .start) sameStart

namespace Expr

open ExprParser Terminal

/-! ## Trees that are read -/

/-- Whether trees spell a phrase of a level that denotes an expression. -/
def ReadsAs (level : Nat) (trees : List Tree) (e : Expr Literal) : Prop :=
  ∃ p, Binds level p ∧ Spell trees p.terminals ∧ p.raw.traverse Terminal.decode = .ok e

/-- Whether trees spell a phrase of a level, and of no level above it, that denotes an expression. -/
def ReadsJustAs (level : Nat) (trees : List Tree) (e : Expr Literal) : Prop :=
  ∃ p, Binds level p ∧ (level < 12 → p.tightness = level) ∧ Spell trees p.terminals ∧
    p.raw.traverse Terminal.decode = .ok e

/-- Whether trees spell items that denote expressions. There may be one item without a comma only if that is
allowed. -/
def ItemsReadAs (lone : Prop) (trees : List Tree) (es : List (Expr Literal)) : Prop :=
  ∃ items : Items, items.Derived ∧ Spell trees items.terminals ∧
    traverseAll Terminal.decode items.raws = .ok es ∧ ∀ p, items = .last p → lone

section Forms

variable {level : Nat} {trees front back inner : List Tree} {e a b f : Expr Literal}
  {lone : Prop} {es : List (Expr Literal)}

theorem ReadsAs.of_le {low : Nat} (reads : ReadsAs level trees e) (lowLe : low ≤ level) :
    ReadsAs low trees e := by
  obtain ⟨p, binds, spell, value⟩ := reads
  exact ⟨p, binds.of_le lowLe, spell, value⟩

/-- Above the postfix operators there are no levels. -/
theorem ReadsAs.just (reads : ReadsAs 12 trees e) : ReadsJustAs 12 trees e := by
  obtain ⟨p, binds, spell, value⟩ := reads
  exact ⟨p, binds, fun below => absurd below (Nat.lt_irrefl 12), spell, value⟩

theorem ReadsJustAs.readsAs (reads : ReadsJustAs level trees e) : ReadsAs level trees e := by
  obtain ⟨p, binds, -, spell, value⟩ := reads
  exact ⟨p, binds, spell, value⟩

/-- The level is the highest one whose nonterminal derives the trees. -/
theorem ReadsJustAs.derives_iff (reads : ReadsJustAs level trees e) {required : Nat} (atMost : required ≤ 12) :
    (∃ d : Derivation (nonterminalAt required), d.terminals = Terminal.ofTrees trees) ↔ required ≤ level := by
  obtain ⟨p, binds, tight, spell, -⟩ := reads
  constructor
  · rintro ⟨d, sameTerminals⟩
    have derived : Binds required d.phrase := ⟨d, rfl⟩
    have same : d.phrase = p := by
      refine derived.eq_of_terminals_eq binds ?_
      rw [d.terminals_phrase, sameTerminals, spell.ofTrees_eq]
    have isTight := derived.le_tightness atMost
    rw [same] at isTight
    omega
  · intro below
    obtain ⟨d, rfl⟩ := binds.of_le below
    exact ⟨d, by rw [spell.ofTrees_eq, d.terminals_phrase]⟩

theorem ReadsAs.paren (reads : ReadsAs 0 trees e) :
    ReadsAs 12 [.group .paren .nowhere .nowhere trees] e := by
  obtain ⟨p, binds, spell, value⟩ := reads
  exact ⟨_, binds.paren (symbol_opening .paren) (symbol_closing .paren), spell.group .paren, value⟩

/-- In parentheses where they are needed, trees are read at the level that is asked for. -/
theorem ReadsJustAs.enclosed {x : Expr Token} (reads : ReadsJustAs x.level x.trees e) {required : Nat}
    (atMost : required ≤ 12) : ReadsAs required (x.enclosed required x.trees) e := by
  unfold Expr.enclosed
  split
  · exact (reads.readsAs.of_le (Nat.zero_le _)).paren.of_le atMost
  · exact reads.readsAs.of_le (Nat.le_of_not_lt ‹_›)

theorem readsAs_literal {t : Token} {position : Position} {l : Literal}
    (decoded : t.decode position = .ok l) :
    ReadsAs 12 [.token { t with position := position }] (.literal l position) := by
  have notJoint : ¬(t.kind = .rangle ∧ t.joint) := by
    rintro ⟨isRangle, -⟩
    rw [Token.decode, isRangle] at decoded
    cases decoded
  refine ⟨.literal (ofToken { t with position := position }),
    .literal (Symbol.isLiteral_of_decode decoded), spell_token notJoint, ?_⟩
  have decoded : (ofToken { t with position := position }).decode position = .ok l := by
    rw [decode_ofToken]
    exact decoded
  show (ofToken { t with position := position }).decode position >>= _ = _
  rw [decoded]
  rfl

theorem readsAs_path {name : NamePath} (isNamed : name.IsNamed) :
    ReadsAs 12 name.trees (.path name) := by
  refine ⟨.path name.derivation.phrase, .path ⟨_, rfl⟩, ?_, ?_⟩
  · rw [Phrase.terminals, NameDerivation.terminals_phrase]
    exact isNamed.spell
  · rw [Phrase.raw, NameDerivation.name_phrase, name.name_derivation]
    rfl

theorem ReadsAs.binary {op : BinaryOp} (left : ReadsAs op.leftLevel front a)
    (right : ReadsAs (op.level + 1) back b) :
    ReadsJustAs op.level (front ++ op.symbol.trees ++ back) (.binary op a b) := by
  obtain ⟨_, ⟨l, rfl⟩, spellLeft, valueLeft⟩ := left
  obtain ⟨_, ⟨r, rfl⟩, spellRight, valueRight⟩ := right
  obtain ⟨sign, spellSign⟩ := exists_spell_sign op
  refine ⟨_, ⟨.binary op (BinaryOp.infixes_iff.2 ⟨rfl, rfl, rfl, rfl⟩) l sign r, rfl⟩, fun _ => rfl, ?_, ?_⟩
  · simpa [Derivation.phrase, Phrase.terminals] using (spellLeft.append spellSign).append spellRight
  · rw [Derivation.phrase, Phrase.raw, traverse, valueLeft, valueRight]
    rfl

theorem ReadsAs.unary {op : UnaryOp} (operand : ReadsAs 11 trees e) :
    ReadsJustAs 11 (.token (.mark op.kind) :: trees) (.unary op e) := by
  obtain ⟨p, binds, spell, value⟩ := operand
  have isSign : (Leaf.mark op.kind).terminal.symbol.unaryOp? = some op := by cases op <;> rfl
  refine ⟨.unary op (Leaf.mark op.kind).terminal p, binds.unary isSign, fun _ => rfl,
    spell.mark op.kind (by cases op <;> decide), ?_⟩
  rw [Phrase.raw, traverse, value]
  rfl

theorem ReadsAs.cast (operand : ReadsAs castLevel trees e) {target : NamePath}
    (isNamed : target.IsNamed) :
    ReadsJustAs castLevel (trees ++ .token (.word "as" .nowhere) :: target.trees) (.cast e target) := by
  obtain ⟨p, binds, spell, value⟩ := operand
  refine ⟨.cast p (ofToken (.word "as" .nowhere)) target.derivation.phrase,
    binds.cast rfl ⟨_, rfl⟩, fun _ => rfl, ?_, ?_⟩
  · rw [Phrase.terminals, NameDerivation.terminals_phrase]
    exact spell.append (isNamed.spell.token rfl)
  · rw [Phrase.raw, traverse, value, NameDerivation.name_phrase, target.name_derivation]
    rfl

theorem ReadsAs.propagate (operand : ReadsAs 12 trees e) :
    ReadsAs 12 (trees ++ [.token (.mark .question)]) (.propagate e) := by
  obtain ⟨p, binds, spell, value⟩ := operand
  refine ⟨.propagate p (Leaf.mark .question).terminal, binds.propagate rfl,
    spell.append (spell_nil.mark .question (by decide)), ?_⟩
  rw [Phrase.raw, traverse, value]
  rfl

theorem fieldToken_of_isName {name : String} (isName : IsName name) :
    fieldToken name = .word name .nowhere := by
  simp [fieldToken, isName.2.2.2, Token.word]

/-- The name behind a point is a word or a number. -/
theorem ReadsAs.field (object : ReadsAs 12 trees e) {name : String}
    (isField : isTupleField name ∨ IsName name) :
    ReadsAs 12 (trees ++ [.token (.mark .dot), .token (fieldToken name)]) (.field e name) := by
  obtain ⟨p, binds, spell, value⟩ := object
  refine ⟨.field p (Leaf.mark .dot).terminal (ofToken (fieldToken name)), ?_,
    spell.append ((spell_nil.token rfl).mark .dot (by decide)), ?_⟩
  · rcases isField with isPlace | isName
    · exact binds.tupleField rfl (by simp [fieldToken, isPlace, ofToken, Symbol.ofToken])
    · rw [fieldToken_of_isName isName, ofToken_word _ isName]
      exact binds.field rfl rfl
  · rw [Phrase.raw, traverse, value]
    rfl

theorem ReadsAs.index (object : ReadsAs 12 trees e) (position : ReadsAs 0 inner a) :
    ReadsAs 12 (trees ++ [.group .bracket .nowhere .nowhere inner]) (.index e a) := by
  obtain ⟨p, binds, spell, value⟩ := object
  obtain ⟨q, bindsInner, spellInner, valueInner⟩ := position
  refine ⟨.index p _ q _,
    binds.index bindsInner (symbol_opening .bracket) (symbol_closing .bracket), ?_, ?_⟩
  · simpa [Phrase.terminals] using spell.append (spellInner.group .bracket)
  · rw [Phrase.raw, traverse, value, valueInner]
    rfl

theorem ReadsAs.fill (value : ReadsAs 0 front a) (count : ReadsAs 0 back b) :
    ReadsAs 12 [.group .bracket .nowhere .nowhere (front ++ .token (.mark .semi) :: back)]
      (.fill a b) := by
  obtain ⟨p, bindsValue, spellValue, decodedValue⟩ := value
  obtain ⟨q, bindsCount, spellCount, decodedCount⟩ := count
  have inside := spellValue.append (spellCount.mark .semi (by decide))
  refine ⟨.fill _ p (Leaf.mark .semi).terminal q _,
    bindsValue.fill bindsCount (symbol_opening .bracket) rfl (symbol_closing .bracket), ?_, ?_⟩
  · simpa [Phrase.terminals] using inside.group .bracket
  · rw [Phrase.raw, traverse, decodedValue, decodedCount]
    rfl

theorem ReadsAs.closure (body : ReadsAs 0 trees e) {params : List ClosureParam}
    (areNamed : ∀ p ∈ params, p.IsNamed) :
    ReadsJustAs 0 (ClosureParam.treesOfAll params ++ trees) (.closure params e) := by
  obtain ⟨p, binds, spell, value⟩ := body
  obtain ⟨head, derived, spellHead, sameParams⟩ := ClosureParam.exists_spell areNamed
  refine ⟨.closure head p, .closure derived binds, fun _ => rfl, spellHead.append spell, ?_⟩
  rw [Phrase.raw, traverse, value, sameParams]
  rfl

/-! ## Items -/

theorem itemsReadAs_nil : ItemsReadAs lone [] [] :=
  ⟨.nil, trivial, spell_nil, rfl, nofun⟩

theorem ReadsAs.single (reads : ReadsAs 0 trees e) (isLone : lone) :
    ItemsReadAs lone trees [e] := by
  obtain ⟨p, binds, spell, value⟩ := reads
  refine ⟨.last p, binds, spell, ?_, fun _ _ => isLone⟩
  rw [Items.raws, traverseAll, value]
  rfl

theorem ReadsAs.items (first : ReadsAs 0 front e) {allowed : Prop}
    (later : ItemsReadAs allowed back es) :
    ItemsReadAs lone (front ++ .token (.mark .comma) :: back) (e :: es) := by
  obtain ⟨p, binds, spell, value⟩ := first
  obtain ⟨items, derived, spellItems, values, -⟩ := later
  refine ⟨.cons p (Leaf.mark .comma).terminal items, ⟨binds, rfl, derived⟩,
    spell.append (spellItems.mark .comma (by decide)), ?_, nofun⟩
  rw [Items.raws, traverseAll, value, values]
  rfl

/-- Items in brackets, behind what they are for. -/
theorem ItemsReadAs.build (reads : ItemsReadAs lone inner es) {use : ItemsUse} (d : Delimiter)
    (spellUse : Spell front use.terminals) (valid : use.Valid (opening d))
    (closes : d.closeKind = use.closer) (grouped : use = .group → ¬lone) :
    ∃ items : Items, Binds 12 (use.build (opening d) items (closing d)) ∧
      Spell (front ++ [.group d .nowhere .nowhere inner])
        (use.build (opening d) items (closing d)).terminals ∧
      traverseAll Terminal.decode items.raws = .ok es := by
  obtain ⟨items, derived, spell, values, isLone⟩ := reads
  have isCloser : (closing d).symbol = .token use.closer := closes ▸ symbol_closing d
  refine ⟨items, ItemsUse.binds_build valid derived isCloser ?_, ?_, values⟩
  · intro p isGroup isLast
    exact grouped isGroup (isLone p isLast)
  · rw [ItemsUse.terminals_build]
    simpa using spellUse.append (spell.group d)

theorem ItemsReadAs.tuple (reads : ItemsReadAs lone inner es) (several : ¬lone) :
    ReadsAs 12 [.group .paren .nowhere .nowhere inner] (.tuple es) := by
  have valid : ItemsUse.group.Valid (opening .paren) := symbol_opening .paren
  obtain ⟨items, binds, spell, values⟩ :=
    reads.build .paren spell_nil valid rfl fun _ => several
  refine ⟨_, binds, spell, ?_⟩
  rw [ItemsUse.build, Phrase.raw, traverse, values]
  rfl

theorem ItemsReadAs.array (reads : ItemsReadAs lone inner es) :
    ReadsAs 12 [.group .bracket .nowhere .nowhere inner] (.array es) := by
  have valid : ItemsUse.array.Valid (opening .bracket) := symbol_opening .bracket
  obtain ⟨items, binds, spell, values⟩ := reads.build .bracket spell_nil valid rfl nofun
  refine ⟨_, binds, spell, ?_⟩
  rw [ItemsUse.build, Phrase.raw, traverse, values]
  rfl

theorem ItemsReadAs.invocation (reads : ItemsReadAs lone inner es) {name : NamePath}
    (isNamed : name.IsNamed) :
    ReadsAs 12 (name.trees ++ [.token (.mark .bang), .group .paren .nowhere .nowhere inner])
      (.invocation name es) := by
  have valid : (ItemsUse.invocation name.derivation.phrase (Leaf.mark .bang).terminal .paren).Valid
      (opening .paren) :=
    ⟨⟨_, rfl⟩, rfl, symbol_opening .paren, by decide⟩
  have spellUse : Spell (name.trees ++ [.token (.mark .bang)])
      (name.derivation.phrase.terminals ++ [(Leaf.mark .bang).terminal]) := by
    rw [NameDerivation.terminals_phrase]
    exact isNamed.spell.append (spell_nil.mark .bang (by decide))
  obtain ⟨items, binds, spell, values⟩ := reads.build .paren spellUse valid rfl nofun
  rw [List.append_assoc] at spell
  refine ⟨_, binds, spell, ?_⟩
  rw [ItemsUse.build, Phrase.raw, traverse, values, NameDerivation.name_phrase,
    name.name_derivation]
  rfl

/-- The arguments behind a callee are applied to what it denotes. -/
theorem ItemsReadAs.applied (reads : ItemsReadAs lone inner es) (callee : ReadsAs 12 front f) :
    ReadsAs 12 (front ++ [.group .paren .nowhere .nowhere inner]) (f.applied es) := by
  obtain ⟨p, bindsCallee, spellCallee, value⟩ := callee
  have valid : (ItemsUse.call p).Valid (opening .paren) := ⟨bindsCallee, symbol_opening .paren⟩
  obtain ⟨items, binds, spell, values⟩ := reads.build .paren spellCallee valid rfl nofun
  refine ⟨_, binds, spell, ?_⟩
  rw [ItemsUse.build, Phrase.raw, traverse_applied, value, values]
  rfl

/-- Calling what is no access of a field with a name is a call. -/
theorem ItemsReadAs.call (reads : ItemsReadAs lone inner es) (callee : ReadsAs 12 front f)
    (noMethod : ¬f.IsMethodAccess) :
    ReadsAs 12 (front ++ [.group .paren .nowhere .nowhere inner]) (.call f es) := by
  have isCall : f.applied es = .call f es := by
    cases f with
    | field object name =>
        have isPlace : isTupleField name := by simpa [IsMethodAccess] using noMethod
        rw [Expr.applied, if_pos isPlace]
    | _ => rfl
  rw [← isCall]
  exact reads.applied callee

theorem ItemsReadAs.methodCall (reads : ItemsReadAs lone inner es) (receiver : ReadsAs 12 front e)
    {method : String} (isName : IsName method) :
    ReadsAs 12 (front ++ [.token (.mark .dot), .token (.word method .nowhere),
      .group .paren .nowhere .nowhere inner]) (.methodCall e method es) := by
  have isMethodCall : (Expr.field e method).applied es = .methodCall e method es := by
    simp [Expr.applied, isName.2.2.2]
  have called := reads.applied (receiver.field (.inr isName))
  rw [fieldToken_of_isName isName, isMethodCall, List.append_assoc] at called
  exact called

end Forms

/-! ## Printed expressions -/

/-- Decoding literals does not change what is called. -/
theorem returns_isMethodAccess {α β : Type} (f : α → Position → Except Failure β) (e : Expr α) :
    Returns (fun e' => e'.IsMethodAccess → e.IsMethodAccess) (e.traverse f) := by
  cases e with
  | path name => exact returns_pure id
  | literal | unary | field | propagate | cast | tuple | array | closure | invocation =>
      exact (returns_self _).map fun _ _ same => same
  | binary | call | methodCall | index | fill =>
      exact (returns_self _).map₂ (returns_self _) fun _ _ _ _ same => same

mutual

/-- The trees of an expression are read as it, at its own level. -/
theorem returns_trees : ∀ e : Expr Token, e.IsPrintable →
    Returns (ReadsJustAs e.level e.trees) (e.traverse Token.decode)
  | .literal _ _, _ => (returns_self _).map fun _ isValue => (readsAs_literal isValue).just
  | .path _, isNamed => returns_pure (readsAs_path isNamed).just
  | .binary op a b, ⟨isLeft, isRight⟩ =>
      (returns_trees a isLeft).map₂ (returns_trees b isRight) fun _ _ left right =>
        (left.enclosed (Nat.le_trans op.leftLevel_le (by decide))).binary
          (right.enclosed (Nat.le_trans (Nat.succ_le_succ op.level_le_nine) (by decide)))
  | .unary _ a, isOperand =>
      (returns_trees a isOperand).map fun _ operand => (operand.enclosed (by decide)).unary
  | .cast a _, ⟨isOperand, isNamed⟩ =>
      (returns_trees a isOperand).map fun _ operand => (operand.enclosed (by decide)).cast isNamed
  | .call f as, ⟨isCallee, noMethod, areArgs⟩ => by
      refine (returns_self _).map₂ (returns_treesOfAll as areArgs) fun g bs isValue args => ?_
      have callee := returns_trees f isCallee g isValue
      exact (args.call (callee.enclosed (Nat.le_refl _))
        (mt (returns_isMethodAccess Token.decode f g isValue) noMethod)).just
  | .methodCall a _ as, ⟨isReceiver, isName, areArgs⟩ =>
      (returns_trees a isReceiver).map₂ (returns_treesOfAll as areArgs) fun _ _ receiver args =>
        (args.methodCall (receiver.enclosed (Nat.le_refl _)) isName).just
  | .field a _, ⟨isObject, isField⟩ =>
      (returns_trees a isObject).map fun _ object =>
        ((object.enclosed (Nat.le_refl _)).field isField).just
  | .index a i, ⟨isObject, isPosition⟩ =>
      (returns_trees a isObject).map₂ (returns_trees i isPosition) fun _ _ object position =>
        ((object.enclosed (Nat.le_refl _)).index (position.readsAs.of_le (Nat.zero_le _))).just
  | .propagate a, isOperand =>
      (returns_trees a isOperand).map fun _ operand => (operand.enclosed (Nat.le_refl _)).propagate.just
  | .tuple [], _ => returns_pure (itemsReadAs_nil.tuple not_false).just
  | .tuple [a], ⟨isFirst, _⟩ => by
      have none : ItemsReadAs False [] [] := itemsReadAs_nil
      have elements : Returns (ItemsReadAs False (trees a ++ [.token (.mark .comma)]))
          (traverseAll Token.decode [a]) :=
        (returns_trees a isFirst).map₂ (returns_pure none) fun _ _ first later =>
          (first.readsAs.of_le (Nat.zero_le _)).items later
      exact elements.map fun _ elements => (elements.tuple not_false).just
  | .tuple (a :: b :: as), areElements =>
      (returns_treesOfAll (a :: b :: as) areElements).map fun _ elements => (elements.tuple (by simp)).just
  | .array as, areElements =>
      (returns_treesOfAll as areElements).map fun _ elements => elements.array.just
  | .fill a n, ⟨isValue, isCount⟩ =>
      (returns_trees a isValue).map₂ (returns_trees n isCount) fun _ _ value count =>
        ((value.readsAs.of_le (Nat.zero_le _)).fill (count.readsAs.of_le (Nat.zero_le _))).just
  | .closure _ a, ⟨areNamed, isBody⟩ =>
      (returns_trees a isBody).map fun _ body => (body.readsAs.of_le (Nat.zero_le _)).closure areNamed
  | .invocation _ as, ⟨isNamed, areArgs⟩ =>
      (returns_treesOfAll as areArgs).map fun _ args => (args.invocation isNamed).just

theorem returns_treesOfAll : ∀ as : List (Expr Token), ArePrintable as →
    Returns (ItemsReadAs (as.length = 1) (treesOfAll as)) (traverseAll Token.decode as)
  | [], _ => returns_pure itemsReadAs_nil
  | [a], ⟨isFirst, _⟩ => by
      refine (returns_trees a isFirst).map₂ (returns_self (traverseAll Token.decode [])) ?_
      intro e es first isNil
      obtain rfl := Except.ok.inj isNil
      have elements : ItemsReadAs True (trees a) [e] :=
        (first.readsAs.of_le (Nat.zero_le _)).single trivial
      simpa [treesOfAll] using elements
  | a :: b :: as, ⟨isFirst, areLater⟩ =>
      (returns_trees a isFirst).map₂ (returns_treesOfAll (b :: as) areLater) fun _ _ first later =>
        (first.readsAs.of_le (Nat.zero_le _)).items later

end

/-- An expression that can be printed is read from its trees, whichever tokens stand for its literals: parentheses are
where its operators need them, and nowhere else, as its level is the highest one whose nonterminal derives its trees.
Trees that differ in their places only are read as an equal expression. -/
theorem ofTrees_trees (x : Expr Token) (printable : x.IsPrintable) (e : Expr Literal)
    (value : x.traverse Token.decode = .ok e) (finish : Position) :
    ofTrees x.trees finish = .ok e ∧
    (∀ trees, Tree.unplacedAll trees = Tree.unplacedAll x.trees →
      (∀ t ∈ Tree.leavesAll x.trees, t.IsReflexive) →
      ∃ e', ofTrees trees finish = .ok e' ∧ e'.same Literal.same e) ∧
    ∀ required ≤ 12, (∃ d : Derivation (nonterminalAt required), d.terminals = Terminal.ofTrees x.trees) ↔
      required ≤ x.level := by
  have reads := returns_trees x printable e value
  obtain ⟨p, binds, spell, decoded⟩ := reads.readsAs
  obtain ⟨d, rfl⟩ := binds.of_le (Nat.zero_le _)
  have sameTerminals : (Derivation.rename .start d).terminals = Terminal.ofTrees x.trees := by
    rw [spell.ofTrees_eq, d.terminals_phrase]
    rfl
  have read : ofTrees x.trees finish = .ok e :=
    ofTrees_eq_ok_iff.2 ⟨.rename .start d, sameTerminals, d.value_eq.trans decoded⟩
  refine ⟨read, fun trees alike reflexive => ?_, fun required atMost => reads.derives_iff atMost⟩
  exact (reproduces_ofTrees alike reflexive finish finish).values e read

/-- The expression `(1 + a) * -(b as u8)` needs its parentheses, and no others. -/
theorem ofTrees_trees_product :
    ofTrees
      [.group .paren .nowhere .nowhere [.token ⟨.int, "1", .nowhere, false⟩, .token (.mark .plus),
          .token (.word "a" .nowhere)],
        .token (.mark .star), .token (.mark .minus),
        .group .paren .nowhere .nowhere [.token (.word "b" .nowhere), .token (.word "as" .nowhere),
          .token (.word "u8" .nowhere)]] .nowhere =
      .ok (.binary .mul
        (.binary .add (.literal ⟨.int 1, ""⟩ .nowhere) (.path ⟨"a", [], .nowhere⟩))
        (.unary .neg (.cast (.path ⟨"b", [], .nowhere⟩) ⟨"u8", [], .nowhere⟩))) := by
  have isNamed {text : String} (isName : IsName text) :
      (⟨text, [], .nowhere⟩ : NamePath).IsNamed := by
    simpa [NamePath.IsNamed, NamePath.segments] using isName
  let x : Expr Token := .binary .mul
    (.binary .add (.literal ⟨.int, "1", .nowhere, false⟩ .nowhere) (.path ⟨"a", [], .nowhere⟩))
    (.unary .neg (.cast (.path ⟨"b", [], .nowhere⟩) ⟨"u8", [], .nowhere⟩))
  have printable : x.IsPrintable :=
    ⟨⟨trivial, isNamed ⟨by decide, by decide, by decide, by rfl⟩⟩,
      isNamed ⟨by decide, by decide, by decide, by rfl⟩,
      isNamed ⟨by decide, by decide, by decide, by rfl⟩⟩
  exact (ofTrees_trees x printable _ (by rfl) .nowhere).1

end Expr

end AttrGrammar
