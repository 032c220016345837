import AttrGrammar.Proofs.Expression.Extent
import AttrGrammar.Proofs.Expression.Soundness

/-!
Contract: expressions as trees, with parentheses only where their operators need them.

Owns:
- how strongly expressions bind, and the trees that they are printed as, given tokens for their literals;
- the expressions that can be printed;
- the terminals of printed names, signs and parameters, which do not depend on what follows them.

Does not own: that printed expressions are read again.
-/

namespace AttrGrammar

/-! ## Signs and names -/

/-- How the sign of an operator is read. -/
def BinaryOp.symbol : BinaryOp → Symbol
  | or => .token .orOr
  | and => .token .andAnd
  | eq => .token .eqEq
  | ne => .token .notEq
  | lt => .token .langle
  | gt => .token .rangle
  | le => .token .lessEq
  | ge => .token .greaterEq
  | bitOr => .token .pipe
  | bitXor => .token .caret
  | bitAnd => .token .amp
  | shl => .token .shiftLeft
  | shr => .shiftRight
  | add => .token .plus
  | sub => .token .minus
  | mul => .token .star
  | div => .token .slash
  | rem => .token .percent

/-- The productions of binary operators are those of the levels: an operation has the level of its operator, and its
operands have the levels that they are printed for. -/
theorem BinaryOp.infixes_iff {n l r : Nonterminal} {s : Symbol} {op : BinaryOp} :
    Infixes n l s r op ↔ n = nonterminalAt op.level ∧ l = nonterminalAt op.leftLevel ∧ s = op.symbol ∧
      r = nonterminalAt (op.level + 1) := by
  constructor
  · intro rule
    cases rule <;> exact ⟨rfl, rfl, rfl, rfl⟩
  · rintro ⟨rfl, rfl, rfl, rfl⟩
    cases op <;> constructor

/-- How the sign of an operator is read. -/
def UnaryOp.kind : UnaryOp → TokenKind
  | neg => .minus
  | not => .bang
  | deref => .star
  | ref => .amp

/-- The trees of a sign: a shift to the right is a joint pair. -/
def Symbol.trees : Symbol → List Tree
  | shiftRight => [.token { Token.mark .rangle with joint := true }, .token (.mark .rangle)]
  | s => [.token (.mark s.tokenKind)]

/-- A name as trees. -/
def NamePath.trees (n : NamePath) : List Tree :=
  .token (.word n.head n.position) ::
    n.tail.flatMap fun segment => [.token (.mark .pathSep), .token (.word segment .nowhere)]

def ClosureParam.trees (p : ClosureParam) : List Tree :=
  .token (.word p.name .nowhere) ::
    p.type.elim [] fun type => .token (.mark .colon) :: type.trees

/-- The parameters of a closure between bars. -/
def ClosureParam.treesOfAll : List ClosureParam → List Tree
  | [] => [.token (.mark .orOr)]
  | first :: later =>
      .token (.mark .pipe) :: first.trees ++
        (later.flatMap fun param => .token (.mark .comma) :: param.trees) ++ [.token (.mark .pipe)]

namespace Expr

/-! ## Expressions -/

/-- How strongly an expression binds: closures less than all operators, and what needs no operator most. -/
def level {α : Type} : Expr α → Nat
  | closure .. => 0
  | binary op .. => op.level
  | cast .. => castLevel
  | unary .. => 11
  | _ => 12

/-- The token behind the point of a field. -/
def fieldToken (name : String) : Token :=
  ⟨if isTupleField name then .int else .ident, name, .nowhere, false⟩

/-- The trees of an operand, in parentheses if it binds less than it has to. -/
def enclosed {α : Type} (required : Nat) (e : Expr α) (trees : List Tree) : List Tree :=
  if e.level < required then [.group .paren .nowhere .nowhere trees] else trees

mutual

/-- The trees of an expression whose literals are tokens. -/
def trees : Expr Token → List Tree
  | literal t position => [.token { t with position := position }]
  | path name => name.trees
  | binary op a b =>
      a.enclosed op.leftLevel (trees a) ++ op.symbol.trees ++ b.enclosed (op.level + 1) (trees b)
  | unary op a => .token (.mark op.kind) :: a.enclosed 11 (trees a)
  | cast a target =>
      a.enclosed castLevel (trees a) ++ .token (.word "as" .nowhere) :: target.trees
  | call f as => f.enclosed 12 (trees f) ++ [.group .paren .nowhere .nowhere (treesOfAll as)]
  | methodCall a method as =>
      a.enclosed 12 (trees a) ++ [.token (.mark .dot), .token (.word method .nowhere),
        .group .paren .nowhere .nowhere (treesOfAll as)]
  | field a name => a.enclosed 12 (trees a) ++ [.token (.mark .dot), .token (fieldToken name)]
  | index a i => a.enclosed 12 (trees a) ++ [.group .bracket .nowhere .nowhere (trees i)]
  | propagate a => a.enclosed 12 (trees a) ++ [.token (.mark .question)]
  | tuple [a] => [.group .paren .nowhere .nowhere (trees a ++ [.token (.mark .comma)])]
  | tuple as => [.group .paren .nowhere .nowhere (treesOfAll as)]
  | array as => [.group .bracket .nowhere .nowhere (treesOfAll as)]
  | fill a n => [.group .bracket .nowhere .nowhere (trees a ++ .token (.mark .semi) :: trees n)]
  | closure params body => ClosureParam.treesOfAll params ++ trees body
  | invocation name as =>
      name.trees ++ [.token (.mark .bang), .group .paren .nowhere .nowhere (treesOfAll as)]

/-- The trees of expressions with commas between them. -/
def treesOfAll : List (Expr Token) → List Tree
  | [] => []
  | a :: as => trees a ++ if as.isEmpty then [] else .token (.mark .comma) :: treesOfAll as

end

end Expr

/-! ## Expressions that can be printed -/

/-- Whether a text can be a name: the words that the grammar sets apart cannot, and digits cannot. -/
def IsName (text : String) : Prop :=
  text ≠ "as" ∧ text ≠ "true" ∧ text ≠ "false" ∧ Expr.isTupleField text = false

def NamePath.IsNamed (n : NamePath) : Prop :=
  ∀ segment ∈ n.segments, IsName segment

def ClosureParam.IsNamed (p : ClosureParam) : Prop :=
  IsName p.name ∧ ∀ type ∈ p.type, type.IsNamed

namespace Expr

/-- Whether an expression is the access of a field that is no place in a tuple: calling it is a method call. -/
def IsMethodAccess {α : Type} : Expr α → Prop
  | field _ name => isTupleField name = false
  | _ => False

mutual

/-- Whether an expression can be printed: its names can be names, its fields are names or digits, and no call is one
of a field with a name. -/
def IsPrintable {α : Type} : Expr α → Prop
  | literal _ _ => True
  | path name => name.IsNamed
  | binary _ a b => IsPrintable a ∧ IsPrintable b
  | unary _ a => IsPrintable a
  | call f as => IsPrintable f ∧ ¬f.IsMethodAccess ∧ ArePrintable as
  | methodCall a method as => IsPrintable a ∧ IsName method ∧ ArePrintable as
  | field a name => IsPrintable a ∧ (isTupleField name ∨ IsName name)
  | index a i => IsPrintable a ∧ IsPrintable i
  | propagate a => IsPrintable a
  | cast a target => IsPrintable a ∧ target.IsNamed
  | tuple as => ArePrintable as
  | array as => ArePrintable as
  | fill a n => IsPrintable a ∧ IsPrintable n
  | closure params body => (∀ p ∈ params, p.IsNamed) ∧ IsPrintable body
  | invocation name as => name.IsNamed ∧ ArePrintable as

def ArePrintable {α : Type} : List (Expr α) → Prop
  | [] => True
  | a :: as => IsPrintable a ∧ ArePrintable as

end

end Expr

/-! ## Terminals -/

/-- A mark by itself. -/
def Leaf.mark (kind : TokenKind) : Mark kind :=
  ⟨String.ofList kind.spelling, .nowhere⟩

namespace Terminal

/-- An opening bracket by itself. -/
def opening (d : Delimiter) : Terminal :=
  ofToken ⟨d.openKind, d.openText, .nowhere, false⟩

/-- A closing bracket by itself. -/
def closing (d : Delimiter) : Terminal :=
  ofToken ⟨d.closeKind, d.closeText, .nowhere, false⟩

theorem symbol_opening (d : Delimiter) : (opening d).symbol = .token d.openKind := by
  cases d <;> rfl

theorem symbol_closing (d : Delimiter) : (closing d).symbol = .token d.closeKind := by
  cases d <;> rfl

/-- Whether trees have just these terminals, whatever trees follow. -/
def Spell (trees : List Tree) (ts : List Terminal) : Prop :=
  ∀ later, ofTrees (trees ++ later) = ts ++ ofTrees later

section Spell

variable {trees front back : List Tree} {ts us : List Terminal}

theorem Spell.ofTrees_eq (spell : Spell trees ts) : ofTrees trees = ts := by
  have alone := spell []
  rw [List.append_nil] at alone
  rw [alone]
  exact List.append_nil ts

theorem spell_nil : Spell [] [] :=
  fun _ => rfl

theorem Spell.append (first : Spell front ts) (second : Spell back us) :
    Spell (front ++ back) (ts ++ us) := by
  intro later
  rw [List.append_assoc, first, second, List.append_assoc]

theorem spell_token {t : Token} (alone : ¬(t.kind = .rangle ∧ t.joint)) :
    Spell [.token t] [ofToken t] :=
  fun _ => ofTrees_token fun _ _ _ both => alone ⟨both.1, both.2.1⟩

theorem Spell.token (second : Spell back us) {t : Token} (notJoint : t.joint = false) :
    Spell (.token t :: back) (ofToken t :: us) :=
  (spell_token (by simp [notJoint])).append second

theorem Spell.group (inside : Spell trees ts) (d : Delimiter) :
    Spell [.group d .nowhere .nowhere trees] (opening d :: ts ++ [closing d]) := by
  intro later
  rw [List.singleton_append, ofTrees_group, inside.ofTrees_eq]
  simp [opening, closing]

end Spell

theorem Spell.flatMap {α : Type} {f : α → List Tree} {g : α → List Terminal} {xs : List α}
    (each : ∀ x ∈ xs, Spell (f x) (g x)) : Spell (xs.flatMap f) (xs.flatMap g) := by
  induction xs with
  | nil => exact spell_nil
  | cons x xs inductionHypothesis =>
      obtain ⟨first, later⟩ := List.forall_mem_cons.1 each
      exact first.append (inductionHypothesis later)

theorem ofToken_mark {kind : TokenKind} (other : kind ≠ .ident) :
    ofToken (.mark kind) = (Leaf.mark kind).terminal := by
  simp [ofToken, Symbol.ofToken, Token.mark, Leaf.mark, Leaf.terminal, other]

theorem ofToken_word {text : String} (position : Position) (isName : IsName text) :
    ofToken (.word text position) = ⟨.token .ident, text, position⟩ := by
  obtain ⟨notAs, notTrue, notFalse, -⟩ := isName
  simp [ofToken, Symbol.ofToken, Token.word, notAs, notTrue, notFalse]

theorem Spell.mark {back : List Tree} {us : List Terminal} (second : Spell back us)
    (kind : TokenKind) (other : kind ≠ .ident) :
    Spell (.token (.mark kind) :: back) ((Leaf.mark kind).terminal :: us) := by
  rw [← ofToken_mark other]
  exact second.token rfl

theorem Spell.word {back : List Tree} {us : List Terminal} (second : Spell back us)
    {text : String} (position : Position) (isName : IsName text) :
    Spell (.token (.word text position) :: back) (⟨.token .ident, text, position⟩ :: us) := by
  rw [← ofToken_word position isName]
  exact second.token rfl

/-- The sign of a binary operator is one terminal. -/
theorem exists_spell_sign (op : BinaryOp) :
    ∃ sign : Leaf op.symbol, Spell op.symbol.trees [sign.terminal] := by
  by_cases isShift : op = .shr
  · subst isShift
    exact ⟨⟨">>", .nowhere⟩, fun later => rfl⟩
  · cases op <;> first | exact absurd rfl isShift | exact ⟨Leaf.mark _, spell_nil.token rfl⟩

end Terminal

/-! ## Names and parameters -/

open Terminal

/-- The derivation of a name as it is printed. -/
def NamePath.derivation (n : NamePath) : NameDerivation :=
  ⟨⟨n.head, n.position⟩, n.tail.map fun segment => (.mark .pathSep, ⟨segment, .nowhere⟩)⟩

theorem NamePath.name_derivation (n : NamePath) : n.derivation.name = n := by
  simp [derivation, NameDerivation.name, Function.comp_def]

theorem NamePath.IsNamed.spell {n : NamePath} (isNamed : n.IsNamed) :
    Spell n.trees n.derivation.terminals := by
  obtain ⟨isHead, areTail⟩ := List.forall_mem_cons.1 isNamed
  have later : Spell
      (n.tail.flatMap fun segment => [.token (.mark .pathSep), .token (.word segment .nowhere)])
      (n.tail.flatMap fun segment =>
        [(Leaf.mark .pathSep).terminal, ⟨.token .ident, segment, .nowhere⟩]) :=
    Spell.flatMap fun segment member =>
      (spell_nil.word .nowhere (areTail segment member)).mark .pathSep (by decide)
  rw [NameDerivation.terminals, derivation, List.flatMap_map]
  exact later.word n.position isHead

/-- The derivation of a parameter as it is printed. -/
def ClosureParam.derivation (p : ClosureParam) : ParamDerivation :=
  ⟨⟨p.name, .nowhere⟩, p.type.map fun type => (.mark .colon, type.derivation)⟩

theorem ClosureParam.param_derivation (p : ClosureParam) : p.derivation.param = p := by
  obtain ⟨name, type⟩ := p
  cases type <;> simp [derivation, ParamDerivation.param, NamePath.name_derivation]

theorem ClosureParam.IsNamed.spell {p : ClosureParam} (isNamed : p.IsNamed) :
    Spell p.trees p.derivation.terminals := by
  obtain ⟨name, type⟩ := p
  obtain ⟨isName, isType⟩ := isNamed
  cases type with
  | none => exact spell_nil.word .nowhere isName
  | some type => exact ((isType type rfl).spell.mark .colon (by decide)).word .nowhere isName

/-- The parameters between bars are those of a closure. -/
theorem ClosureParam.exists_spell {params : List ClosureParam} (areNamed : ∀ p ∈ params, p.IsNamed) :
    ∃ head : ClosureHead, head.Derived ∧ Spell (treesOfAll params) head.terminals ∧
      head.params = params := by
  cases params with
  | nil => exact ⟨.orOr (Leaf.mark .orOr).terminal, rfl, spell_nil.mark .orOr (by decide), rfl⟩
  | cons first later =>
      obtain ⟨isFirst, areLater⟩ := List.forall_mem_cons.1 areNamed
      let d : ParamsDerivation :=
        ⟨first.derivation, later.map fun param => (.mark .comma, param.derivation), none⟩
      refine ⟨ParamsDerivation.head (.mark .pipe) (.mark .pipe) (some d),
        ⟨.mark .pipe, .mark .pipe, some d, rfl⟩, ?_, ?_⟩
      · have behind : Spell
            (later.flatMap fun param => .token (.mark .comma) :: param.trees)
            (later.flatMap fun param =>
              (Leaf.mark .comma).terminal :: param.derivation.terminals) :=
          Spell.flatMap fun param member => (areLater param member).spell.mark .comma (by decide)
        have between := (isFirst.spell.append behind).append (spell_nil.mark .pipe (by decide))
        rw [ParamsDerivation.terminals_head]
        simpa [treesOfAll, d, ParamsDerivation.terminals, List.flatMap_map] using
          between.mark .pipe (by decide)
      · rw [ParamsDerivation.params_head]
        simp [d, ParamsDerivation.params, param_derivation, Function.comp_def]

end AttrGrammar
