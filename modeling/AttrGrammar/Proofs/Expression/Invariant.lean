import AttrGrammar.Proofs.Expression.Spelling

/-!
Contract: what the parser of expressions has read, as derivations.

Owns:
- the nonterminals by binding strength, and the phrases that derive from them;
- the invariant of the parser: what each frame and each phase holds derives from its nonterminal, and each frame
  stands where its construct is allowed;
- the terminals that a state was made of;
- runs of the parser, which compose.

Does not own: that steps keep the invariant.
-/

namespace AttrGrammar

/-! ## Phrases with a derivation -/

/-- Whether a phrase has a derivation from a nonterminal. -/
def Nonterminal.Derives (n : Nonterminal) (p : Phrase) : Prop :=
  ∃ d : Derivation n, d.phrase = p

/-- Whether a phrase of a name has a derivation. -/
def NamePhrase.Derived (n : NamePhrase) : Prop :=
  ∃ d : NameDerivation, d.phrase = n

/-- Whether a phrase of a parameter has a derivation. -/
def ParamPhrase.Derived (p : ParamPhrase) : Prop :=
  ∃ d : ParamDerivation, d.phrase = p

/-- Whether the head of a closure is one that a derivation has. -/
def ClosureHead.Derived : ClosureHead → Prop
  | bars before last closing =>
      ∃ (opening end' : Mark .pipe) (params : Option ParamsDerivation),
        ParamsDerivation.head opening end' params = bars before last closing
  | orOr t => t.symbol = .token .orOr

/-- Whether the bar of a closure and its parameters so far are well formed. -/
def OpenParams.Derived (p : OpenParams) : Prop :=
  p.opening.symbol = .token .pipe ∧
    ∀ step ∈ p.before, step.1.Derived ∧ step.2.symbol = .token .comma

/-- Whether items are expressions with commas between them. -/
def Items.Derived : Items → Prop
  | nil => True
  | last e => Nonterminal.expr.Derives e
  | cons e comma later =>
      Nonterminal.expr.Derives e ∧ comma.symbol = .token .comma ∧ later.Derived

theorem Leaf.exists_of_symbol {s : Symbol} {t : Terminal} (isSymbol : t.symbol = s) :
    ∃ leaf : Leaf s, leaf.terminal = t := by
  subst isSymbol
  exact ⟨⟨t.text, t.position⟩, rfl⟩

/-- The nonterminal whose phrases bind at least as tightly as a level. -/
def nonterminalAt : Nat → Nonterminal
  | 0 => .expr
  | 1 => .orExpr
  | 2 => .andExpr
  | 3 => .cmpExpr
  | 4 => .bitOrExpr
  | 5 => .bitXorExpr
  | 6 => .bitAndExpr
  | 7 => .shiftExpr
  | 8 => .sumExpr
  | 9 => .productExpr
  | 10 => .castExpr
  | 11 => .unaryExpr
  | _ => .postfixExpr

/-- Whether a phrase derives from the nonterminal of a level. -/
def Binds (level : Nat) (p : Phrase) : Prop :=
  (nonterminalAt level).Derives p

theorem Binds.pred {level : Nat} {p : Phrase} (binds : Binds (level + 1) p) : Binds level p := by
  obtain ⟨d, rfl⟩ := binds
  match level, d with
  | 0, d => exact ⟨.rename .operation d, rfl⟩
  | 1, d => exact ⟨.rename .orExpr d, rfl⟩
  | 2, d => exact ⟨.rename .andExpr d, rfl⟩
  | 3, d => exact ⟨.rename .cmpExpr d, rfl⟩
  | 4, d => exact ⟨.rename .bitOrExpr d, rfl⟩
  | 5, d => exact ⟨.rename .bitXorExpr d, rfl⟩
  | 6, d => exact ⟨.rename .bitAndExpr d, rfl⟩
  | 7, d => exact ⟨.rename .shiftExpr d, rfl⟩
  | 8, d => exact ⟨.rename .sumExpr d, rfl⟩
  | 9, d => exact ⟨.rename .productExpr d, rfl⟩
  | 10, d => exact ⟨.rename .castExpr d, rfl⟩
  | 11, d => exact ⟨.rename .unaryExpr d, rfl⟩
  | _ + 12, d => exact ⟨d, rfl⟩

/-- What binds tightly can stand where looser phrases are allowed. -/
theorem Binds.of_le {low high : Nat} {p : Phrase} (lowLe : low ≤ high) (binds : Binds high p) :
    Binds low p := by
  induction lowLe with
  | refl => exact binds
  | step _ inductionHypothesis => exact inductionHypothesis binds.pred

/-- The level of the left operand of an operator: comparisons do not take comparisons. -/
def BinaryOp.leftLevel (op : BinaryOp) : Nat :=
  if op.isComparison then op.level + 1 else op.level

theorem BinaryOp.level_le_nine (op : BinaryOp) : op.level ≤ 9 := by
  cases op <;> decide

theorem BinaryOp.level_le_leftLevel (op : BinaryOp) : op.level ≤ op.leftLevel := by
  cases op <;> decide

theorem BinaryOp.leftLevel_le (op : BinaryOp) : op.leftLevel ≤ 9 := by
  cases op <;> decide

theorem BinaryOp.isComparison_iff (op : BinaryOp) : op.isComparison ↔ op.level = 3 := by
  cases op <;> decide

/-- The production of the binary operator that a symbol stands for. -/
theorem Symbol.infixes_of_binaryOp? {s : Symbol} {op : BinaryOp} (found : s.binaryOp? = some op) :
    Infixes (nonterminalAt op.level) (nonterminalAt op.leftLevel) s (nonterminalAt (op.level + 1))
      op := by
  unfold Symbol.binaryOp? at found
  split at found <;> first | (cases found; constructor) | cases found

theorem Symbol.signs_of_unaryOp? {s : Symbol} {op : UnaryOp} (found : s.unaryOp? = some op) :
    Signs s op := by
  unfold Symbol.unaryOp? at found
  split at found <;> first | (cases found; constructor) | cases found

theorem Symbol.spellsLiteral_of_isLiteral {s : Symbol} (isLiteral : s.isLiteral) :
    SpellsLiteral s := by
  unfold Symbol.isLiteral at isLiteral
  split at isLiteral
  · unfold TokenKind.isLiteral at isLiteral
    split at isLiteral <;> first | constructor | cases isLiteral
  · constructor
  · cases isLiteral

/-! ## The invariant -/

namespace ExprParser

namespace ItemsUse

/-- Whether what stands in front of the items of a use is well formed, the opening bracket included. -/
def Valid (opening : Terminal) : ItemsUse → Prop
  | group => opening.symbol = .token .lparen
  | call callee => Binds 12 callee ∧ opening.symbol = .token .lparen
  | invocation name bang delimiter =>
      name.Derived ∧ bang.symbol = .token .bang ∧
        opening.symbol = .token delimiter.openKind ∧ delimiter ≠ .brace
  | array => opening.symbol = .token .lbracket

/-- The terminals in front of the opening bracket. -/
def terminals : ItemsUse → List Terminal
  | group => []
  | call callee => callee.terminals
  | invocation name bang _ => name.terminals ++ [bang]
  | array => []

end ItemsUse

namespace Frame

/-- The level of the phrase that a frame becomes with its operand. -/
def level : Frame → Nat
  | binary _ op _ => op.level
  | unary .. => 11
  | closure _ => 0
  | items .. | index .. | fill .. => 12

/-- The level that the operand of a frame has to have. -/
def operandLevel : Frame → Nat
  | binary _ op _ => op.level + 1
  | unary .. => 11
  | closure _ | items .. | index .. | fill .. => 0

/-- Whether what a frame holds is well formed. -/
def Valid : Frame → Prop
  | binary left op sign => sign.symbol.binaryOp? = some op ∧ Binds op.leftLevel left
  | unary op sign => sign.symbol.unaryOp? = some op
  | closure head => head.Derived
  | items use opening before =>
      use.Valid opening ∧ ∀ step ∈ before, Binds 0 step.1 ∧ step.2.symbol = .token .comma
  | index object opening => Binds 12 object ∧ opening.symbol = .token .lbracket
  | fill opening value semi =>
      opening.symbol = .token .lbracket ∧ Binds 0 value ∧ semi.symbol = .token .semi

def terminals : Frame → List Terminal
  | binary left _ sign => left.terminals ++ [sign]
  | unary _ sign => [sign]
  | closure head => head.terminals
  | items use opening before =>
      use.terminals ++ opening :: before.flatMap fun step => step.1.terminals ++ [step.2]
  | index object opening => object.terminals ++ [opening]
  | fill opening value semi => opening :: value.terminals ++ [semi]

end Frame

/-- The step for a binary operator, on what settling at the level of its left operand leaves. -/
theorem stepBinary_eq (e : Phrase) (op : BinaryOp) (frames : List Frame) (t : Terminal) :
    stepBinary e op frames t =
      match settle op.leftLevel e frames with
      | (left, outer) =>
          match outer with
          | .binary _ other _ :: _ =>
              if op.isComparison && other.isComparison then stuck []
              else goOn .start (.binary left op t :: outer)
          | _ => goOn .start (.binary left op t :: outer) :=
  rfl

/-- The level that an operand has to have inside frames. -/
def operandLevel : List Frame → Nat
  | [] => 0
  | frame :: _ => frame.operandLevel

/-- Whether frames are well formed, and each of them can stand as an operand of the next one. -/
def FramesValid : List Frame → Prop
  | [] => True
  | frame :: outer => frame.Valid ∧ operandLevel outer ≤ frame.level ∧ FramesValid outer

/-- The terminals that frames were made of, those of the outermost frame first. -/
def framesTerminals : List Frame → List Terminal
  | [] => []
  | frame :: outer => framesTerminals outer ++ frame.terminals

namespace TypeUse

/-- Whether what a type name belongs to is well formed inside frames. -/
def Valid (frames : List Frame) : TypeUse → Prop
  | cast operand asWord =>
      Binds 10 operand ∧ asWord.symbol = .asWord ∧ operandLevel frames ≤ 10
  | param before name colon =>
      before.Derived ∧ name.symbol = .token .ident ∧ colon.symbol = .token .colon ∧
        operandLevel frames ≤ 0

def terminals : TypeUse → List Terminal
  | cast operand asWord => operand.terminals ++ [asWord]
  | param before name colon => before.terminals ++ [name, colon]

end TypeUse

namespace Phase

/-- Whether what was read behind the innermost frame is well formed. -/
def Valid (frames : List Frame) : Phase → Prop
  | start => True
  | operand e => Binds 12 e
  | path name => name.Derived
  | pathSep name separator => name.Derived ∧ separator.symbol = .token .pathSep
  | bang name sign => name.Derived ∧ sign.symbol = .token .bang
  | dot object sign => Binds 12 object ∧ sign.symbol = .token .dot
  | typeStart use => use.Valid frames
  | typePath use name => use.Valid frames ∧ name.Derived
  | typeSep use name separator =>
      use.Valid frames ∧ name.Derived ∧ separator.symbol = .token .pathSep
  | params before => before.Derived ∧ operandLevel frames ≤ 0
  | paramName before name =>
      before.Derived ∧ name.symbol = .token .ident ∧ operandLevel frames ≤ 0

/-- The terminals that were read behind the innermost frame. -/
def terminals : Phase → List Terminal
  | start => []
  | operand e => e.terminals
  | path name => name.terminals
  | pathSep name separator => name.terminals ++ [separator]
  | bang name sign => name.terminals ++ [sign]
  | dot object sign => object.terminals ++ [sign]
  | typeStart use => use.terminals
  | typePath use name => use.terminals ++ name.terminals
  | typeSep use name separator => use.terminals ++ name.terminals ++ [separator]
  | params before => before.terminals
  | paramName before name => before.terminals ++ [name]

end Phase

/-- Whether a state is well formed and was made of terminals. -/
structure State.Reads (s : State) (ts : List Terminal) : Prop where
  frames : FramesValid s.frames
  phase : s.phase.Valid s.frames
  terminals : framesTerminals s.frames ++ s.phase.terminals = ts

/-! ## Runs -/

/-- Whether terminals lead from a state to a state. -/
def Reaches (s : State) : List Terminal → State → Prop
  | [], target => s = target
  | t :: later, target => ∃ next, step s t = .ok next ∧ Reaches next later target

section Runs

variable {s next middle target : State} {t : Terminal} {front later ts : List Terminal}

theorem Reaches.single (taken : step s t = .ok target) : Reaches s [t] target :=
  ⟨target, taken, rfl⟩

theorem Reaches.cons (taken : step s t = .ok next) (rest : Reaches next later target) :
    Reaches s (t :: later) target :=
  ⟨next, taken, rest⟩

theorem reaches_append_iff : Reaches s (front ++ later) target ↔
    ∃ middle, Reaches s front middle ∧ Reaches middle later target := by
  induction front generalizing s with
  | nil =>
      constructor
      · intro reaches
        exact ⟨s, rfl, reaches⟩
      · rintro ⟨middle, rfl, reaches⟩
        exact reaches
  | cons t front inductionHypothesis =>
      constructor
      · rintro ⟨next, taken, reaches⟩
        obtain ⟨middle, first, second⟩ := inductionHypothesis.1 reaches
        exact ⟨middle, .cons taken first, second⟩
      · rintro ⟨middle, ⟨next, taken, first⟩, second⟩
        exact .cons taken (inductionHypothesis.2 ⟨middle, first, second⟩)

theorem Reaches.append (first : Reaches s front middle) (second : Reaches middle later target) :
    Reaches s (front ++ later) target :=
  reaches_append_iff.2 ⟨middle, first, second⟩

/-- Terminals are parsed where they lead to a state that input may end in. -/
theorem run_eq_ok_iff {phrase : Phrase} :
    run s ts = .ok phrase ↔ ∃ target, Reaches s ts target ∧ finish target = .ok phrase := by
  induction ts generalizing s with
  | nil =>
      unfold run
      constructor
      · intro finished
        refine ⟨s, rfl, ?_⟩
        cases result : finish s with
        | error expected => rw [result] at finished; cases finished
        | ok whole =>
            rw [result] at finished
            exact congrArg Except.ok (Except.ok.inj finished)
      · rintro ⟨target, rfl, finished⟩
        rw [finished]
        rfl
  | cons t later inductionHypothesis =>
      unfold run
      constructor
      · intro finished
        split at finished
        · rename_i next taken
          obtain ⟨target, reaches, atEnd⟩ := inductionHypothesis.1 finished
          exact ⟨target, .cons taken reaches, atEnd⟩
        · cases finished
      · rintro ⟨target, ⟨next, taken, reaches⟩, atEnd⟩
        rw [taken]
        exact inductionHypothesis.2 ⟨target, reaches, atEnd⟩

end Runs

end ExprParser

end AttrGrammar
