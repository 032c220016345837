import AttrGrammar.Proofs.Expression.Invariant

/-!
Contract: the parser of expressions yields the phrase of every derivation.

Owns:
- when a state holds a phrase behind frames, as far as looser constructs can tell;
- the run through the terminals of a derivation, which starts in any frames that allow its nonterminal.

Does not own: that the parser yields nothing else.
-/

namespace AttrGrammar

/-- How tightly the phrases of a nonterminal bind at least. -/
def Nonterminal.level : Nonterminal → Nat
  | start | expr | closure => 0
  | orExpr => 1
  | andExpr => 2
  | cmpExpr => 3
  | bitOrExpr => 4
  | bitXorExpr => 5
  | bitAndExpr => 6
  | shiftExpr => 7
  | sumExpr => 8
  | productExpr => 9
  | castExpr => 10
  | unaryExpr => 11
  | postfixExpr | primaryExpr | invocation | path | literal => 12

theorem Renames.level_le {n m : Nonterminal} (rule : Renames n m) : n.level ≤ m.level := by
  cases rule <;> decide

/-- What the production of a binary operator says about levels and signs. -/
theorem Infixes.levels {n l r : Nonterminal} {s : Symbol} {op : BinaryOp}
    (rule : Infixes n l s r op) :
    n.level = op.level ∧ l.level = op.leftLevel ∧ r.level = op.level + 1 ∧
      s.binaryOp? = some op := by
  cases rule <;> decide

theorem Signs.unaryOp? {s : Symbol} {op : UnaryOp} (rule : Signs s op) :
    s.isLiteral = false ∧ s.unaryOp? = some op := by
  cases rule <;> decide

theorem SpellsLiteral.isLiteral {s : Symbol} (rule : SpellsLiteral s) : s.isLiteral := by
  cases rule <;> rfl

namespace ExprParser

/-! ## Settled operands -/

/-- Frames that allow operands of a level are looser than it, so that nothing settles at the level. -/
theorem settle_of_operandLevel_le {level : Nat} (e : Phrase) {frames : List Frame}
    (allowed : operandLevel frames ≤ level) (atMost : level ≤ 10) :
    settle level e frames = (e, frames) := by
  match frames with
  | .binary left op sign :: outer =>
      simp only [operandLevel, Frame.operandLevel] at allowed
      rw [settle, if_neg (by omega)]
  | .unary _ _ :: _ =>
      simp only [operandLevel, Frame.operandLevel] at allowed
      omega
  | [] | .closure _ :: _ | .items _ _ _ :: _ | .index _ _ :: _ | .fill _ _ _ :: _ => rfl

/-- The operand that a phase holds, where an expression can be complete. -/
def Phase.operand? : Phase → Option Phrase
  | .operand e => some e
  | .path name => some (.path name)
  | .typePath (.cast inner asWord) name => some (.cast inner asWord name)
  | _ => none

/-- Whether a state holds a phrase of a level behind frames: constructs as loose as the level get the same operand
and frames, and what is tighter than every operator can still grow at its end. -/
structure Holds (level : Nat) (s : State) (e : Phrase) (frames : List Frame) : Prop where
  operand : ∃ x, s.phase.operand? = some x ∧
    (∀ low, 1 ≤ low → low ≤ level → low ≤ 10 → settle low x s.frames = settle low e frames) ∧
    complete x s.frames = complete e frames
  grows : 12 ≤ level →
    s.frames = frames ∧ (s.phase = .operand e ∨ ∃ name, s.phase = .path name ∧ e = .path name)

theorem Holds.of_le {low high : Nat} {s : State} {e : Phrase} {frames : List Frame}
    (lowLe : low ≤ high) (holds : Holds high s e frames) : Holds low s e frames := by
  obtain ⟨⟨x, isOperand, settles, completes⟩, grows⟩ := holds
  exact ⟨⟨x, isOperand, fun level atLeast atMost => settles level atLeast (by omega), completes⟩,
    fun tight => grows (by omega)⟩

theorem holds_operand (level : Nat) (e : Phrase) (frames : List Frame) :
    Holds level ⟨.operand e, frames⟩ e frames :=
  ⟨⟨e, rfl, fun _ _ _ _ => rfl, rfl⟩, fun _ => ⟨rfl, .inl rfl⟩⟩

theorem holds_path (level : Nat) (name : NamePhrase) (frames : List Frame) :
    Holds level ⟨.path name, frames⟩ (.path name) frames :=
  ⟨⟨.path name, rfl, fun _ _ _ _ => rfl, rfl⟩, fun _ => ⟨rfl, .inr ⟨name, rfl, rfl⟩⟩⟩

theorem Holds.closure {s : State} {head : ClosureHead} {body : Phrase} {frames : List Frame}
    (holds : Holds 0 s body (.closure head :: frames)) : Holds 0 s (.closure head body) frames := by
  obtain ⟨x, isOperand, -, completes⟩ := holds.operand
  exact ⟨⟨x, isOperand, fun low atLeast atMost => absurd atLeast (by omega), completes⟩,
    fun tight => absurd tight (by decide)⟩

theorem Holds.unary {s : State} {op : UnaryOp} {sign : Terminal} {e : Phrase}
    {frames : List Frame} (holds : Holds 11 s e (.unary op sign :: frames)) :
    Holds 11 s (.unary op sign e) frames :=
  ⟨holds.operand, fun tight => absurd tight (by decide)⟩

theorem Holds.binary {s : State} {left right : Phrase} {op : BinaryOp} {sign : Terminal}
    {frames : List Frame} (holds : Holds (op.level + 1) s right (.binary left op sign :: frames)) :
    Holds op.level s (.binary left op sign right) frames := by
  obtain ⟨x, isOperand, settles, completes⟩ := holds.operand
  refine ⟨⟨x, isOperand, fun low atLeast atMost atMostTen => ?_, completes⟩, fun tight => ?_⟩
  · rw [settles low atLeast (Nat.le_succ_of_le atMost) atMostTen, settle, if_pos atMost]
  · exact absurd (Nat.le_trans tight op.level_le_nine) (by decide)

theorem holds_cast (e : Phrase) (asWord : Terminal) (target : NamePhrase) (frames : List Frame) :
    Holds 10 ⟨.typePath (.cast e asWord) target, frames⟩ (.cast e asWord target) frames :=
  ⟨⟨_, rfl, fun _ _ _ _ => rfl, rfl⟩, fun tight => absurd tight (by decide)⟩

/-- Whether a symbol behind an operand can belong to the operand whatever stands in front of it. -/
def extendsOperand : Symbol → Bool
  | .token .dot | .token .lparen | .token .lbracket | .token .question | .token .pathSep
  | .token .bang => true
  | _ => false

theorem extendsOperand_of_binaryOp? {s : Symbol} {op : BinaryOp} (isOp : s.binaryOp? = some op) :
    extendsOperand s = false := by
  unfold Symbol.binaryOp? at isOp
  split at isOp <;> first | rfl | cases isOp

section Steps

variable {s : State} {e : Phrase} {frames : List Frame} {t : Terminal}

theorem stepOperand_eq (outside : extendsOperand t.symbol = false) :
    stepOperand e frames t = stepBehind e frames t := by
  unfold stepOperand
  split <;> simp_all [extendsOperand]

theorem stepTypePath_cast {name : NamePhrase} {asWord : Terminal}
    (outside : extendsOperand t.symbol = false) :
    stepTypePath (.cast e asWord) name frames t = stepBehind (.cast e asWord name) frames t := by
  unfold stepTypePath
  split <;> simp_all [extendsOperand]

/-- What cannot belong to the operand itself is looked at behind it. -/
theorem step_of_operand? (isOperand : s.phase.operand? = some e)
    (outside : extendsOperand t.symbol = false) : step s t = stepBehind e s.frames t := by
  obtain ⟨phase, frames⟩ := s
  cases phase with
  | operand inner =>
      obtain rfl := Option.some.inj isOperand
      exact stepOperand_eq outside
  | path name =>
      obtain rfl := Option.some.inj isOperand
      unfold step
      split <;> simp_all [extendsOperand, stepOperand_eq]
  | typePath use name =>
      cases use with
      | cast inner asWord =>
          obtain rfl := Option.some.inj isOperand
          exact stepTypePath_cast outside
      | param before word colon => cases isOperand
  | _ => cases isOperand

theorem finish_of_operand? (isOperand : s.phase.operand? = some e) :
    finish s = finishOperand e s.frames := by
  obtain ⟨phase, frames⟩ := s
  cases phase with
  | operand inner => obtain rfl := Option.some.inj isOperand; rfl
  | path name => obtain rfl := Option.some.inj isOperand; rfl
  | typePath use name => cases use <;> cases isOperand; rfl
  | _ => cases isOperand

theorem stepBehind_binary {op : BinaryOp} (isOp : t.symbol.binaryOp? = some op) :
    stepBehind e frames t = stepBinary e op frames t := by
  unfold stepBehind
  split <;> simp_all [Symbol.binaryOp?]

/-! ## What follows a held phrase -/

theorem Holds.step_binary {op : BinaryOp} (holds : Holds op.leftLevel s e frames)
    (allowed : operandLevel frames ≤ op.level) (isOp : t.symbol.binaryOp? = some op) :
    step s t = .ok ⟨.start, .binary e op t :: frames⟩ := by
  obtain ⟨x, isOperand, settles, -⟩ := holds.operand
  have atLeast : 1 ≤ op.leftLevel := by cases op <;> decide
  have atMost : op.leftLevel ≤ 10 := Nat.le_trans op.leftLevel_le (by decide)
  have settled : settle op.leftLevel x s.frames = (e, frames) := by
    rw [settles _ atLeast (Nat.le_refl _) atMost]
    exact settle_of_operandLevel_le e (Nat.le_trans allowed op.level_le_leftLevel) atMost
  rw [step_of_operand? isOperand (extendsOperand_of_binaryOp? isOp), stepBehind_binary isOp,
    stepBinary_eq, settled]
  match frames with
  | .binary left other sign :: outer =>
      have looser : other.level < op.level := allowed
      have apart : ¬(op.isComparison ∧ other.isComparison) := by
        rw [op.isComparison_iff, other.isComparison_iff]
        omega
      simp only [Bool.and_eq_true, if_neg apart]
      rfl
  | [] | .unary _ _ :: _ | .closure _ :: _ | .items _ _ _ :: _ | .index _ _ :: _ | .fill _ _ _ :: _ =>
      rfl

theorem Holds.step_as (holds : Holds 10 s e frames) (allowed : operandLevel frames ≤ 10)
    (isAs : t.symbol = .asWord) : step s t = .ok ⟨.typeStart (.cast e t), frames⟩ := by
  obtain ⟨x, isOperand, settles, -⟩ := holds.operand
  have settled : settle castLevel x s.frames = (e, frames) := by
    rw [settles _ (by decide) (by decide) (by decide)]
    exact settle_of_operandLevel_le e allowed (by decide)
  rw [step_of_operand? isOperand (by rw [isAs]; rfl)]
  simp [stepBehind, isAs, settled, goOn]

theorem Holds.step_comma {level : Nat} (holds : Holds level s e frames)
    (isComma : t.symbol = .token .comma) :
    step s t = stepComma (complete e frames).1 (complete e frames).2 t := by
  obtain ⟨x, isOperand, -, completes⟩ := holds.operand
  rw [step_of_operand? isOperand (by rw [isComma]; rfl)]
  simp [stepBehind, isComma, completes]

theorem Holds.step_semi {level : Nat} (holds : Holds level s e frames)
    (isSemi : t.symbol = .token .semi) :
    step s t = stepSemi (complete e frames).1 (complete e frames).2 t := by
  obtain ⟨x, isOperand, -, completes⟩ := holds.operand
  rw [step_of_operand? isOperand (by rw [isSemi]; rfl)]
  simp [stepBehind, isSemi, completes]

theorem Holds.step_close {level : Nat} (holds : Holds level s e frames) {kind : TokenKind}
    (isBracket : kind = .rparen ∨ kind = .rbracket) (closes : t.symbol = .token kind) :
    step s t = stepClose (complete e frames).1 kind (complete e frames).2 t := by
  obtain ⟨x, isOperand, -, completes⟩ := holds.operand
  rcases isBracket with rfl | rfl <;>
    rw [step_of_operand? isOperand (by rw [closes]; rfl)] <;>
    simp [stepBehind, closes, completes]

/-- Where a phrase can grow, it is an operand like any other. -/
theorem Holds.step_grow (holds : Holds 12 s e frames) {kind : TokenKind}
    (isKind : t.symbol = .token kind) (notName : kind ≠ .pathSep ∧ kind ≠ .bang) :
    step s t = stepOperand e frames t := by
  obtain ⟨phase, outer⟩ := s
  obtain ⟨rfl, rfl | ⟨name, rfl, rfl⟩⟩ := holds.grows (Nat.le_refl _)
  · rfl
  · unfold step
    split <;> simp_all

end Steps

/-! ## Names and parameters -/

theorem reaches_words (word : NamePhrase → Phase) (separated : NamePhrase → Terminal → Phase)
    {frames : List Frame}
    (toSeparator : ∀ name t, t.symbol = .token .pathSep →
      step ⟨word name, frames⟩ t = .ok ⟨separated name t, frames⟩)
    (toWord : ∀ name separator t, t.symbol = .token .ident →
      step ⟨separated name separator, frames⟩ t = .ok ⟨word (name.push separator t), frames⟩)
    (name : NamePhrase) (later : List (Mark .pathSep × Mark .ident)) :
    Reaches ⟨word name, frames⟩
      (later.flatMap fun step => [step.1.terminal, step.2.terminal])
      ⟨word ⟨name.head, name.tail ++ later.map fun step => (step.1.terminal, step.2.terminal)⟩,
        frames⟩ := by
  induction later generalizing name with
  | nil => simp [Reaches]
  | cons link later inductionHypothesis =>
      have rest := inductionHypothesis (name.push link.1.terminal link.2.terminal)
      simp only [NamePhrase.push, List.append_assoc, List.singleton_append] at rest
      exact .cons (toSeparator name _ rfl) (.cons (toWord name _ _ rfl) rest)

end ExprParser

open ExprParser

/-- The run through a name where an operand has to start. -/
theorem NameDerivation.reaches_path (n : NameDerivation) (frames : List Frame) :
    Reaches ⟨.start, frames⟩ n.terminals ⟨.path n.phrase, frames⟩ :=
  .cons rfl (reaches_words .path .pathSep (fun _ _ isSeparator => by simp [step, isSeparator, goOn])
    (fun _ _ _ isWord => by simp [step, isWord, goOn]) ⟨n.head.terminal, []⟩ n.later)

/-- The run through a name where a type name has to start. -/
theorem NameDerivation.reaches_typePath (n : NameDerivation) (use : TypeUse)
    (frames : List Frame) :
    Reaches ⟨.typeStart use, frames⟩ n.terminals ⟨.typePath use n.phrase, frames⟩ :=
  .cons rfl (reaches_words (.typePath use) (.typeSep use)
    (fun _ _ isSeparator => by simp [step, stepTypePath, isSeparator, goOn])
    (fun _ _ _ isWord => by simp [step, isWord, goOn]) ⟨n.head.terminal, []⟩ n.later)

def afterParam (before : OpenParams) (p : ParamPhrase) : Phase :=
  p.type.elim (.paramName before p.name) fun type =>
    .typePath (.param before p.name type.1) type.2

theorem step_afterParam_comma (before : OpenParams) (p : ParamPhrase) (frames : List Frame)
    {t : Terminal} (isComma : t.symbol = .token .comma) :
    step ⟨afterParam before p, frames⟩ t = .ok ⟨.params (before.push p t), frames⟩ := by
  obtain ⟨name, _ | ⟨colon, type⟩⟩ := p <;>
    simp [afterParam, step, stepTypePath, isComma, goOn]

theorem step_afterParam_pipe (before : OpenParams) (p : ParamPhrase) (frames : List Frame)
    {t : Terminal} (isBar : t.symbol = .token .pipe) :
    step ⟨afterParam before p, frames⟩ t =
      .ok ⟨.start, .closure (.bars before (some p) t) :: frames⟩ := by
  obtain ⟨name, _ | ⟨colon, type⟩⟩ := p <;>
    simp [afterParam, step, stepTypePath, isBar, goOn]

theorem ParamDerivation.reaches (p : ParamDerivation) (before : OpenParams)
    (frames : List Frame) :
    Reaches ⟨.params before, frames⟩ p.terminals ⟨afterParam before p.phrase, frames⟩ := by
  obtain ⟨name, _ | ⟨colon, type⟩⟩ := p
  · exact .single rfl
  · exact .cons rfl (.cons rfl (type.reaches_typePath _ _))

/-- The run through the parameters of a closure and the bar behind them. -/
theorem ParamsDerivation.reaches (first : ParamDerivation)
    (later : List (Mark .comma × ParamDerivation)) (trailing : Option (Mark .comma))
    (closing : Mark .pipe) (before : OpenParams) (frames : List Frame) :
    Reaches ⟨.params before, frames⟩
      (ParamsDerivation.terminals ⟨first, later, trailing⟩ ++ [closing.terminal])
      ⟨.start, .closure (.bars
        ⟨before.opening, before.before ++ ParamsDerivation.beforeCommas first trailing later⟩
        (ParamsDerivation.lastParam? first trailing later) closing.terminal) :: frames⟩ := by
  induction later generalizing first before with
  | nil =>
      cases trailing with
      | none =>
          have closes := step_afterParam_pipe before first.phrase frames (t := closing.terminal) rfl
          simpa [ParamsDerivation.terminals, ParamsDerivation.beforeCommas,
            ParamsDerivation.lastParam?] using
            (first.reaches before frames).append (.single closes)
      | some comma =>
          simpa [ParamsDerivation.terminals] using
            (first.reaches before frames).append
              (.cons (step_afterParam_comma _ _ _ rfl) (.single rfl))
  | cons link later inductionHypothesis =>
      obtain ⟨comma, next⟩ := link
      have rest := inductionHypothesis next (before.push first.phrase comma.terminal)
      simpa [ParamsDerivation.terminals, OpenParams.push, ParamsDerivation.beforeCommas,
        ParamsDerivation.lastParam?] using
        (first.reaches before frames).append
          (.cons (step_afterParam_comma _ _ _ rfl) rest)

/-- The run through what stands in front of the body of a closure, behind its first bar. -/
theorem ParamsDerivation.reaches_head (opening closing : Mark .pipe)
    (params : Option ParamsDerivation) (frames : List Frame) :
    Reaches ⟨.params ⟨opening.terminal, []⟩, frames⟩
      (params.elim [] ParamsDerivation.terminals ++ [closing.terminal])
      ⟨.start, .closure (ParamsDerivation.head opening closing params) :: frames⟩ := by
  obtain _ | ⟨first, later, trailing⟩ := params
  · exact .single rfl
  · exact ParamsDerivation.reaches first later trailing closing ⟨opening.terminal, []⟩ frames

/-! ## Derivations -/

/-- Whether the terminals of items lead from inside an open bracket to what the items make up. -/
def ItemsReach (use : ItemsUse) (opening : Terminal) (before : List (Phrase × Terminal))
    (frames : List Frame) (s : State) (ts : List Terminal) (items : Items) : Prop :=
  ∀ closing : Terminal, (use.closer = .rparen ∨ use.closer = .rbracket) →
    closing.symbol = .token use.closer →
    Reaches s (ts ++ [closing])
      ⟨.operand (use.build opening (.behind before items) closing), frames⟩

theorem Items.behind_append (before : List (Phrase × Terminal)) (e : Phrase) (comma : Terminal)
    (later : Items) :
    Items.behind (before ++ [(e, comma)]) later = Items.behind before (.cons e comma later) := by
  simp [Items.behind]

section Items

variable {use : ItemsUse} {opening : Terminal} {before : List (Phrase × Terminal)}
  {frames : List Frame} {s : State} {e : Phrase}

/-- A bracket closes items where an operand could start. -/
theorem itemsReach_nil (use : ItemsUse) (opening : Terminal) (before : List (Phrase × Terminal))
    (frames : List Frame) :
    ItemsReach use opening before frames ⟨.start, .items use opening before :: frames⟩ [] .nil := by
  intro closing isBracket closes
  refine .single ?_
  rcases isBracket with same | same <;>
    rw [same] at closes <;>
    simp [step, stepStart, closes, Symbol.isLiteral, TokenKind.isLiteral, Symbol.unaryOp?, same,
      goOn]

/-- A bracket closes items behind the last one, which makes no group of them if they have a comma. -/
theorem itemsReach_last (holds : Holds 0 s e (.items use opening before :: frames))
    (separated : use = .group → before ≠ []) :
    ItemsReach use opening before frames s [] (.last e) := by
  intro closing isBracket closes
  have closed : stepClose e use.closer (.items use opening before :: frames) closing =
      .ok ⟨.operand (use.build opening (.behind before (.last e)) closing), frames⟩ := by
    match use, before with
    | .group, [] => exact absurd rfl (separated rfl)
    | .group, _ :: _ | .call _, _ | .invocation _ _ _, _ | .array, _ => simp [stepClose, goOn]
  exact .single ((holds.step_close isBracket closes).trans closed)

theorem ItemsReach.cons (comma : Terminal) {later : Items} {ts : List Terminal}
    (holds : Holds 0 s e (.items use opening before :: frames))
    (isComma : comma.symbol = .token .comma)
    (rest : ItemsReach use opening (before ++ [(e, comma)]) frames
      ⟨.start, .items use opening (before ++ [(e, comma)]) :: frames⟩ ts later) :
    ItemsReach use opening before frames s (comma :: ts) (.cons e comma later) := by
  intro closing isBracket closes
  rw [← Items.behind_append]
  exact .cons (holds.step_comma isComma) (rest closing isBracket closes)

theorem ItemsReach.prepend {ts later : List Terminal} {items : Items} {middle : State}
    (first : Reaches s ts middle) (rest : ItemsReach use opening before frames middle later items) :
    ItemsReach use opening before frames s (ts ++ later) items := by
  intro closing isBracket closes
  rw [List.append_assoc]
  exact first.append (rest closing isBracket closes)

end Items

theorem takesClosure_of_operandLevel {frames : List Frame} (allowed : operandLevel frames ≤ 0) :
    takesClosure frames := by
  match frames with
  | .binary _ op _ :: _ =>
      simp only [operandLevel, Frame.operandLevel] at allowed
      omega
  | .unary _ _ :: _ =>
      simp only [operandLevel, Frame.operandLevel] at allowed
      omega
  | [] | .closure _ :: _ | .items _ _ _ :: _ | .index _ _ :: _ | .fill _ _ _ :: _ => rfl

/-- Whether the terminals of a derivation lead, where its nonterminal is allowed, to a state that holds its phrase. -/
def Derivation.IsRun {n : Nonterminal} (d : Derivation n) : Prop :=
  ∀ frames, operandLevel frames ≤ n.level →
    ∃ s, Reaches ⟨.start, frames⟩ d.terminals s ∧ Holds n.level s d.phrase frames

/-- Whether the terminals of arguments lead from an open bracket to the items that they make up. Without others in front
of them, they make up no group. -/
def OptionalArgs.AreRun (args : OptionalArgs) : Prop :=
  ∀ use opening before frames, (use = .group → before ≠ []) →
    ItemsReach use opening before frames ⟨.start, .items use opening before :: frames⟩ args.terminals args.items

def Args.AreRun (args : Args) : Prop :=
  (OptionalArgs.present args).AreRun

/-- Whether the terminals of arguments lead from a state that holds the first one to the items that all make up. -/
def LaterArgs.AreRun (later : LaterArgs) : Prop :=
  ∀ {use opening before frames s first}, Holds 0 s first (.items use opening before :: frames) →
    (use = .group → before ≠ []) →
      ItemsReach use opening before frames s later.terminals (later.itemsBehind first)

namespace Derivation

section Operators

theorem IsRun.rename {n m : Nonterminal} {d : Derivation m} (isRun : d.IsRun) (rule : Renames n m) :
    (Derivation.rename rule d).IsRun := by
  intro frames allowed
  obtain ⟨s, reaches, holds⟩ := isRun frames (Nat.le_trans allowed rule.level_le)
  exact ⟨s, reaches, holds.of_le rule.level_le⟩

theorem IsRun.closure {body : Derivation .expr} (isRun : body.IsRun) (opening closing : Mark .pipe)
    (params : Option ParamsDerivation) : (Derivation.closure opening params closing body).IsRun := by
  intro frames allowed
  obtain ⟨s, reaches, holds⟩ := isRun
    (.closure (ParamsDerivation.head opening closing params) :: frames) (Nat.le_refl 0)
  have opens : step ⟨.start, frames⟩ opening.terminal =
      .ok ⟨.params ⟨opening.terminal, []⟩, frames⟩ :=
    if_pos (takesClosure_of_operandLevel allowed)
  refine ⟨s, ?_, holds.closure⟩
  have head := ParamsDerivation.reaches_head opening closing params frames
  simpa [Derivation.terminals] using Reaches.cons opens (head.append reaches)

theorem IsRun.emptyClosure {body : Derivation .expr} (isRun : body.IsRun) (bars : Mark .orOr) :
    (Derivation.emptyClosure bars body).IsRun := by
  intro frames allowed
  obtain ⟨s, reaches, holds⟩ := isRun (.closure (.orOr bars.terminal) :: frames) (Nat.le_refl 0)
  have opens : step ⟨.start, frames⟩ bars.terminal =
      .ok ⟨.start, .closure (.orOr bars.terminal) :: frames⟩ :=
    if_pos (takesClosure_of_operandLevel allowed)
  exact ⟨s, .cons opens reaches, holds.closure⟩

theorem IsRun.binary {n l r : Nonterminal} {sign : Symbol} {op : BinaryOp} {left : Derivation l}
    {right : Derivation r} (isRunLeft : left.IsRun) (isRunRight : right.IsRun)
    (rule : Infixes n l sign r op) (leaf : Leaf sign) :
    (Derivation.binary op rule left leaf right).IsRun := by
  intro frames allowed
  obtain ⟨sameLevel, leftLevel, rightLevel, isOp⟩ := rule.levels
  rw [sameLevel] at allowed ⊢
  obtain ⟨s, reachesLeft, holdsLeft⟩ := isRunLeft frames (by
    rw [leftLevel]
    exact Nat.le_trans allowed op.level_le_leftLevel)
  rw [leftLevel] at holdsLeft
  obtain ⟨s', reachesRight, holdsRight⟩ := isRunRight
    (.binary left.phrase op leaf.terminal :: frames) (Nat.le_of_eq rightLevel.symm)
  rw [rightLevel] at holdsRight
  exact ⟨s', reachesLeft.append (.cons (holdsLeft.step_binary allowed isOp) reachesRight),
    holdsRight.binary⟩

theorem IsRun.cast {operand : Derivation .castExpr} (isRun : operand.IsRun) (asWord : Leaf .asWord)
    (target : NameDerivation) : (Derivation.cast operand asWord target).IsRun := by
  intro frames allowed
  obtain ⟨s, reaches, holds⟩ := isRun frames allowed
  exact ⟨_, reaches.append (.cons (holds.step_as allowed rfl) (target.reaches_typePath _ _)),
    holds_cast ..⟩

theorem IsRun.unary {operand : Derivation .unaryExpr} (isRun : operand.IsRun) {sign : Symbol} {op : UnaryOp}
    (rule : Signs sign op) (leaf : Leaf sign) : (Derivation.unary op rule leaf operand).IsRun := by
  intro frames _
  obtain ⟨notLiteral, isSign⟩ := rule.unaryOp?
  obtain ⟨s, reaches, holds⟩ := isRun (.unary op leaf.terminal :: frames) (Nat.le_refl 11)
  have signs : step ⟨.start, frames⟩ leaf.terminal =
      .ok ⟨.start, .unary op leaf.terminal :: frames⟩ := by
    simp [step, stepStart, Leaf.terminal, notLiteral, isSign, goOn]
  exact ⟨s, .cons signs reaches, holds.unary⟩

end Operators

section Postfix

variable {object : Derivation .postfixExpr}

theorem IsRun.field (isRun : object.IsRun) (dot : Mark .dot) (name : Mark .ident) :
    (Derivation.field object dot name).IsRun := by
  intro frames allowed
  obtain ⟨s, reaches, holds⟩ := isRun frames allowed
  have dots := holds.step_grow (t := dot.terminal) rfl (by decide)
  exact ⟨_, reaches.append (.cons dots (.single rfl)), holds_operand ..⟩

theorem IsRun.tupleField (isRun : object.IsRun) (dot : Mark .dot) (index : Mark .int) :
    (Derivation.tupleField object dot index).IsRun := by
  intro frames allowed
  obtain ⟨s, reaches, holds⟩ := isRun frames allowed
  have dots := holds.step_grow (t := dot.terminal) rfl (by decide)
  exact ⟨_, reaches.append (.cons dots (.single rfl)), holds_operand ..⟩

theorem IsRun.call (isRun : object.IsRun) {args : OptionalArgs} (areRun : args.AreRun)
    (opening : Mark .lparen) (closing : Mark .rparen) :
    (Derivation.call object opening args closing).IsRun := by
  intro frames allowed
  obtain ⟨s, reaches, holds⟩ := isRun frames allowed
  have opens := holds.step_grow (t := opening.terminal) rfl (by decide)
  have items := areRun (.call object.phrase) opening.terminal [] frames (by simp)
    closing.terminal (.inl rfl) rfl
  refine ⟨_, ?_, holds_operand ..⟩
  simp only [Derivation.terminals, List.append_assoc, List.cons_append]
  exact reaches.append (.cons opens items)

theorem IsRun.index (isRun : object.IsRun) {position : Derivation .expr} (isRunInner : position.IsRun)
    (opening : Mark .lbracket) (closing : Mark .rbracket) :
    (Derivation.index object opening position closing).IsRun := by
  intro frames allowed
  obtain ⟨s, reaches, holds⟩ := isRun frames allowed
  have opens := holds.step_grow (t := opening.terminal) rfl (by decide)
  obtain ⟨s', reaches', holds'⟩ := isRunInner
    (.index object.phrase opening.terminal :: frames) (Nat.le_refl 0)
  have closes := holds'.step_close (t := closing.terminal) (.inr rfl) rfl
  refine ⟨_, ?_, holds_operand ..⟩
  simp only [Derivation.terminals, List.append_assoc, List.cons_append]
  exact reaches.append (.cons opens (reaches'.append (.single closes)))

theorem IsRun.propagate (isRun : object.IsRun) (question : Mark .question) :
    (Derivation.propagate object question).IsRun := by
  intro frames allowed
  obtain ⟨s, reaches, holds⟩ := isRun frames allowed
  have asks := holds.step_grow (t := question.terminal) rfl (by decide)
  exact ⟨_, reaches.append (.single asks), holds_operand ..⟩

end Postfix

section Primary

theorem IsRun.paren {inner : Derivation .expr} (isRun : inner.IsRun) (opening : Mark .lparen)
    (closing : Mark .rparen) : (Derivation.paren opening inner closing).IsRun := by
  intro frames _
  obtain ⟨s, reaches, holds⟩ := isRun (.items .group opening.terminal [] :: frames) (Nat.le_refl 0)
  have closes := holds.step_close (t := closing.terminal) (.inl rfl) rfl
  exact ⟨_, .cons rfl (reaches.append (.single closes)), holds_operand ..⟩

theorem IsRun.unit (opening : Mark .lparen) (closing : Mark .rparen) :
    (Derivation.unit opening closing).IsRun := by
  intro frames _
  have closes := itemsReach_nil .group opening.terminal [] frames closing.terminal (.inl rfl) rfl
  exact ⟨_, .cons rfl closes, holds_operand ..⟩

theorem IsRun.tuple {first : Derivation .expr} (isRun : first.IsRun) {later : OptionalArgs}
    (areRun : later.AreRun) (opening : Mark .lparen) (comma : Mark .comma) (closing : Mark .rparen) :
    (Derivation.tuple opening first comma later closing).IsRun := by
  intro frames _
  obtain ⟨s, reaches, holds⟩ := isRun (.items .group opening.terminal [] :: frames) (Nat.le_refl 0)
  have items := ItemsReach.cons comma.terminal holds rfl (areRun _ _ _ frames (by simp))
    closing.terminal (.inl rfl) rfl
  refine ⟨_, ?_, holds_operand ..⟩
  simp only [Derivation.terminals, List.append_assoc, List.cons_append]
  exact Reaches.cons rfl (reaches.append items)

theorem IsRun.array {elements : OptionalArgs} (areRun : elements.AreRun) (opening : Mark .lbracket)
    (closing : Mark .rbracket) : (Derivation.array opening elements closing).IsRun := by
  intro frames _
  have items := areRun .array opening.terminal [] frames (by simp) closing.terminal (.inr rfl) rfl
  exact ⟨_, .cons rfl items, holds_operand ..⟩

theorem IsRun.fill {value count : Derivation .expr} (isRunValue : value.IsRun) (isRunCount : count.IsRun)
    (opening : Mark .lbracket) (semi : Mark .semi) (closing : Mark .rbracket) :
    (Derivation.fill opening value semi count closing).IsRun := by
  intro frames _
  obtain ⟨s, reaches, holds⟩ := isRunValue (.items .array opening.terminal [] :: frames) (Nat.le_refl 0)
  have semis := holds.step_semi (t := semi.terminal) rfl
  obtain ⟨s', reaches', holds'⟩ := isRunCount
    (.fill opening.terminal value.phrase semi.terminal :: frames) (Nat.le_refl 0)
  have closes := holds'.step_close (t := closing.terminal) (.inr rfl) rfl
  refine ⟨_, ?_, holds_operand ..⟩
  simp only [Derivation.terminals, List.append_assoc, List.cons_append]
  exact Reaches.cons rfl (reaches.append (.cons semis (reaches'.append (.single closes))))

theorem IsRun.invokeParen {args : OptionalArgs} (areRun : args.AreRun) (name : NameDerivation)
    (bang : Mark .bang) (opening : Mark .lparen) (closing : Mark .rparen) :
    (Derivation.invokeParen name bang opening args closing).IsRun := by
  intro frames _
  have items := areRun (.invocation name.phrase bang.terminal .paren) opening.terminal []
    frames (by simp) closing.terminal (.inl rfl) rfl
  refine ⟨_, ?_, holds_operand ..⟩
  simp only [Derivation.terminals, List.append_assoc, List.cons_append]
  exact (name.reaches_path frames).append (.cons rfl (.cons rfl items))

theorem IsRun.invokeBracket {args : OptionalArgs} (areRun : args.AreRun) (name : NameDerivation)
    (bang : Mark .bang) (opening : Mark .lbracket) (closing : Mark .rbracket) :
    (Derivation.invokeBracket name bang opening args closing).IsRun := by
  intro frames _
  have items := areRun (.invocation name.phrase bang.terminal .bracket) opening.terminal []
    frames (by simp) closing.terminal (.inr rfl) rfl
  refine ⟨_, ?_, holds_operand ..⟩
  simp only [Derivation.terminals, List.append_assoc, List.cons_append]
  exact (name.reaches_path frames).append (.cons rfl (.cons rfl items))

theorem IsRun.path (name : NameDerivation) : (Derivation.path name).IsRun :=
  fun frames _ => ⟨_, name.reaches_path frames, holds_path _ _ _⟩

theorem IsRun.literal {s : Symbol} (rule : SpellsLiteral s) (leaf : Leaf s) :
    (Derivation.literal rule leaf).IsRun := by
  intro frames _
  have taken : step ⟨.start, frames⟩ leaf.terminal =
      .ok ⟨.operand (.literal leaf.terminal), frames⟩ :=
    if_pos rule.isLiteral
  exact ⟨_, .single taken, holds_operand ..⟩

end Primary

end Derivation

section Arguments

theorem areRun_absent : OptionalArgs.absent.AreRun :=
  fun use opening before frames _ => itemsReach_nil use opening before frames

theorem areRun_args {first : Derivation .expr} {later : LaterArgs} (isRun : first.IsRun)
    (areRun : later.AreRun) : (Args.args first later).AreRun := by
  intro use opening before frames separated
  obtain ⟨s, reaches, holds⟩ := isRun (.items use opening before :: frames) (Nat.le_refl 0)
  exact (areRun holds separated).prepend reaches

theorem areRun_done : LaterArgs.done.AreRun :=
  itemsReach_last

theorem areRun_trailing (comma : Mark .comma) : (LaterArgs.trailing comma).AreRun :=
  fun holds _ => .cons _ holds rfl (itemsReach_nil _ _ _ _)

theorem areRun_next {e : Derivation .expr} {later : LaterArgs} (isRun : e.IsRun) (areRun : later.AreRun)
    (comma : Mark .comma) : (LaterArgs.next comma e later).AreRun := by
  intro use opening before frames s first holds _
  obtain ⟨s', reaches, holds'⟩ := isRun
    (.items use opening (before ++ [(first, comma.terminal)]) :: frames) (Nat.le_refl 0)
  have rest := areRun holds' (by simp)
  exact .cons _ holds rfl (rest.prepend reaches)

end Arguments

mutual

/-- All derivations are run through: one law for each production. -/
theorem Derivation.isRun {n : Nonterminal} : ∀ d : Derivation n, d.IsRun
  | .rename rule d => d.isRun.rename rule
  | .closure opening params closing body => body.isRun.closure opening closing params
  | .emptyClosure bars body => body.isRun.emptyClosure bars
  | .binary _ rule left sign right => left.isRun.binary right.isRun rule sign
  | .cast operand asWord target => operand.isRun.cast asWord target
  | .unary _ rule sign operand => operand.isRun.unary rule sign
  | .field object dot name => object.isRun.field dot name
  | .tupleField object dot index => object.isRun.tupleField dot index
  | .call callee opening args closing => callee.isRun.call args.areRun opening closing
  | .index object opening position closing => object.isRun.index position.isRun opening closing
  | .propagate operand question => operand.isRun.propagate question
  | .paren opening inner closing => inner.isRun.paren opening closing
  | .unit opening closing => .unit opening closing
  | .tuple opening first comma later closing => first.isRun.tuple later.areRun opening comma closing
  | .array opening elements closing => .array elements.areRun opening closing
  | .fill opening value semi count closing => value.isRun.fill count.isRun opening semi closing
  | .invokeParen name bang opening args closing => .invokeParen args.areRun name bang opening closing
  | .invokeBracket name bang opening args closing => .invokeBracket args.areRun name bang opening closing
  | .path name => .path name
  | .literal rule leaf => .literal rule leaf

theorem OptionalArgs.areRun : ∀ args : OptionalArgs, args.AreRun
  | .absent => areRun_absent
  | .present args => args.areRun

theorem Args.areRun : ∀ args : Args, args.AreRun
  | .args first later => areRun_args first.isRun later.areRun

theorem LaterArgs.areRun : ∀ later : LaterArgs, later.AreRun
  | .done => areRun_done
  | .trailing comma => areRun_trailing comma
  | .next comma e later => areRun_next e.isRun later.areRun comma

end

/-- The parser yields the phrase of every derivation of its terminals. -/
theorem Derivation.parseTerminals_eq (d : Derivation .start) :
    parseTerminals d.terminals = .ok d.phrase := by
  obtain ⟨s, reaches, holds⟩ := d.isRun [] (Nat.le_refl 0)
  obtain ⟨x, isOperand, -, completes⟩ := holds.operand
  have finished : finish s = .ok d.phrase := by
    rw [finish_of_operand? isOperand, finishOperand, completes]
    rfl
  exact run_eq_ok_iff.2 ⟨s, reaches, finished⟩

end AttrGrammar
