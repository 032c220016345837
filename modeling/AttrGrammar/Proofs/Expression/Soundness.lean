import AttrGrammar.Proofs.Expression.Invariant

/-!
Contract: every phrase that the parser of expressions yields has a derivation.

Owns:
- the productions as laws about phrases that derive;
- the invariant of the parser along steps and runs;
- the derivation of the phrase at the end.
-/

namespace AttrGrammar

/-! ## Names, parameters and items -/

theorem NamePhrase.derived_word {t : Terminal} (word : t.symbol = .token .ident) :
    NamePhrase.Derived ⟨t, []⟩ := by
  obtain ⟨leaf, rfl⟩ := Leaf.exists_of_symbol word
  exact ⟨⟨leaf, []⟩, rfl⟩

theorem NamePhrase.Derived.push {n : NamePhrase} (derived : n.Derived) {separator word : Terminal}
    (isSeparator : separator.symbol = .token .pathSep) (isWord : word.symbol = .token .ident) :
    (n.push separator word).Derived := by
  obtain ⟨d, rfl⟩ := derived
  obtain ⟨mark, rfl⟩ := Leaf.exists_of_symbol isSeparator
  obtain ⟨leaf, rfl⟩ := Leaf.exists_of_symbol isWord
  exact ⟨⟨d.head, d.later ++ [(mark, leaf)]⟩, by simp [NameDerivation.phrase, NamePhrase.push]⟩

theorem ParamPhrase.derived_untyped {name : Terminal} (isWord : name.symbol = .token .ident) :
    ParamPhrase.Derived ⟨name, none⟩ := by
  obtain ⟨leaf, rfl⟩ := Leaf.exists_of_symbol isWord
  exact ⟨⟨leaf, none⟩, rfl⟩

theorem ParamPhrase.derived_typed {name colon : Terminal} {type : NamePhrase}
    (isWord : name.symbol = .token .ident) (isColon : colon.symbol = .token .colon)
    (derived : type.Derived) : ParamPhrase.Derived ⟨name, some (colon, type)⟩ := by
  obtain ⟨leaf, rfl⟩ := Leaf.exists_of_symbol isWord
  obtain ⟨mark, rfl⟩ := Leaf.exists_of_symbol isColon
  obtain ⟨d, rfl⟩ := derived
  exact ⟨⟨leaf, some (mark, d)⟩, rfl⟩

theorem OpenParams.derived_bar {t : Terminal} (isBar : t.symbol = .token .pipe) :
    OpenParams.Derived ⟨t, []⟩ :=
  ⟨isBar, by simp⟩

theorem OpenParams.Derived.push {p : OpenParams} (derived : p.Derived) {param : ParamPhrase}
    {comma : Terminal} (isParam : param.Derived) (isComma : comma.symbol = .token .comma) :
    (p.push param comma).Derived := by
  refine ⟨derived.1, fun step member => ?_⟩
  simp only [OpenParams.push, List.mem_append, List.mem_singleton] at member
  rcases member with earlier | rfl
  · exact derived.2 step earlier
  · exact ⟨isParam, isComma⟩

/-- Parameters with commas, and perhaps one without, are the parameters of a derivation, unless there are none. -/
theorem ParamsDerivation.exists_of_series {last : Option ParamPhrase}
    (isLast : ∀ p ∈ last, p.Derived) (before : List (ParamPhrase × Terminal))
    (areBefore : ∀ step ∈ before, step.1.Derived ∧ step.2.symbol = .token .comma)
    (some : before ≠ [] ∨ last.isSome) :
    ∃ (first : ParamDerivation) (later : List (Mark .comma × ParamDerivation))
      (trailing : Option (Mark .comma)),
      beforeCommas first trailing later = before ∧ lastParam? first trailing later = last := by
  induction before with
  | nil =>
      obtain ⟨p, rfl⟩ := Option.isSome_iff_exists.1 (some.resolve_left (by simp))
      obtain ⟨first, rfl⟩ := isLast p rfl
      exact ⟨first, [], none, rfl, rfl⟩
  | cons step before inductionHypothesis =>
      obtain ⟨p, comma⟩ := step
      obtain ⟨⟨first, rfl⟩, isComma⟩ := areBefore _ (List.mem_cons_self ..)
      obtain ⟨mark, rfl⟩ := Leaf.exists_of_symbol isComma
      by_cases more : before ≠ [] ∨ last.isSome
      · obtain ⟨next, later, trailing, rfl, rfl⟩ := inductionHypothesis
          (fun step member => areBefore step (List.mem_cons_of_mem _ member)) more
        exact ⟨first, (mark, next) :: later, trailing, rfl, rfl⟩
      · obtain ⟨rfl, rfl⟩ : before = [] ∧ last = none := by simpa using more
        exact ⟨first, [], .some mark, rfl, rfl⟩

theorem ClosureHead.derived_bars {before : OpenParams} {last : Option ParamPhrase}
    {closing : Terminal} (derived : before.Derived) (isLast : ∀ p ∈ last, p.Derived)
    (isBar : closing.symbol = .token .pipe) :
    (ClosureHead.bars before last closing).Derived := by
  obtain ⟨bar, before⟩ := before
  obtain ⟨opening, rfl⟩ := Leaf.exists_of_symbol derived.1
  obtain ⟨mark, rfl⟩ := Leaf.exists_of_symbol isBar
  by_cases more : before ≠ [] ∨ last.isSome
  · obtain ⟨first, later, trailing, rfl, rfl⟩ :=
      ParamsDerivation.exists_of_series isLast before derived.2 more
    exact ⟨opening, mark, some ⟨first, later, trailing⟩, rfl⟩
  · obtain ⟨rfl, rfl⟩ : before = [] ∧ last = none := by simpa using more
    exact ⟨opening, mark, none, rfl⟩

theorem LaterArgs.exists_of_derived (first : Phrase) :
    ∀ {later : Items}, later.Derived → ∀ {comma : Terminal}, comma.symbol = .token .comma →
      ∃ args : LaterArgs, args.itemsBehind first = .cons first comma later
  | .nil, _, comma, isComma => by
      obtain ⟨mark, rfl⟩ := Leaf.exists_of_symbol isComma
      exact ⟨.trailing mark, rfl⟩
  | .last e, ⟨d, spelled⟩, comma, isComma => by
      obtain ⟨mark, rfl⟩ := Leaf.exists_of_symbol isComma
      exact ⟨.next mark d .done, by rw [← spelled]; rfl⟩
  | .cons e comma' later, ⟨⟨d, spelled⟩, isComma', derived⟩, comma, isComma => by
      obtain ⟨mark, rfl⟩ := Leaf.exists_of_symbol isComma
      obtain ⟨args, spelledArgs⟩ := exists_of_derived e derived isComma'
      exact ⟨.next mark d args, by rw [← spelledArgs, ← spelled]; rfl⟩

/-- Items with a derivation are arguments, which are absent if there are none. -/
theorem OptionalArgs.exists_of_derived {items : Items} (derived : items.Derived) :
    ∃ args : OptionalArgs, args.items = items := by
  match items, derived with
  | .nil, _ => exact ⟨.absent, rfl⟩
  | .last e, ⟨d, spelled⟩ => exact ⟨.present (.args d .done), by rw [← spelled]; rfl⟩
  | .cons e comma later, ⟨⟨d, spelled⟩, isComma, derived⟩ =>
      obtain ⟨args, spelledArgs⟩ := LaterArgs.exists_of_derived e derived isComma
      exact ⟨.present (.args d args), by rw [← spelledArgs, ← spelled]; rfl⟩

theorem Items.derived_behind {before : List (Phrase × Terminal)} {later : Items}
    (areBefore : ∀ step ∈ before, Binds 0 step.1 ∧ step.2.symbol = .token .comma)
    (derived : later.Derived) : (Items.behind before later).Derived := by
  induction before with
  | nil => exact derived
  | cons step before inductionHypothesis =>
      obtain ⟨binds, isComma⟩ := areBefore step (List.mem_cons_self ..)
      exact ⟨binds, isComma, inductionHypothesis fun other member =>
        areBefore other (List.mem_cons_of_mem _ member)⟩

theorem Items.terminals_behind (before : List (Phrase × Terminal)) (later : Items) :
    (Items.behind before later).terminals =
      (before.flatMap fun step => step.1.terminals ++ [step.2]) ++ later.terminals := by
  induction before with
  | nil => rfl
  | cons step before inductionHypothesis =>
      simp only [Items.behind, List.foldr_cons, Items.terminals] at inductionHypothesis ⊢
      simp [inductionHypothesis]

/-! ## Productions -/

/-- The phrases of the tightest nonterminals bind as tightly as operands can. -/
theorem Binds.of_primary {p : Phrase} (derives : Nonterminal.primaryExpr.Derives p) :
    Binds 12 p := by
  obtain ⟨d, rfl⟩ := derives
  exact ⟨.rename .postfixExpr d, rfl⟩

theorem Binds.literal {t : Terminal} (isLiteral : t.symbol.isLiteral) :
    Binds 12 (.literal t) := by
  obtain ⟨leaf, spelled⟩ := Leaf.exists_of_symbol (t := t) rfl
  exact .of_primary ⟨.rename .literal (.literal (Symbol.spellsLiteral_of_isLiteral isLiteral) leaf),
    congrArg Phrase.literal spelled⟩

theorem Binds.path {name : NamePhrase} (derived : name.Derived) : Binds 12 (.path name) := by
  obtain ⟨d, rfl⟩ := derived
  exact .of_primary ⟨.rename .path (.path d), rfl⟩

theorem Binds.paren {e : Phrase} (binds : Binds 0 e) {opening closing : Terminal}
    (opens : opening.symbol = .token .lparen) (closes : closing.symbol = .token .rparen) :
    Binds 12 (.paren opening e closing) := by
  obtain ⟨d, rfl⟩ := binds
  obtain ⟨left, rfl⟩ := Leaf.exists_of_symbol opens
  obtain ⟨right, rfl⟩ := Leaf.exists_of_symbol closes
  exact .of_primary ⟨.paren left d right, rfl⟩

theorem Binds.index {object e : Phrase} (bindsObject : Binds 12 object) (binds : Binds 0 e)
    {opening closing : Terminal} (opens : opening.symbol = .token .lbracket)
    (closes : closing.symbol = .token .rbracket) :
    Binds 12 (.index object opening e closing) := by
  obtain ⟨d, rfl⟩ := bindsObject
  obtain ⟨inner, rfl⟩ := binds
  obtain ⟨left, rfl⟩ := Leaf.exists_of_symbol opens
  obtain ⟨right, rfl⟩ := Leaf.exists_of_symbol closes
  exact ⟨.index d left inner right, rfl⟩

theorem Binds.fill {value count : Phrase} (bindsValue : Binds 0 value) (binds : Binds 0 count)
    {opening semi closing : Terminal} (opens : opening.symbol = .token .lbracket)
    (isSemi : semi.symbol = .token .semi) (closes : closing.symbol = .token .rbracket) :
    Binds 12 (.fill opening value semi count closing) := by
  obtain ⟨d, rfl⟩ := bindsValue
  obtain ⟨inner, rfl⟩ := binds
  obtain ⟨left, rfl⟩ := Leaf.exists_of_symbol opens
  obtain ⟨mark, rfl⟩ := Leaf.exists_of_symbol isSemi
  obtain ⟨right, rfl⟩ := Leaf.exists_of_symbol closes
  exact .of_primary ⟨.fill left d mark inner right, rfl⟩

theorem Binds.propagate {e : Phrase} (binds : Binds 12 e) {question : Terminal}
    (isQuestion : question.symbol = .token .question) : Binds 12 (.propagate e question) := by
  obtain ⟨d, rfl⟩ := binds
  obtain ⟨mark, rfl⟩ := Leaf.exists_of_symbol isQuestion
  exact ⟨.propagate d mark, rfl⟩

theorem Binds.field {object : Phrase} (binds : Binds 12 object) {dot name : Terminal}
    (isDot : dot.symbol = .token .dot) (isWord : name.symbol = .token .ident) :
    Binds 12 (.field object dot name) := by
  obtain ⟨d, rfl⟩ := binds
  obtain ⟨mark, rfl⟩ := Leaf.exists_of_symbol isDot
  obtain ⟨leaf, rfl⟩ := Leaf.exists_of_symbol isWord
  exact ⟨.field d mark leaf, rfl⟩

theorem Binds.tupleField {object : Phrase} (binds : Binds 12 object) {dot index : Terminal}
    (isDot : dot.symbol = .token .dot) (isInt : index.symbol = .token .int) :
    Binds 12 (.field object dot index) := by
  obtain ⟨d, rfl⟩ := binds
  obtain ⟨mark, rfl⟩ := Leaf.exists_of_symbol isDot
  obtain ⟨leaf, rfl⟩ := Leaf.exists_of_symbol isInt
  exact ⟨.tupleField d mark leaf, rfl⟩

theorem Binds.cast {operand : Phrase} (binds : Binds 10 operand) {asWord : Terminal}
    {target : NamePhrase} (isAs : asWord.symbol = .asWord) (derived : target.Derived) :
    Binds 10 (.cast operand asWord target) := by
  obtain ⟨d, rfl⟩ := binds
  obtain ⟨mark, rfl⟩ := Leaf.exists_of_symbol isAs
  obtain ⟨name, rfl⟩ := derived
  exact ⟨.cast d mark name, rfl⟩

theorem Binds.unary {operand : Phrase} (binds : Binds 11 operand) {op : UnaryOp}
    {sign : Terminal} (isSign : sign.symbol.unaryOp? = some op) :
    Binds 11 (.unary op sign operand) := by
  obtain ⟨d, rfl⟩ := binds
  obtain ⟨leaf, spelled⟩ := Leaf.exists_of_symbol (t := sign) rfl
  exact ⟨.unary op (Symbol.signs_of_unaryOp? isSign) leaf d,
    congrArg (Phrase.unary op · d.phrase) spelled⟩

theorem Binds.binary {left right : Phrase} {op : BinaryOp} {sign : Terminal}
    (bindsLeft : Binds op.leftLevel left) (isSign : sign.symbol.binaryOp? = some op)
    (bindsRight : Binds (op.level + 1) right) :
    Binds op.level (.binary left op sign right) := by
  obtain ⟨l, rfl⟩ := bindsLeft
  obtain ⟨r, rfl⟩ := bindsRight
  obtain ⟨leaf, spelled⟩ := Leaf.exists_of_symbol (t := sign) rfl
  exact ⟨.binary op (Symbol.infixes_of_binaryOp? isSign) l leaf r,
    congrArg (Phrase.binary l.phrase op · r.phrase) spelled⟩

theorem Binds.closure {head : ClosureHead} {body : Phrase} (derived : head.Derived)
    (binds : Binds 0 body) : Binds 0 (.closure head body) := by
  obtain ⟨d, rfl⟩ := binds
  cases head with
  | bars before last closing =>
      obtain ⟨opening, mark, params, spelled⟩ := derived
      exact ⟨.rename .closure (.closure opening params mark d),
        congrArg (Phrase.closure · d.phrase) spelled⟩
  | orOr t =>
      obtain ⟨leaf, rfl⟩ := Leaf.exists_of_symbol derived
      exact ⟨.rename .closure (.emptyClosure leaf d), rfl⟩


namespace ExprParser

/-! ## Taking operands -/

/-- Whether a phrase of a level can stand as the operand of frames. -/
structure Fits (level : Nat) (e : Phrase) (frames : List Frame) : Prop where
  framesValid : FramesValid frames
  operandLevel_le : operandLevel frames ≤ level
  binds : Binds level e

/-- Settling at a level leaves a phrase of the level, and keeps the terminals. -/
theorem fits_settle {low level : Nat} (lowLe : low ≤ level) (lowLeTen : low ≤ 10)
    {e : Phrase} {frames : List Frame} (fits : Fits level e frames) :
    Fits low (settle low e frames).1 (settle low e frames).2 ∧
      framesTerminals (settle low e frames).2 ++ (settle low e frames).1.terminals =
        framesTerminals frames ++ e.terminals := by
  induction frames generalizing level e with
  | nil => exact ⟨⟨fits.framesValid, Nat.zero_le _, fits.binds.of_le lowLe⟩, rfl⟩
  | cons frame outer inductionHypothesis =>
      obtain ⟨⟨valid, outerLe, framesValid⟩, operandLe, binds⟩ := fits
      cases frame with
      | unary op sign =>
          have taken : Fits 11 (.unary op sign e) outer :=
            ⟨framesValid, outerLe, (binds.of_le operandLe).unary valid⟩
          simpa [settle, framesTerminals, Frame.terminals, Phrase.terminals] using
            inductionHypothesis (Nat.le_trans lowLeTen (by decide)) taken
      | binary left op sign =>
          by_cases tight : low ≤ op.level
          · have taken : Fits op.level (.binary left op sign e) outer :=
              ⟨framesValid, outerLe, valid.2.binary valid.1 (binds.of_le operandLe)⟩
            simpa [settle, tight, framesTerminals, Frame.terminals, Phrase.terminals] using
              inductionHypothesis tight taken
          · rw [settle, if_neg tight]
            exact ⟨⟨⟨valid, outerLe, framesValid⟩, Nat.lt_of_not_le tight, binds.of_le lowLe⟩, rfl⟩
      | _ => exact ⟨⟨⟨valid, outerLe, framesValid⟩, Nat.zero_le _, binds.of_le lowLe⟩, rfl⟩

/-- Completing leaves an expression, and keeps the terminals. -/
theorem fits_complete {level : Nat} {e : Phrase} {frames : List Frame} (fits : Fits level e frames) :
    Fits 0 (complete e frames).1 (complete e frames).2 ∧
      framesTerminals (complete e frames).2 ++ (complete e frames).1.terminals =
        framesTerminals frames ++ e.terminals := by
  induction frames generalizing level e with
  | nil => exact ⟨⟨fits.framesValid, Nat.le_refl _, fits.binds.of_le (Nat.zero_le _)⟩, rfl⟩
  | cons frame outer inductionHypothesis =>
      obtain ⟨⟨valid, outerLe, framesValid⟩, operandLe, binds⟩ := fits
      cases frame with
      | unary op sign =>
          have taken : Fits 11 (.unary op sign e) outer :=
            ⟨framesValid, outerLe, (binds.of_le operandLe).unary valid⟩
          simpa [complete, framesTerminals, Frame.terminals, Phrase.terminals] using
            inductionHypothesis taken
      | binary left op sign =>
          have taken : Fits op.level (.binary left op sign e) outer :=
            ⟨framesValid, outerLe, valid.2.binary valid.1 (binds.of_le operandLe)⟩
          simpa [complete, framesTerminals, Frame.terminals, Phrase.terminals] using
            inductionHypothesis taken
      | closure head =>
          have taken : Fits 0 (.closure head e) outer :=
            ⟨framesValid, outerLe, .closure valid (binds.of_le (Nat.zero_le _))⟩
          simpa [complete, framesTerminals, Frame.terminals, Phrase.terminals] using
            inductionHypothesis taken
      | _ =>
          exact ⟨⟨⟨valid, outerLe, framesValid⟩, Nat.le_refl _, binds.of_le (Nat.zero_le _)⟩, rfl⟩

/-! ## Steps -/

/-- What items in brackets make up derives from the tightest operands. -/
theorem ItemsUse.binds_build {use : ItemsUse} {opening closing : Terminal}
    (valid : use.Valid opening) {items : Items} (derived : items.Derived)
    (closes : closing.symbol = .token use.closer)
    (grouped : ∀ e, use = .group → items ≠ .last e) :
    Binds 12 (use.build opening items closing) := by
  obtain ⟨right, rfl⟩ := Leaf.exists_of_symbol closes
  cases use with
  | group =>
      obtain ⟨left, rfl⟩ := Leaf.exists_of_symbol valid
      match items, derived with
      | .nil, _ => exact .of_primary ⟨.unit left right, rfl⟩
      | .last e, _ => exact absurd rfl (grouped e rfl)
      | .cons e comma later, ⟨⟨d, spelled⟩, isComma, derived⟩ =>
          obtain ⟨mark, rfl⟩ := Leaf.exists_of_symbol isComma
          obtain ⟨args, rfl⟩ := OptionalArgs.exists_of_derived derived
          exact .of_primary ⟨.tuple left d mark args right, by rw [← spelled]; rfl⟩
  | call callee =>
      obtain ⟨⟨d, spelled⟩, opens⟩ := valid
      obtain ⟨left, rfl⟩ := Leaf.exists_of_symbol opens
      obtain ⟨args, rfl⟩ := OptionalArgs.exists_of_derived derived
      exact ⟨.call d left args right, by rw [← spelled]; rfl⟩
  | invocation name bang delimiter =>
      obtain ⟨⟨d, rfl⟩, isBang, opens, notBrace⟩ := valid
      obtain ⟨mark, rfl⟩ := Leaf.exists_of_symbol isBang
      obtain ⟨args, rfl⟩ := OptionalArgs.exists_of_derived derived
      cases delimiter with
      | paren =>
          obtain ⟨left, rfl⟩ := Leaf.exists_of_symbol opens
          exact .of_primary ⟨.rename .invocation (.invokeParen d mark left args right), rfl⟩
      | bracket =>
          obtain ⟨left, rfl⟩ := Leaf.exists_of_symbol opens
          exact .of_primary ⟨.rename .invocation (.invokeBracket d mark left args right), rfl⟩
      | brace => exact absurd rfl notBrace
  | array =>
      obtain ⟨left, rfl⟩ := Leaf.exists_of_symbol valid
      obtain ⟨args, rfl⟩ := OptionalArgs.exists_of_derived derived
      exact .of_primary ⟨.array left args right, rfl⟩

theorem ItemsUse.terminals_build (use : ItemsUse) (opening closing : Terminal) (items : Items) :
    (use.build opening items closing).terminals =
      use.terminals ++ opening :: items.terminals ++ [closing] := by
  cases use <;> simp [build, terminals, Phrase.terminals]

section Steps

variable {frames : List Frame} {e : Phrase} {t : Terminal} {next : State}

theorem reads_stepComma (fits : Fits 0 e frames) (isComma : t.symbol = .token .comma)
    (taken : stepComma e frames t = .ok next) :
    next.Reads (framesTerminals frames ++ e.terminals ++ [t]) := by
  unfold stepComma at taken
  split at taken
  · obtain rfl := Except.ok.inj taken
    obtain ⟨⟨use, before⟩, outerLe, framesValid⟩ := fits.framesValid
    refine ⟨⟨⟨use, ?_⟩, outerLe, framesValid⟩, trivial, ?_⟩
    · intro step member
      simp only [List.mem_append, List.mem_singleton] at member
      rcases member with earlier | rfl
      · exact before step earlier
      · exact ⟨fits.binds, isComma⟩
    · simp [framesTerminals, Frame.terminals, Phase.terminals]
  · cases taken

theorem reads_stepSemi (fits : Fits 0 e frames) (isSemi : t.symbol = .token .semi)
    (taken : stepSemi e frames t = .ok next) :
    next.Reads (framesTerminals frames ++ e.terminals ++ [t]) := by
  unfold stepSemi at taken
  split at taken
  · obtain rfl := Except.ok.inj taken
    obtain ⟨⟨opens, -⟩, outerLe, framesValid⟩ := fits.framesValid
    refine ⟨⟨⟨opens, fits.binds, isSemi⟩, outerLe, framesValid⟩, trivial, ?_⟩
    simp [framesTerminals, Frame.terminals, Phase.terminals, ItemsUse.terminals]
  · cases taken

theorem reads_stepClose {kind : TokenKind} (fits : Fits 0 e frames)
    (isKind : t.symbol = .token kind) (taken : stepClose e kind frames t = .ok next) :
    next.Reads (framesTerminals frames ++ e.terminals ++ [t]) := by
  unfold stepClose at taken
  split at taken
  · split at taken
    · rename_i isParen
      obtain rfl := Except.ok.inj taken
      obtain ⟨⟨opens, -⟩, -, framesValid⟩ := fits.framesValid
      refine ⟨framesValid, fits.binds.paren opens (isParen ▸ isKind), ?_⟩
      simp [framesTerminals, Frame.terminals, Phase.terminals, ItemsUse.terminals,
        Phrase.terminals]
    · cases taken
  · rename_i use opening before outer notGroup
    split at taken
    · rename_i closes
      obtain rfl := Except.ok.inj taken
      obtain ⟨⟨valid, areBefore⟩, -, framesValid⟩ := fits.framesValid
      have derived : (Items.behind before (.last e)).Derived :=
        Items.derived_behind areBefore fits.binds
      refine ⟨framesValid, ItemsUse.binds_build valid derived (closes ▸ isKind) ?_, ?_⟩
      · rintro e' rfl single
        cases before with
        | nil => exact notGroup rfl rfl
        | cons step before => cases single
      · simp [framesTerminals, Frame.terminals, Phase.terminals, ItemsUse.terminals_build,
          Items.terminals_behind, Items.terminals]
    · cases taken
  · split at taken
    · rename_i closes
      obtain rfl := Except.ok.inj taken
      obtain ⟨⟨binds, opens⟩, -, framesValid⟩ := fits.framesValid
      refine ⟨framesValid, binds.index fits.binds opens (closes ▸ isKind), ?_⟩
      simp [framesTerminals, Frame.terminals, Phase.terminals, Phrase.terminals]
    · cases taken
  · split at taken
    · rename_i closes
      obtain rfl := Except.ok.inj taken
      obtain ⟨⟨opens, binds, isSemi⟩, -, framesValid⟩ := fits.framesValid
      refine ⟨framesValid, binds.fill fits.binds opens isSemi (closes ▸ isKind), ?_⟩
      simp [framesTerminals, Frame.terminals, Phase.terminals, Phrase.terminals]
    · cases taken
  · cases taken

/-- A binary operator takes a settled operand if it stands where its level is allowed. -/
theorem reads_pending {op : BinaryOp} (fits : Fits op.leftLevel e frames)
    (isOp : t.symbol.binaryOp? = some op) (allowed : operandLevel frames ≤ op.level) :
    State.Reads ⟨.start, .binary e op t :: frames⟩ (framesTerminals frames ++ e.terminals ++ [t]) :=
  ⟨⟨⟨isOp, fits.binds⟩, allowed, fits.framesValid⟩, trivial, by
    simp [framesTerminals, Frame.terminals, Phase.terminals]⟩

/-- Behind a settled left operand, an operator is not allowed only where both it and the operator in front
compare. -/
theorem operandLevel_le_of_fits {op : BinaryOp} (fits : Fits op.leftLevel e frames)
    (apart : ∀ left other sign outer, frames = .binary left other sign :: outer →
      ¬(op.isComparison ∧ other.isComparison)) :
    operandLevel frames ≤ op.level := by
  have low := fits.operandLevel_le
  by_cases compares : op.isComparison
  · have isThree : op.level = 3 := op.isComparison_iff.1 compares
    simp only [BinaryOp.leftLevel, compares, if_true, isThree] at low
    match frames with
    | .binary left other sign :: outer =>
        have notThree : ¬other.level = 3 := fun otherThree =>
          apart left other sign outer rfl ⟨compares, other.isComparison_iff.2 otherThree⟩
        simp only [operandLevel, Frame.operandLevel] at low ⊢
        omega
    | .unary _ _ :: _ => simp [operandLevel, Frame.operandLevel] at low
    | [] | .closure _ :: _ | .items _ _ _ :: _ | .index _ _ :: _ | .fill _ _ _ :: _ =>
        exact Nat.zero_le _
  · simpa [BinaryOp.leftLevel, compares] using low

theorem reads_stepBinary {level : Nat} (levelGe : 10 ≤ level) (fits : Fits level e frames)
    {op : BinaryOp} (isOp : t.symbol.binaryOp? = some op)
    (taken : stepBinary e op frames t = .ok next) :
    next.Reads (framesTerminals frames ++ e.terminals ++ [t]) := by
  have low : op.leftLevel ≤ 9 := op.leftLevel_le
  obtain ⟨settled, sameTerminals⟩ :=
    fits_settle (Nat.le_trans low (by omega)) (Nat.le_trans low (by decide)) fits
  rw [stepBinary_eq] at taken
  rw [← sameTerminals]
  generalize settle op.leftLevel e frames = result at settled taken ⊢
  obtain ⟨left, outer⟩ := result
  dsimp only at taken settled
  split at taken
  · split at taken
    · cases taken
    · rename_i apart
      obtain rfl := Except.ok.inj taken
      refine reads_pending settled isOp (operandLevel_le_of_fits settled ?_)
      rintro left' other' sign' outer' shape
      obtain ⟨⟨rfl, rfl, rfl⟩, rfl⟩ : (_ ∧ _ ∧ _) ∧ _ := by simpa using shape
      simpa using apart
  · rename_i notBinary
    obtain rfl := Except.ok.inj taken
    refine reads_pending settled isOp (operandLevel_le_of_fits settled ?_)
    rintro left' other' sign' outer' shape
    exact absurd shape (notBinary left' other' sign' outer')

theorem reads_stepBehind {level : Nat} (levelGe : 10 ≤ level) (fits : Fits level e frames)
    (taken : stepBehind e frames t = .ok next) :
    next.Reads (framesTerminals frames ++ e.terminals ++ [t]) := by
  obtain ⟨completed, sameTerminals⟩ := fits_complete fits
  unfold stepBehind at taken
  split at taken
  · rename_i isAs
    obtain ⟨settled, sameTerminals⟩ := fits_settle levelGe (Nat.le_refl _) fits
    obtain rfl := Except.ok.inj taken
    refine ⟨settled.framesValid, ⟨settled.binds, isAs, settled.operandLevel_le⟩, ?_⟩
    simpa [Phase.terminals, TypeUse.terminals, castLevel] using congrArg (· ++ [t]) sameTerminals
  · rename_i isComma
    rw [← sameTerminals]
    exact reads_stepComma completed isComma taken
  · rename_i isSemi
    rw [← sameTerminals]
    exact reads_stepSemi completed isSemi taken
  · rename_i closes
    rw [← sameTerminals]
    exact reads_stepClose completed closes taken
  · rename_i closes
    rw [← sameTerminals]
    exact reads_stepClose completed closes taken
  · split at taken
    · rename_i isOp
      exact reads_stepBinary levelGe fits isOp taken
    · cases taken

theorem reads_stepOperand (framesValid : FramesValid frames) (operandLe : operandLevel frames ≤ 12)
    (binds : Binds 12 e) (taken : stepOperand e frames t = .ok next) :
    next.Reads (framesTerminals frames ++ e.terminals ++ [t]) := by
  unfold stepOperand at taken
  split at taken
  · rename_i isDot
    obtain rfl := Except.ok.inj taken
    exact ⟨framesValid, ⟨binds, isDot⟩, by simp [Phase.terminals]⟩
  · rename_i opens
    obtain rfl := Except.ok.inj taken
    refine ⟨⟨⟨⟨binds, opens⟩, by simp⟩, operandLe, framesValid⟩, trivial, ?_⟩
    simp [framesTerminals, Frame.terminals, Phase.terminals, ItemsUse.terminals]
  · rename_i opens
    obtain rfl := Except.ok.inj taken
    refine ⟨⟨⟨binds, opens⟩, operandLe, framesValid⟩, trivial, ?_⟩
    simp [framesTerminals, Frame.terminals, Phase.terminals]
  · rename_i isQuestion
    obtain rfl := Except.ok.inj taken
    exact ⟨framesValid, binds.propagate isQuestion, by simp [Phase.terminals, Phrase.terminals]⟩
  · exact reads_stepBehind (by decide) ⟨framesValid, operandLe, binds⟩ taken

theorem reads_stepTypePath {use : TypeUse} {name : NamePhrase} (framesValid : FramesValid frames)
    (valid : use.Valid frames) (derived : name.Derived)
    (taken : stepTypePath use name frames t = .ok next) :
    next.Reads (framesTerminals frames ++ (use.terminals ++ name.terminals) ++ [t]) := by
  unfold stepTypePath at taken
  split at taken
  · rename_i isSeparator
    obtain rfl := Except.ok.inj taken
    exact ⟨framesValid, ⟨valid, derived, isSeparator⟩, by simp [Phase.terminals]⟩
  · obtain ⟨binds, isAs, operandLe⟩ := valid
    simpa [Phrase.terminals, TypeUse.terminals] using
      reads_stepBehind (Nat.le_refl _) ⟨framesValid, operandLe, binds.cast isAs derived⟩ taken
  · rename_i before param colon isComma
    obtain rfl := Except.ok.inj taken
    obtain ⟨before, isWord, isColon, operandLe⟩ := valid
    refine ⟨framesValid,
      ⟨before.push (ParamPhrase.derived_typed isWord isColon derived) isComma, operandLe⟩, ?_⟩
    simp [Phase.terminals, TypeUse.terminals, OpenParams.terminals, OpenParams.push,
      ParamPhrase.terminals]
  · rename_i before param colon isBar
    obtain rfl := Except.ok.inj taken
    obtain ⟨before, isWord, isColon, operandLe⟩ := valid
    have isLast := ParamPhrase.derived_typed isWord isColon derived
    refine ⟨⟨ClosureHead.derived_bars before (by simpa using isLast) isBar, operandLe, framesValid⟩,
      trivial, ?_⟩
    simp [Phase.terminals, TypeUse.terminals, framesTerminals, Frame.terminals,
      ClosureHead.terminals, ParamPhrase.terminals]
  · cases taken

/-- No frame wants more than the tightest operands. -/
theorem operandLevel_le_twelve (frames : List Frame) : operandLevel frames ≤ 12 := by
  match frames with
  | .binary _ op _ :: _ =>
      have low := op.level_le_nine
      simp only [operandLevel, Frame.operandLevel]
      omega
  | .unary _ _ :: _ => exact Nat.le_succ 11
  | [] | .closure _ :: _ | .items _ _ _ :: _ | .index _ _ :: _ | .fill _ _ _ :: _ =>
      exact Nat.zero_le _

theorem operandLevel_le_eleven (frames : List Frame) : operandLevel frames ≤ 11 := by
  match frames with
  | .binary _ op _ :: _ =>
      have low := op.level_le_nine
      simp only [operandLevel, Frame.operandLevel]
      omega
  | .unary _ _ :: _ => exact Nat.le_refl 11
  | [] | .closure _ :: _ | .items _ _ _ :: _ | .index _ _ :: _ | .fill _ _ _ :: _ =>
      exact Nat.zero_le _

/-- A closure may start where any expression may. -/
theorem operandLevel_of_takesClosure (takes : takesClosure frames) : operandLevel frames ≤ 0 := by
  match frames with
  | .binary _ _ _ :: _ | .unary _ _ :: _ => cases takes
  | [] | .closure _ :: _ | .items _ _ _ :: _ | .index _ _ :: _ | .fill _ _ _ :: _ =>
      exact Nat.zero_le _

theorem reads_stepStart (framesValid : FramesValid frames)
    (taken : stepStart frames t = .ok next) :
    next.Reads (framesTerminals frames ++ [t]) := by
  unfold stepStart at taken
  split at taken
  · rename_i isLiteral
    obtain rfl := Except.ok.inj taken
    exact ⟨framesValid, Binds.literal isLiteral, by simp [Phase.terminals, Phrase.terminals]⟩
  · split at taken
    · rename_i op isSign
      obtain rfl := Except.ok.inj taken
      refine ⟨⟨isSign, operandLevel_le_eleven frames, framesValid⟩, trivial, ?_⟩
      simp [framesTerminals, Frame.terminals, Phase.terminals]
    · split at taken
      · rename_i isWord
        obtain rfl := Except.ok.inj taken
        refine ⟨framesValid, NamePhrase.derived_word isWord, ?_⟩
        simp [Phase.terminals, NamePhrase.terminals]
      · rename_i opens
        obtain rfl := Except.ok.inj taken
        refine ⟨⟨⟨opens, by simp⟩, operandLevel_le_twelve frames, framesValid⟩, trivial, ?_⟩
        simp [framesTerminals, Frame.terminals, Phase.terminals, ItemsUse.terminals]
      · rename_i opens
        obtain rfl := Except.ok.inj taken
        refine ⟨⟨⟨opens, by simp⟩, operandLevel_le_twelve frames, framesValid⟩, trivial, ?_⟩
        simp [framesTerminals, Frame.terminals, Phase.terminals, ItemsUse.terminals]
      · rename_i isBar
        split at taken
        · rename_i takes
          obtain rfl := Except.ok.inj taken
          have operandLe := operandLevel_of_takesClosure takes
          refine ⟨framesValid, ⟨OpenParams.derived_bar isBar, operandLe⟩, ?_⟩
          simp [Phase.terminals, OpenParams.terminals]
        · cases taken
      · rename_i isBars
        split at taken
        · rename_i takes
          obtain rfl := Except.ok.inj taken
          refine ⟨⟨isBars, operandLevel_of_takesClosure takes, framesValid⟩, trivial, ?_⟩
          simp [framesTerminals, Frame.terminals, Phase.terminals, ClosureHead.terminals]
        · cases taken
      · rename_i kind _ _ _ _ _ isKind
        split at taken
        · rename_i use opening before outer
          split at taken
          · rename_i closes
            obtain rfl := Except.ok.inj taken
            obtain ⟨⟨valid, areBefore⟩, -, framesValid⟩ := framesValid
            have derived : (Items.behind before .nil).Derived :=
              Items.derived_behind areBefore trivial
            refine ⟨framesValid, ItemsUse.binds_build valid derived (closes ▸ isKind) ?_, ?_⟩
            · rintro e - single
              cases before <;> cases single
            · simp [framesTerminals, Frame.terminals, Phase.terminals, ItemsUse.terminals_build,
                Items.terminals_behind, Items.terminals]
          · cases taken
        · cases taken
      · cases taken

theorem State.Reads.step {s next : State} {ts : List Terminal} (reads : s.Reads ts)
    (taken : step s t = .ok next) : next.Reads (ts ++ [t]) := by
  obtain ⟨phase, frames⟩ := s
  obtain ⟨framesValid, valid, rfl⟩ := reads
  unfold ExprParser.step at taken
  dsimp only at framesValid valid taken ⊢
  split at taken
  · simpa [Phase.terminals] using reads_stepStart framesValid taken
  · exact reads_stepOperand framesValid (operandLevel_le_twelve _) valid taken
  · rename_i isSeparator
    obtain rfl := Except.ok.inj taken
    exact ⟨framesValid, ⟨valid, isSeparator⟩, by simp [Phase.terminals]⟩
  · rename_i isBang
    obtain rfl := Except.ok.inj taken
    exact ⟨framesValid, ⟨valid, isBang⟩, by simp [Phase.terminals]⟩
  · exact reads_stepOperand framesValid (operandLevel_le_twelve _) (.path valid) taken
  · rename_i isWord
    obtain rfl := Except.ok.inj taken
    obtain ⟨derived, isSeparator⟩ := valid
    exact ⟨framesValid, derived.push isSeparator isWord, by
      simp [Phase.terminals, NamePhrase.terminals, NamePhrase.push]⟩
  · cases taken
  · rename_i opens
    obtain rfl := Except.ok.inj taken
    obtain ⟨derived, isBang⟩ := valid
    refine ⟨⟨⟨⟨derived, isBang, opens, by simp⟩, by simp⟩, operandLevel_le_twelve _, framesValid⟩,
      trivial, ?_⟩
    simp [framesTerminals, Frame.terminals, Phase.terminals, ItemsUse.terminals]
  · rename_i opens
    obtain rfl := Except.ok.inj taken
    obtain ⟨derived, isBang⟩ := valid
    refine ⟨⟨⟨⟨derived, isBang, opens, by simp⟩, by simp⟩, operandLevel_le_twelve _, framesValid⟩,
      trivial, ?_⟩
    simp [framesTerminals, Frame.terminals, Phase.terminals, ItemsUse.terminals]
  · cases taken
  · rename_i isWord
    obtain rfl := Except.ok.inj taken
    obtain ⟨binds, isDot⟩ := valid
    exact ⟨framesValid, binds.field isDot isWord, by simp [Phase.terminals, Phrase.terminals]⟩
  · rename_i isInt
    obtain rfl := Except.ok.inj taken
    obtain ⟨binds, isDot⟩ := valid
    exact ⟨framesValid, binds.tupleField isDot isInt, by simp [Phase.terminals, Phrase.terminals]⟩
  · cases taken
  · rename_i isWord
    obtain rfl := Except.ok.inj taken
    exact ⟨framesValid, ⟨valid, NamePhrase.derived_word isWord⟩, by
      simp [Phase.terminals, NamePhrase.terminals]⟩
  · cases taken
  · exact reads_stepTypePath framesValid valid.1 valid.2 taken
  · rename_i isWord
    obtain rfl := Except.ok.inj taken
    obtain ⟨valid, derived, isSeparator⟩ := valid
    exact ⟨framesValid, ⟨valid, derived.push isSeparator isWord⟩, by
      simp [Phase.terminals, NamePhrase.terminals, NamePhrase.push]⟩
  · cases taken
  · rename_i isWord
    obtain rfl := Except.ok.inj taken
    obtain ⟨before, operandLe⟩ := valid
    exact ⟨framesValid, ⟨before, isWord, operandLe⟩, by simp [Phase.terminals]⟩
  · rename_i isBar
    obtain rfl := Except.ok.inj taken
    obtain ⟨before, operandLe⟩ := valid
    refine ⟨⟨ClosureHead.derived_bars before (by simp) isBar, operandLe, framesValid⟩, trivial, ?_⟩
    simp [framesTerminals, Frame.terminals, Phase.terminals, ClosureHead.terminals]
  · cases taken
  · rename_i isColon
    obtain rfl := Except.ok.inj taken
    obtain ⟨before, isWord, operandLe⟩ := valid
    exact ⟨framesValid, ⟨before, isWord, isColon, operandLe⟩, by
      simp [Phase.terminals, TypeUse.terminals]⟩
  · rename_i isComma
    obtain rfl := Except.ok.inj taken
    obtain ⟨before, isWord, operandLe⟩ := valid
    have isParam := ParamPhrase.derived_untyped isWord
    exact ⟨framesValid, ⟨before.push isParam isComma, operandLe⟩, by
      simp [Phase.terminals, OpenParams.terminals, OpenParams.push, ParamPhrase.terminals]⟩
  · rename_i isBar
    obtain rfl := Except.ok.inj taken
    obtain ⟨before, isWord, operandLe⟩ := valid
    have isLast := ParamPhrase.derived_untyped isWord
    refine ⟨⟨ClosureHead.derived_bars before (by simpa using isLast) isBar, operandLe, framesValid⟩,
      trivial, ?_⟩
    simp [framesTerminals, Frame.terminals, Phase.terminals, ClosureHead.terminals,
      ParamPhrase.terminals]
  · cases taken

end Steps

/-! ## Runs -/

theorem State.reads_initial : State.initial.Reads [] :=
  ⟨trivial, trivial, rfl⟩

theorem derives_finishOperand {e whole : Phrase} {frames : List Frame} {level : Nat}
    (fits : Fits level e frames) (finished : finishOperand e frames = .ok whole) :
    Binds 0 whole ∧ whole.terminals = framesTerminals frames ++ e.terminals := by
  obtain ⟨completed, sameTerminals⟩ := fits_complete fits
  unfold finishOperand at finished
  split at finished
  · rename_i shape
    obtain rfl := Except.ok.inj finished
    rw [shape] at completed sameTerminals
    exact ⟨completed.binds, sameTerminals⟩
  · cases finished

/-- Where terminals may end, the phrase at the end derives, and it is spelled by all that was read. -/
theorem State.Reads.finish {s : State} {ts : List Terminal} (reads : s.Reads ts) {whole : Phrase}
    (finished : finish s = .ok whole) : Binds 0 whole ∧ whole.terminals = ts := by
  obtain ⟨phase, frames⟩ := s
  obtain ⟨framesValid, valid, rfl⟩ := reads
  unfold ExprParser.finish at finished
  dsimp only at framesValid valid finished ⊢
  split at finished <;> try cases finished
  · exact derives_finishOperand ⟨framesValid, operandLevel_le_twelve _, valid⟩ finished
  · exact derives_finishOperand ⟨framesValid, operandLevel_le_twelve _, .path valid⟩ finished
  · obtain ⟨⟨binds, isAs, operandLe⟩, derived⟩ := valid
    simpa [Phase.terminals, TypeUse.terminals, Phrase.terminals] using
      derives_finishOperand ⟨framesValid, operandLe, binds.cast isAs derived⟩ finished

/-- A run adds all of its terminals to what was read. -/
theorem State.Reads.reaches {later : List Terminal} {target : State} :
    ∀ {s : State} {ts : List Terminal}, s.Reads ts → Reaches s later target →
      target.Reads (ts ++ later) := by
  induction later with
  | nil =>
      rintro s ts reads rfl
      simpa using reads
  | cons t later inductionHypothesis =>
      rintro s ts reads ⟨next, taken, reaches⟩
      simpa using inductionHypothesis (reads.step taken) reaches

end ExprParser

/-- What the parser yields has a derivation, and is spelled by the terminals that were parsed. -/
theorem parseTerminals_sound {ts : List Terminal} {p : Phrase} (parsed : parseTerminals ts = .ok p) :
    ∃ d : Derivation .start, d.phrase = p ∧ d.terminals = ts := by
  obtain ⟨target, reaches, finished⟩ := ExprParser.run_eq_ok_iff.1 parsed
  obtain ⟨⟨d, rfl⟩, spelled⟩ := (ExprParser.State.reads_initial.reaches reaches).finish finished
  exact ⟨.rename .start d, rfl, d.terminals_phrase ▸ spelled⟩

end AttrGrammar
