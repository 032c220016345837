import AttrGrammar.Expr.Reading
import AttrGrammar.Proofs.Trees.Alike
import Mathlib.Data.List.Forall2

/-!
Contract: where the parser of expressions gets stuck does not depend on places.

Owns:
- states that are alike, made of the same constructs over whatever terminals;
- the steps of the parser from such states, which terminals with one symbol take alike;
- the run over terminals that differ in their places only, and the error where it gets stuck.
-/

namespace AttrGrammar

namespace ExprParser

/-! ## States that are alike -/

inductive ItemsUse.Alike : ItemsUse → ItemsUse → Prop where
  | group : Alike .group .group
  | call (callee' callee : Phrase) : Alike (.call callee') (.call callee)
  | invocation (name' name : NamePhrase) (bang' bang : Terminal) (delimiter : Delimiter) :
      Alike (.invocation name' bang' delimiter) (.invocation name bang delimiter)
  | array : Alike .array .array

/-- Whether two frames are one construct, its items with or without others before. -/
inductive Frame.Alike : Frame → Frame → Prop where
  | binary (left' left : Phrase) (op : BinaryOp) (sign' sign : Terminal) :
      Alike (.binary left' op sign') (.binary left op sign)
  | unary (op : UnaryOp) (sign' sign : Terminal) : Alike (.unary op sign') (.unary op sign)
  | closure (head' head : ClosureHead) : Alike (.closure head') (.closure head)
  | items {use' use : ItemsUse} {before' before : List (Phrase × Terminal)} (alike : use'.Alike use)
      (opening' opening : Terminal) (sameStart : before'.isEmpty = before.isEmpty) :
      Alike (.items use' opening' before') (.items use opening before)
  | index (object' object : Phrase) (opening' opening : Terminal) :
      Alike (.index object' opening') (.index object opening)
  | fill (opening' opening : Terminal) (value' value : Phrase) (semi' semi : Terminal) :
      Alike (.fill opening' value' semi') (.fill opening value semi)

inductive TypeUse.Alike : TypeUse → TypeUse → Prop where
  | cast (operand' operand : Phrase) (asWord' asWord : Terminal) :
      Alike (.cast operand' asWord') (.cast operand asWord)
  | param (before' before : OpenParams) (name' name colon' colon : Terminal) :
      Alike (.param before' name' colon') (.param before name colon)

inductive Phase.Alike : Phase → Phase → Prop where
  | start : Alike .start .start
  | operand (e' e : Phrase) : Alike (.operand e') (.operand e)
  | path (name' name : NamePhrase) : Alike (.path name') (.path name)
  | pathSep (name' name : NamePhrase) (separator' separator : Terminal) :
      Alike (.pathSep name' separator') (.pathSep name separator)
  | bang (name' name : NamePhrase) (sign' sign : Terminal) : Alike (.bang name' sign') (.bang name sign)
  | dot (object' object : Phrase) (sign' sign : Terminal) : Alike (.dot object' sign') (.dot object sign)
  | typeStart {use' use : TypeUse} (alike : use'.Alike use) : Alike (.typeStart use') (.typeStart use)
  | typePath {use' use : TypeUse} (alike : use'.Alike use) (name' name : NamePhrase) :
      Alike (.typePath use' name') (.typePath use name)
  | typeSep {use' use : TypeUse} (alike : use'.Alike use) (name' name : NamePhrase)
      (separator' separator : Terminal) : Alike (.typeSep use' name' separator') (.typeSep use name separator)
  | params (before' before : OpenParams) : Alike (.params before') (.params before)
  | paramName (before' before : OpenParams) (name' name : Terminal) :
      Alike (.paramName before' name') (.paramName before name)

abbrev FramesAlike : List Frame → List Frame → Prop :=
  List.Forall₂ Frame.Alike

structure State.Alike (s' s : State) : Prop where
  phase : s'.phase.Alike s.phase
  frames : FramesAlike s'.frames s.frames

theorem State.Alike.initial : State.initial.Alike .initial :=
  ⟨.start, .nil⟩

/-- Whether two results are values that are related, or the same expectations. -/
def SameResult {α : Type} (related : α → α → Prop) : (r' r : Except (List Expectation) α) → Prop
  | .ok v', .ok v => related v' v
  | .error expected', .error expected => expected' = expected
  | _, _ => False

namespace SameResult

variable {α : Type} {related : α → α → Prop} {r' r : Except (List Expectation) α}

theorem of_ok (same : SameResult related r' r) {v : α} (isValue : r = .ok v) :
    ∃ v', r' = .ok v' ∧ related v' v := by
  subst isValue
  cases r' with
  | ok v' => exact ⟨v', rfl, same⟩
  | error expected' => cases same

theorem of_error (same : SameResult related r' r) {expected : List Expectation}
    (isError : r = .error expected) : r' = .error expected := by
  subst isError
  cases r' with
  | ok v' => cases same
  | error expected' => exact congrArg Except.error same

end SameResult

/-! ## Steps -/

section Steps

variable {frames' frames : List Frame} {t' t : Terminal}

theorem ItemsUse.Alike.closer_eq {use' use : ItemsUse} (alike : use'.Alike use) :
    use'.closer = use.closer := by
  cases alike <;> rfl

theorem takesClosure_eq (alike : FramesAlike frames' frames) :
    takesClosure frames' = takesClosure frames := by
  cases alike with
  | nil => rfl
  | cons first later => cases first <;> rfl

theorem expectedBehind_eq (alike : FramesAlike frames' frames) :
    expectedBehind frames' = expectedBehind frames := by
  cases alike with
  | nil => rfl
  | cons first later =>
      cases first with
      | @items use' use before' before sameUse opening' opening sameStart =>
          cases before' <;> cases before <;> cases sameStart <;> cases sameUse <;> rfl
      | _ => rfl

theorem settle_alike (level : Nat) (e' e : Phrase) (alike : FramesAlike frames' frames) :
    FramesAlike (settle level e' frames').2 (settle level e frames).2 := by
  induction alike generalizing e' e with
  | nil => exact .nil
  | cons first later inductionHypothesis =>
      cases first with
      | unary op sign' sign =>
          rw [settle, settle]
          exact inductionHypothesis _ _
      | binary left' left op sign' sign =>
          rw [settle, settle]
          split
          · exact inductionHypothesis _ _
          · exact .cons (.binary left' left op sign' sign) later
      | closure head' head => exact .cons (.closure head' head) later
      | items sameUse opening' opening sameStart =>
          exact .cons (.items sameUse opening' opening sameStart) later
      | index object' object opening' opening =>
          exact .cons (.index object' object opening' opening) later
      | fill opening' opening value' value semi' semi =>
          exact .cons (.fill opening' opening value' value semi' semi) later

theorem complete_alike (e' e : Phrase) (alike : FramesAlike frames' frames) :
    FramesAlike (complete e' frames').2 (complete e frames).2 := by
  induction alike generalizing e' e with
  | nil => exact .nil
  | cons first later inductionHypothesis =>
      cases first with
      | unary op sign' sign => exact inductionHypothesis _ _
      | binary left' left op sign' sign => exact inductionHypothesis _ _
      | closure head' head => exact inductionHypothesis _ _
      | items sameUse opening' opening sameStart =>
          exact .cons (.items sameUse opening' opening sameStart) later
      | index object' object opening' opening =>
          exact .cons (.index object' object opening' opening) later
      | fill opening' opening value' value semi' semi =>
          exact .cons (.fill opening' opening value' value semi' semi) later

/-- Going on from frames that are alike. -/
theorem goOn_alike {phase' phase : Phase} (samePhase : phase'.Alike phase)
    (alike : FramesAlike frames' frames) :
    SameResult State.Alike (goOn phase' frames') (goOn phase frames) :=
  ⟨samePhase, alike⟩

theorem stuck_behind (alike : FramesAlike frames' frames) :
    SameResult State.Alike (stuck (expectedBehind frames')) (stuck (expectedBehind frames)) :=
  expectedBehind_eq alike

theorem stepStart_alike (alike : FramesAlike frames' frames) (sameSymbol : t'.symbol = t.symbol) :
    SameResult State.Alike (stepStart frames' t') (stepStart frames t) := by
  unfold stepStart
  rw [sameSymbol, takesClosure_eq alike]
  split
  · exact goOn_alike (.operand _ _) alike
  split
  · exact goOn_alike .start (.cons (.unary _ t' t) alike)
  split
  · exact goOn_alike (.path _ _) alike
  · exact goOn_alike .start (.cons (.items .group t' t rfl) alike)
  · exact goOn_alike .start (.cons (.items .array t' t rfl) alike)
  · split
    · exact goOn_alike (.params _ _) alike
    · rfl
  · split
    · exact goOn_alike .start (.cons (.closure _ _) alike)
    · rfl
  · cases alike with
    | nil => rfl
    | cons first later =>
        cases first with
        | items sameUse opening' opening sameStart =>
            dsimp only
            rw [sameUse.closer_eq]
            split
            · exact goOn_alike (.operand _ _) later
            · rfl
        | _ => rfl
  · rfl

theorem stepComma_alike (e' e : Phrase) (alike : FramesAlike frames' frames) :
    SameResult State.Alike (stepComma e' frames' t') (stepComma e frames t) := by
  cases alike with
  | nil => rfl
  | cons first later =>
      cases first with
      | @items use' use before' before sameUse opening' opening sameStart =>
          have sameStart : (before' ++ [(e', t')]).isEmpty = (before ++ [(e, t)]).isEmpty := by
            cases before' <;> cases before <;> rfl
          exact goOn_alike .start (.cons (.items sameUse opening' opening sameStart) later)
      | _ => rfl

theorem stepSemi_alike (e' e : Phrase) (alike : FramesAlike frames' frames) :
    SameResult State.Alike (stepSemi e' frames' t') (stepSemi e frames t) := by
  have behind := stuck_behind alike
  cases alike with
  | nil => rfl
  | cons first later =>
      cases first with
      | @items use' use before' before sameUse opening' opening sameStart =>
          cases before' <;> cases before <;> cases sameStart
          · cases sameUse with
            | array => exact goOn_alike .start (.cons (.fill _ _ _ _ _ _) later)
            | _ => exact behind
          · cases sameUse <;> exact behind
      | _ => rfl

/-- A bracket closes where it is the right one. -/
theorem close_alike {outer' outer : List Frame} {kind right' right : TokenKind}
    (alike : FramesAlike frames' frames) (sameOuter : FramesAlike outer' outer)
    (sameRight : right' = right) (closed' closed : Phrase) :
    SameResult State.Alike
      (if kind = right' then goOn (.operand closed') outer' else stuck (expectedBehind frames'))
      (if kind = right then goOn (.operand closed) outer else stuck (expectedBehind frames)) := by
  rw [sameRight]
  split
  · exact goOn_alike (.operand closed' closed) sameOuter
  · exact stuck_behind alike

theorem stepClose_alike (e' e : Phrase) (kind : TokenKind) (alike : FramesAlike frames' frames) :
    SameResult State.Alike (stepClose e' kind frames' t') (stepClose e kind frames t) := by
  have all := alike
  cases alike with
  | nil => rfl
  | cons first later =>
      cases first with
      | @items use' use before' before sameUse opening' opening sameStart =>
          cases before' <;> cases before <;> cases sameStart
          · cases sameUse <;> exact close_alike all later rfl _ _
          · cases sameUse <;> exact close_alike all later rfl _ _
      | index object' object opening' opening => exact close_alike all later rfl _ _
      | fill opening' opening value' value semi' semi => exact close_alike all later rfl _ _
      | _ => rfl

theorem stepBinary_alike (e' e : Phrase) (op : BinaryOp) (alike : FramesAlike frames' frames) :
    SameResult State.Alike (stepBinary e' op frames' t') (stepBinary e op frames t) := by
  have settled := settle_alike (if op.isComparison then op.level + 1 else op.level) e' e alike
  unfold stepBinary
  generalize settle (if op.isComparison then op.level + 1 else op.level) e' frames' = outcome' at *
  generalize settle (if op.isComparison then op.level + 1 else op.level) e frames = outcome at *
  obtain ⟨left', outer'⟩ := outcome'
  obtain ⟨left, outer⟩ := outcome
  dsimp only at settled ⊢
  have pending := goOn_alike .start (.cons (.binary left' left op t' t) settled)
  cases settled with
  | nil => exact pending
  | cons first later =>
      cases first with
      | binary _ _ other _ _ =>
          dsimp only
          split
          · rfl
          · exact pending
      | _ => exact pending

theorem stepBehind_alike (e' e : Phrase) (alike : FramesAlike frames' frames)
    (sameSymbol : t'.symbol = t.symbol) :
    SameResult State.Alike (stepBehind e' frames' t') (stepBehind e frames t) := by
  have completed := complete_alike e' e alike
  unfold stepBehind
  rw [sameSymbol]
  split
  · exact goOn_alike (.typeStart (.cast _ _ _ _)) (settle_alike castLevel e' e alike)
  · exact stepComma_alike _ _ completed
  · exact stepSemi_alike _ _ completed
  · exact stepClose_alike _ _ .rparen completed
  · exact stepClose_alike _ _ .rbracket completed
  · split
    · exact stepBinary_alike e' e _ alike
    · rfl

theorem stepOperand_alike (e' e : Phrase) (alike : FramesAlike frames' frames)
    (sameSymbol : t'.symbol = t.symbol) :
    SameResult State.Alike (stepOperand e' frames' t') (stepOperand e frames t) := by
  unfold stepOperand
  rw [sameSymbol]
  split
  · exact goOn_alike (.dot _ _ _ _) alike
  · exact goOn_alike .start (.cons (.items (.call _ _) t' t rfl) alike)
  · exact goOn_alike .start (.cons (.index _ _ _ _) alike)
  · exact goOn_alike (.operand _ _) alike
  · exact stepBehind_alike e' e alike sameSymbol

theorem stepTypePath_alike {use' use : TypeUse} (sameUse : use'.Alike use) (name' name : NamePhrase)
    (alike : FramesAlike frames' frames) (sameSymbol : t'.symbol = t.symbol) :
    SameResult State.Alike (stepTypePath use' name' frames' t') (stepTypePath use name frames t) := by
  unfold stepTypePath
  rw [sameSymbol]
  cases sameUse with
  | cast operand' operand asWord' asWord =>
      have behind := stepBehind_alike (.cast operand' asWord' name') (.cast operand asWord name) alike
        sameSymbol
      generalize t.symbol = s
      split
      · exact goOn_alike (.typeSep (.cast _ _ _ _) _ _ _ _) alike
      · rename_i same
        obtain ⟨rfl, rfl⟩ := TypeUse.cast.inj same
        exact behind
      all_goals contradiction
  | param before' before param' param colon' colon =>
      generalize t.symbol = s
      split
      · exact goOn_alike (.typeSep (.param _ _ _ _ _ _) _ _ _ _) alike
      · contradiction
      · exact goOn_alike (.params _ _) alike
      · exact goOn_alike .start (.cons (.closure _ _) alike)
      · rfl

/-- Terminals with one symbol take states that are alike to such states again, or get stuck alike. -/
theorem step_alike {s' s : State} (alike : s'.Alike s) (sameSymbol : t'.symbol = t.symbol) :
    SameResult State.Alike (step s' t') (step s t) := by
  obtain ⟨phase', frames'⟩ := s'
  obtain ⟨phase, frames⟩ := s
  obtain ⟨samePhase, sameFrames⟩ := alike
  dsimp only at samePhase sameFrames
  unfold step
  dsimp only
  rw [sameSymbol]
  generalize t.symbol = s
  cases samePhase with
  | start => exact stepStart_alike sameFrames sameSymbol
  | operand e' e => exact stepOperand_alike e' e sameFrames sameSymbol
  | path name' name =>
      split <;> try contradiction
      · exact goOn_alike (.pathSep _ _ _ _) sameFrames
      · exact goOn_alike (.bang _ _ _ _) sameFrames
      · exact stepOperand_alike _ _ sameFrames sameSymbol
  | pathSep name' name separator' separator =>
      split <;> try contradiction
      · exact goOn_alike (.path _ _) sameFrames
      · rfl
  | bang name' name sign' sign =>
      split <;> try contradiction
      · exact goOn_alike .start (.cons (.items (.invocation _ _ _ _ _) _ _ rfl) sameFrames)
      · exact goOn_alike .start (.cons (.items (.invocation _ _ _ _ _) _ _ rfl) sameFrames)
      · rfl
  | dot object' object sign' sign =>
      split <;> try contradiction
      · exact goOn_alike (.operand _ _) sameFrames
      · exact goOn_alike (.operand _ _) sameFrames
      · rfl
  | typeStart sameUse =>
      split <;> try contradiction
      · rename_i same
        obtain rfl := Phase.typeStart.inj same
        exact goOn_alike (.typePath sameUse _ _) sameFrames
      · rfl
  | typePath sameUse name' name => exact stepTypePath_alike sameUse name' name sameFrames sameSymbol
  | typeSep sameUse name' name separator' separator =>
      split <;> try contradiction
      · rename_i same
        obtain ⟨rfl, rfl, rfl⟩ := Phase.typeSep.inj same
        exact goOn_alike (.typePath sameUse _ _) sameFrames
      · rfl
  | params before' before =>
      split <;> try contradiction
      · exact goOn_alike (.paramName _ _ _ _) sameFrames
      · exact goOn_alike .start (.cons (.closure _ _) sameFrames)
      · rfl
  | paramName before' before name' name =>
      split <;> try contradiction
      · exact goOn_alike (.typeStart (.param _ _ _ _ _ _)) sameFrames
      · exact goOn_alike (.params _ _) sameFrames
      · exact goOn_alike .start (.cons (.closure _ _) sameFrames)
      · rfl

end Steps

/-! ## Runs -/

theorem finishOperand_alike (e' e : Phrase) {frames' frames : List Frame}
    (alike : FramesAlike frames' frames) :
    SameResult (fun _ _ => True) (finishOperand e' frames') (finishOperand e frames) := by
  have completed := complete_alike e' e alike
  unfold finishOperand
  generalize complete e' frames' = outcome' at *
  generalize complete e frames = outcome at *
  obtain ⟨whole', outer'⟩ := outcome'
  obtain ⟨whole, outer⟩ := outcome
  have behind := expectedBehind_eq completed
  cases completed with
  | nil => trivial
  | cons first later => exact behind

theorem finish_alike {s' s : State} (alike : s'.Alike s) :
    SameResult (fun _ _ => True) (finish s') (finish s) := by
  obtain ⟨phase', frames'⟩ := s'
  obtain ⟨phase, frames⟩ := s
  obtain ⟨samePhase, sameFrames⟩ := alike
  dsimp only at samePhase sameFrames
  cases samePhase with
  | operand e' e => exact finishOperand_alike e' e sameFrames
  | path name' name => exact finishOperand_alike _ _ sameFrames
  | typePath sameUse name' name =>
      cases sameUse with
      | cast => exact finishOperand_alike _ _ sameFrames
      | param => rfl
  | _ => rfl

/-- Whether the parser got stuck at terminals that differ in their places only, and expected the same there. -/
structure Stuck.Alike (s' s : Stuck) : Prop where
  terminal : s'.terminal.map Terminal.unplaced = s.terminal.map Terminal.unplaced
  expected : s'.expected = s.expected

theorem Stuck.Alike.unplaced_error {s' s : Stuck} (alike : s'.Alike s) (finish' finish : Position) :
    (s'.error finish').unplaced = (s.error finish).unplaced := by
  obtain ⟨terminal', expected⟩ := s'
  obtain ⟨terminal, _⟩ := s
  obtain ⟨sameTerminal, rfl⟩ := alike
  cases terminal with
  | none =>
      obtain rfl := Option.map_eq_none_iff.1 sameTerminal
      rfl
  | some t =>
      obtain ⟨t', rfl, same⟩ := Option.map_eq_some_iff.1 sameTerminal
      obtain ⟨-, sameText⟩ := Terminal.unplaced_eq_iff.1 same
      simp [error, ParseError.unplaced, sameText]

/-- Over terminals that differ in their places only, the parser gets stuck alike. -/
theorem run_stuck {ts' ts : List Terminal} {s' s : State} (alike : s'.Alike s)
    (sameTerminals : ts'.map Terminal.unplaced = ts.map Terminal.unplaced) {stuck : Stuck}
    (isStuck : run s ts = .error stuck) :
    ∃ stuck', run s' ts' = .error stuck' ∧ stuck'.Alike stuck := by
  induction ts generalizing ts' s' s with
  | nil =>
      obtain rfl := List.map_eq_nil_iff.1 sameTerminals
      have atEnd := finish_alike alike
      rw [run] at isStuck ⊢
      cases result : finish s with
      | ok phrase =>
          rw [result] at isStuck
          cases isStuck
      | error expected =>
          rw [result] at isStuck
          obtain rfl := Except.error.inj isStuck
          rw [atEnd.of_error result]
          exact ⟨⟨none, expected⟩, rfl, rfl, rfl⟩
  | cons t later inductionHypothesis =>
      obtain ⟨t', later', rfl, sameTerminal, sameLater⟩ := List.map_eq_cons_iff.1 sameTerminals
      have next := step_alike alike (Terminal.unplaced_eq_iff.1 sameTerminal).1
      rw [run] at isStuck ⊢
      cases result : step s t with
      | ok behind =>
          obtain ⟨behind', result', sameBehind⟩ := next.of_ok result
          rw [result] at isStuck
          rw [result']
          exact inductionHypothesis sameBehind sameLater isStuck
      | error expected =>
          rw [result] at isStuck
          obtain rfl := Except.error.inj isStuck
          rw [next.of_error result]
          exact ⟨⟨some t', expected⟩, rfl, congrArg some sameTerminal, rfl⟩

end ExprParser

end AttrGrammar
