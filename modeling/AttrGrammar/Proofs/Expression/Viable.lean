import AttrGrammar.Proofs.Expression.Reread
import Mathlib.Data.List.Induction

/-!
Contract: the errors of expressions, by where their terminals leave the grammar.

Owns:
- sentences and their beginnings;
- the terminals that complete what a state of the parser has read, so that the parser gets through terminals exactly
  if a sentence begins with them;
- where the parser gets stuck: at the first terminal with which no sentence begins, or else at the end;
- which error comes of trees that are no expression: errors of structure come before those of literals, and of
  several literals the leftmost counts.

Does not own: what the parser expected instead.
-/

namespace AttrGrammar

/-- Whether terminals are a sentence of the grammar. -/
def IsSentence (ts : List Terminal) : Prop :=
  ∃ d : Derivation .start, d.terminals = ts

/-- Whether a sentence of the grammar begins with terminals. -/
def BeginsSentence (ts : List Terminal) : Prop :=
  ∃ later, IsSentence (ts ++ later)

theorem IsSentence.begins {ts : List Terminal} (sentence : IsSentence ts) : BeginsSentence ts :=
  ⟨[], by rwa [List.append_nil]⟩

theorem isSentence_iff_parses {ts : List Terminal} :
    IsSentence ts ↔ ∃ p, parseTerminals ts = .ok p := by
  constructor
  · rintro ⟨d, rfl⟩
    exact ⟨d.phrase, d.parseTerminals_eq⟩
  · rintro ⟨p, parsed⟩
    obtain ⟨d, -, sameTerminals⟩ := parseTerminals_sound parsed
    exact ⟨d, sameTerminals⟩

namespace ExprParser

/-! ## Completing what was read -/

/-- A terminal of a kind, its text and its place being of no account. -/
def filler (kind : TokenKind) : Terminal :=
  ⟨.token kind, "", .nowhere⟩

/-- The terminals that turn what a type name belongs to into an operand, behind that name. -/
def TypeUse.fillers : TypeUse → List Terminal
  | cast .. => []
  | param .. => [filler .pipe, filler .ident]

/-- The terminals that turn a phase into an operand. -/
def Phase.fillers : Phase → List Terminal
  | start | pathSep .. | dot .. => [filler .ident]
  | operand _ | path _ => []
  | bang .. => [filler .lparen, filler .ident]
  | typeStart use | typeSep use .. => filler .ident :: use.fillers
  | typePath use _ => use.fillers
  | params _ | paramName .. => [filler .pipe, filler .ident]

theorem reaches_fillers (s : State) :
    ∃ target, Reaches s s.phase.fillers target ∧ target.phase.operand?.isSome := by
  obtain ⟨phase, frames⟩ := s
  cases phase with
  | operand | path => exact ⟨_, rfl, rfl⟩
  | start | pathSep | dot => exact ⟨_, .single rfl, rfl⟩
  | bang | params | paramName => exact ⟨_, .cons rfl (.single rfl), rfl⟩
  | typeStart use =>
      cases use with
      | cast => exact ⟨_, .single rfl, rfl⟩
      | param => exact ⟨_, .cons rfl (.cons rfl (.single rfl)), rfl⟩
  | typePath use =>
      cases use with
      | cast => exact ⟨_, rfl, rfl⟩
      | param => exact ⟨_, .cons rfl (.single rfl), rfl⟩
  | typeSep use =>
      cases use with
      | cast => exact ⟨_, .single rfl, rfl⟩
      | param => exact ⟨_, .cons rfl (.cons rfl (.single rfl)), rfl⟩

/-- The bracket that closes a frame, if it is open. -/
def Frame.closer? : Frame → Option TokenKind
  | binary .. | unary .. | closure _ => none
  | items use .. => some use.closer
  | index .. | fill .. => some .rbracket

/-- The brackets that close all open frames, the innermost first. -/
def closers (frames : List Frame) : List Terminal :=
  (frames.filterMap Frame.closer?).map filler

theorem Frame.Valid.closes {frame : Frame} (valid : frame.Valid) {kind : TokenKind}
    (closes : frame.closer? = some kind) : kind = .rparen ∨ kind = .rbracket := by
  cases frame with
  | binary | unary | closure => cases closes
  | index | fill => exact .inr (Option.some.inj closes).symm
  | items use opening before =>
      obtain rfl := Option.some.inj closes
      cases use with
      | group | call => exact .inl rfl
      | array => exact .inr rfl
      | invocation name bang delimiter =>
          cases delimiter with
          | paren => exact .inl rfl
          | bracket => exact .inr rfl
          | brace => exact absurd rfl valid.1.2.2.2

/-- The bracket of a frame closes it behind an operand. -/
theorem Frame.Valid.step_closer {frame : Frame} (valid : frame.Valid) {kind : TokenKind}
    (closes : frame.closer? = some kind) (e : Phrase) (outer : List Frame) :
    ∃ whole, step ⟨.operand e, frame :: outer⟩ (filler kind) = .ok ⟨.operand whole, outer⟩ := by
  cases frame with
  | binary | unary | closure => cases closes
  | index | fill =>
      obtain rfl := Option.some.inj closes
      exact ⟨_, rfl⟩
  | items use opening before =>
      obtain rfl := Option.some.inj closes
      cases use with
      | group => cases before <;> exact ⟨_, rfl⟩
      | call | array => exact ⟨_, rfl⟩
      | invocation name bang delimiter =>
          cases delimiter with
          | paren | bracket => exact ⟨_, rfl⟩
          | brace => exact absurd rfl valid.1.2.2.2

theorem closing_of_valid {frames : List Frame} (valid : FramesValid frames) :
    ∀ t ∈ closers frames, t.symbol = .token .rparen ∨ t.symbol = .token .rbracket := by
  induction frames with
  | nil => exact nofun
  | cons frame outer inductionHypothesis =>
      obtain ⟨frameValid, -, outerValid⟩ := valid
      intro t member
      cases closes : frame.closer? with
      | none =>
          rw [closers, List.filterMap_cons_none closes] at member
          exact inductionHypothesis outerValid t member
      | some kind =>
          rw [closers, List.filterMap_cons_some closes, List.map_cons, List.mem_cons] at member
          rcases member with rfl | member
          · exact (frameValid.closes closes).imp (congrArg Symbol.token) (congrArg Symbol.token)
          · exact inductionHypothesis outerValid t member

/-- What is no open bracket takes its operand where that is completed. -/
theorem Frame.complete_of_closer? {frame : Frame} (notOpen : frame.closer? = none) (e : Phrase)
    (outer : List Frame) : ∃ e', complete e (frame :: outer) = complete e' outer := by
  cases frame with
  | binary | unary | closure => exact ⟨_, rfl⟩
  | items | index | fill => cases notOpen

section Closing

variable {s s' : State} {e e' : Phrase}

/-- Brackets that close do not tell operands apart that are completed to the same phrase. -/
theorem run_closing (holds : s.phase.operand? = some e) (holds' : s'.phase.operand? = some e')
    (same : complete e s.frames = complete e' s'.frames) {ts : List Terminal}
    (closing : ∀ t ∈ ts, t.symbol = .token .rparen ∨ t.symbol = .token .rbracket) :
    run s ts = run s' ts := by
  cases ts with
  | nil =>
      rw [run, run, finish_of_operand? holds, finish_of_operand? holds', finishOperand,
        finishOperand, same]
  | cons t later =>
      have sameStep : step s t = step s' t := by
        rcases closing t List.mem_cons_self with isCloser | isCloser
        all_goals
          rw [step_of_operand? holds (by rw [isCloser]; rfl),
            step_of_operand? holds' (by rw [isCloser]; rfl)]
          simp only [stepBehind, isCloser, same]
      rw [run, run, sameStep]

theorem run_operand_closers (frames : List Frame) (valid : FramesValid frames) (e : Phrase) :
    ∃ p, run ⟨.operand e, frames⟩ (closers frames) = .ok p := by
  induction frames generalizing e with
  | nil => exact ⟨e, rfl⟩
  | cons frame outer inductionHypothesis =>
      obtain ⟨frameValid, -, outerValid⟩ := id valid
      cases closes : frame.closer? with
      | none =>
          obtain ⟨e', same⟩ := frame.complete_of_closer? closes e outer
          have behind : run ⟨.operand e, frame :: outer⟩ (closers outer) =
              run ⟨.operand e', outer⟩ (closers outer) :=
            run_closing rfl rfl same (closing_of_valid outerValid)
          rw [closers, List.filterMap_cons_none closes, ← closers, behind]
          exact inductionHypothesis outerValid e'
      | some kind =>
          obtain ⟨whole, taken⟩ := frameValid.step_closer closes e outer
          rw [closers, List.filterMap_cons_some closes, List.map_cons, ← closers, run, taken]
          exact inductionHypothesis outerValid whole

/-- The brackets that close all open frames complete an operand. -/
theorem run_closers (holds : s.phase.operand? = some e) (valid : FramesValid s.frames) :
    ∃ p, run s (closers s.frames) = .ok p := by
  have plain : (State.mk (.operand e) s.frames).phase.operand? = some e := rfl
  rw [run_closing holds plain rfl (closing_of_valid valid)]
  exact run_operand_closers s.frames valid e

/-- Whatever was read can be completed. -/
theorem State.Reads.completes {ts : List Terminal} (reads : s.Reads ts) :
    ∃ later p, run s later = .ok p := by
  obtain ⟨middle, filled, isOperand⟩ := reaches_fillers s
  obtain ⟨e, holds⟩ := Option.isSome_iff_exists.1 isOperand
  obtain ⟨p, closed⟩ := run_closers holds (reads.reaches filled).frames
  obtain ⟨target, reaches, finished⟩ := run_eq_ok_iff.1 closed
  exact ⟨_, p, run_eq_ok_iff.2 ⟨target, filled.append reaches, finished⟩⟩

end Closing

/-! ## Where the parser gets stuck -/

section Stuck

variable {s middle : State} {front later ts : List Terminal} {t : Terminal}
  {expected : List Expectation}

/-- A sentence begins with terminals exactly if the parser gets through them. -/
theorem beginsSentence_iff : BeginsSentence ts ↔ ∃ s, Reaches .initial ts s := by
  constructor
  · rintro ⟨later, sentence⟩
    obtain ⟨p, parsed⟩ := isSentence_iff_parses.1 sentence
    obtain ⟨target, reaches, -⟩ := run_eq_ok_iff.1 parsed
    obtain ⟨middle, first, -⟩ := reaches_append_iff.1 reaches
    exact ⟨middle, first⟩
  · rintro ⟨s, reaches⟩
    obtain ⟨later, p, completed⟩ := (State.reads_initial.reaches reaches).completes
    obtain ⟨target, rest, finished⟩ := run_eq_ok_iff.1 completed
    exact ⟨later, isSentence_iff_parses.2
      ⟨p, run_eq_ok_iff.2 ⟨target, reaches.append rest, finished⟩⟩⟩

theorem run_append (reaches : Reaches s front middle) : run s (front ++ later) = run middle later := by
  induction front generalizing s with
  | nil =>
      obtain rfl := reaches
      rfl
  | cons t front inductionHypothesis =>
      obtain ⟨next, taken, rest⟩ := reaches
      rw [List.cons_append, run, taken]
      exact inductionHypothesis rest

/-- Where the parser gets stuck, no sentence goes on. -/
theorem not_beginsSentence (reaches : Reaches .initial front middle)
    (isStuck : step middle t = .error expected) : ¬BeginsSentence (front ++ [t]) := by
  rintro ⟨later, sentence⟩
  obtain ⟨p, parsed⟩ := isSentence_iff_parses.1 sentence
  rw [List.append_assoc, parseTerminals, run_append reaches, List.singleton_append, run,
    isStuck] at parsed
  cases parsed

/-- A sentence begins with terminals, or some first of them leaves the grammar. -/
theorem begins_or_leaves (ts : List Terminal) : BeginsSentence ts ∨
    ∃ front t later, ts = front ++ t :: later ∧ BeginsSentence front ∧
      ¬BeginsSentence (front ++ [t]) := by
  induction ts using List.reverseRecOn with
  | nil => exact .inl (beginsSentence_iff.2 ⟨_, rfl⟩)
  | append_singleton ts t inductionHypothesis =>
      rcases inductionHypothesis with begins | ⟨front, u, later, rfl, begins, leaves⟩
      · by_cases goesOn : BeginsSentence (ts ++ [t])
        · exact .inl goesOn
        · exact .inr ⟨ts, t, [], rfl, begins, goesOn⟩
      · exact .inr ⟨front, u, later ++ [t], by simp, begins, leaves⟩

/-- The parser gets stuck at the first terminal with which no sentence begins. -/
theorem parseTerminals_stuck (later : List Terminal) (begins : BeginsSentence front)
    (leaves : ¬BeginsSentence (front ++ [t])) :
    ∃ expected, parseTerminals (front ++ t :: later) = .error ⟨some t, expected⟩ := by
  obtain ⟨middle, reaches⟩ := beginsSentence_iff.1 begins
  rw [parseTerminals, run_append reaches, run]
  cases taken : step middle t with
  | ok next => exact absurd (beginsSentence_iff.2 ⟨next, reaches.append (.single taken)⟩) leaves
  | error expected => exact ⟨expected, rfl⟩

/-- Where a sentence goes on behind all terminals, the parser gets stuck at the end. -/
theorem parseTerminals_incomplete (begins : BeginsSentence ts) (incomplete : ¬IsSentence ts) :
    ∃ expected, parseTerminals ts = .error ⟨none, expected⟩ := by
  obtain ⟨target, reaches⟩ := beginsSentence_iff.1 begins
  have ended : run .initial (ts ++ []) = run target [] := run_append reaches
  rw [List.append_nil, run] at ended
  rw [parseTerminals, ended]
  cases finished : finish target with
  | ok p =>
      have parsed := run_eq_ok_iff.2 ⟨target, reaches, finished⟩
      exact absurd (isSentence_iff_parses.2 ⟨p, parsed⟩) incomplete
  | error expected => exact ⟨expected, rfl⟩

end Stuck

end ExprParser

/-! ## The error of an expression -/

namespace Expr

open ExprParser

/-- Where trees are no expression, the error is at the first terminal with which no sentence begins, or at the end if
a sentence goes on there; and where they are a sentence, it is that of the leftmost literal without a value. There
are no other errors. -/
theorem ofTrees_faults (trees : List Tree) (finish : Position) (notEmpty : trees ≠ []) :
    (∀ front t later, Terminal.ofTrees trees = front ++ t :: later → BeginsSentence front →
      ¬BeginsSentence (front ++ [t]) →
      ∃ expected, ofTrees trees finish =
        .error (.rejected ⟨.malformedItem, .stuckExpression (some t.text) expected, t.position⟩)) ∧
    (BeginsSentence (Terminal.ofTrees trees) → ¬IsSentence (Terminal.ofTrees trees) →
      ∃ expected, ofTrees trees finish =
        .error (.rejected ⟨.malformedItem, .stuckExpression none expected, finish⟩)) ∧
    (∀ d : Derivation .start, d.terminals = Terminal.ofTrees trees →
      d.literals.Sublist (Terminal.ofTrees trees) ∧
      ∀ before t after failure, d.literals = before ++ t :: after → (∀ l ∈ before, l.Decodes) →
        t.decode t.position = .error failure → ofTrees trees finish = .error failure) ∧
    ∀ failure, ofTrees trees finish = .error failure →
      (∃ front t later, Terminal.ofTrees trees = front ++ t :: later ∧ BeginsSentence front ∧
        ¬BeginsSentence (front ++ [t])) ∨
      BeginsSentence (Terminal.ofTrees trees) ∧ ¬IsSentence (Terminal.ofTrees trees) ∨
      ∃ d : Derivation .start, d.terminals = Terminal.ofTrees trees ∧
        ∃ before t after, d.literals = before ++ t :: after ∧ (∀ l ∈ before, l.Decodes) ∧
          t.decode t.position = .error failure := by
  refine ⟨?_, ?_, ?_, ?_⟩
  · intro front t later split begins leaves
    obtain ⟨expected, isStuck⟩ := parseTerminals_stuck later begins leaves
    rw [← split] at isStuck
    exact ⟨_, ofTrees_of_stuck notEmpty isStuck finish⟩
  · intro begins incomplete
    obtain ⟨expected, isStuck⟩ := parseTerminals_incomplete begins incomplete
    exact ⟨_, ofTrees_of_stuck notEmpty isStuck finish⟩
  · intro d sameTerminals
    refine ⟨sameTerminals ▸ d.collects.sublist, fun before t after failure split decode fails => ?_⟩
    rw [ofTrees_of_derivation sameTerminals finish, ← verdict_eq_error_iff, d.verdict_value, split]
    exact Terminal.forM_verdict_eq_error_iff.2 ⟨before, t, after, rfl, decode, fails⟩
  · intro failure rejected
    rcases begins_or_leaves (Terminal.ofTrees trees) with begins | leaves
    · by_cases sentence : IsSentence (Terminal.ofTrees trees)
      · obtain ⟨d, sameTerminals⟩ := sentence
        rw [ofTrees_of_derivation sameTerminals finish, ← verdict_eq_error_iff,
          d.verdict_value] at rejected
        exact .inr (.inr ⟨d, sameTerminals, Terminal.forM_verdict_eq_error_iff.1 rejected⟩)
      · exact .inr (.inl ⟨begins, sentence⟩)
    · exact .inl leaves

/-- The second comparison in `a < b < 3foo` is the error, though `3foo` is no number; the end of `a <` is one, and in
`3foo` alone the number is. -/
theorem ofTrees_chained_comparison :
    (∃ expected, ofTrees
      [.token ⟨.ident, "a", ⟨1, 1⟩, false⟩, .token ⟨.langle, "<", ⟨1, 3⟩, false⟩,
        .token ⟨.ident, "b", ⟨1, 5⟩, false⟩, .token ⟨.langle, "<", ⟨1, 7⟩, false⟩,
        .token ⟨.int, "3foo", ⟨1, 9⟩, false⟩] ⟨1, 13⟩ =
      .error (.rejected ⟨.malformedItem, .stuckExpression (some "<") expected, ⟨1, 7⟩⟩)) ∧
    (∃ expected, ofTrees
      [.token ⟨.ident, "a", ⟨1, 1⟩, false⟩, .token ⟨.langle, "<", ⟨1, 3⟩, false⟩] ⟨1, 5⟩ =
      .error (.rejected ⟨.malformedItem, .stuckExpression none expected, ⟨1, 5⟩⟩)) ∧
    ofTrees [.token ⟨.int, "3foo", ⟨1, 1⟩, false⟩] ⟨1, 5⟩ =
      .error (.rejected ⟨.malformedItem, .malformedLiteral (.badSuffix "foo"), ⟨1, 1⟩⟩) := by
  refine ⟨?_, ?_, ?_⟩
  · let front : List Terminal := [⟨.token .ident, "a", ⟨1, 1⟩⟩, ⟨.token .langle, "<", ⟨1, 3⟩⟩,
      ⟨.token .ident, "b", ⟨1, 5⟩⟩]
    obtain ⟨middle, reaches, isStuck⟩ : ∃ middle, Reaches .initial front middle ∧
        step middle ⟨.token .langle, "<", ⟨1, 7⟩⟩ = .error [] :=
      ⟨_, .cons rfl (.cons rfl (.single rfl)), rfl⟩
    exact (ofTrees_faults _ ⟨1, 13⟩ (List.cons_ne_nil _ _)).1 front ⟨.token .langle, "<", ⟨1, 7⟩⟩
      [⟨.token .int, "3foo", ⟨1, 9⟩⟩] rfl (beginsSentence_iff.2 ⟨middle, reaches⟩)
      (not_beginsSentence reaches isStuck)
  · refine (ofTrees_faults _ ⟨1, 5⟩ (List.cons_ne_nil _ _)).2.1
      (beginsSentence_iff.2 ⟨_, .cons rfl (.single rfl)⟩) fun sentence => ?_
    obtain ⟨p, parsed⟩ := isSentence_iff_parses.1 sentence
    cases parsed
  · exact ((ofTrees_faults _ ⟨1, 5⟩ (List.cons_ne_nil _ _)).2.2.1
      (.ofPostfix (.rename .postfixExpr (.rename .literal (.literal .int ⟨"3foo", ⟨1, 1⟩⟩)))) rfl).2
      [] ⟨.token .int, "3foo", ⟨1, 1⟩⟩ [] _ rfl (List.forall_mem_nil _) rfl

end Expr

end AttrGrammar
