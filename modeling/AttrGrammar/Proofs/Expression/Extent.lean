import AttrGrammar.Proofs.Expression.Correctness
import AttrGrammar.Proofs.Expression.Depth

/-!
Contract: the trees up to the next comma that separates no parameters are those of an expression, where these are
an expression.

Owns:
- how the terminals of trees lie over the trees;
- a run of the parser through balanced terminals leaves as many brackets open as there were;
- what the tree in front tells about the phase of the parser outside brackets;
- the extent of an expression in front of a comma or the end.

Does not own: lists of expressions.
-/

namespace AttrGrammar

/-! ## Terminals over trees -/

/-- How terminals lie over trees: a token is one terminal, two `>` may be one, and a group is between its
brackets. -/
inductive Covers : List Tree → List Terminal → Prop where
  | nil : Covers [] []
  | token {t : Token} {later : List Tree} {ts : List Terminal} (plain : t.IsPlain)
      (behind : Covers later ts) : Covers (.token t :: later) (.ofToken t :: ts)
  | shift {t u : Token} {later : List Tree} {ts : List Terminal} {text : String}
      {position : Position} (first : t.kind = .rangle) (second : u.kind = .rangle)
      (behind : Covers later ts) :
      Covers (.token t :: .token u :: later) (⟨.shiftRight, text, position⟩ :: ts)
  | group {d : Delimiter} {opening closing : Position} {trees later : List Tree}
      {inner ts : List Terminal} {first last : Terminal}
      (isOpen : first.symbol.tokenKind = d.openKind) (isClose : last.symbol.tokenKind = d.closeKind)
      (inside : Covers trees inner) (behind : Covers later ts) :
      Covers (.group d opening closing trees :: later) (first :: inner ++ last :: ts)

namespace Delimiter

theorem openKind_ne_rangle (d : Delimiter) : d.openKind ≠ .rangle := by
  cases d <;> decide

theorem closeKind_ne_rangle (d : Delimiter) : d.closeKind ≠ .rangle := by
  cases d <;> decide

end Delimiter

namespace Terminal

theorem ofTrees_group (d : Delimiter) (opening closing : Position) (trees later : List Tree) :
    ofTrees (.group d opening closing trees :: later) =
      ofToken ⟨d.openKind, d.openText, opening, false⟩ :: ofTrees trees ++
        ofToken ⟨d.closeKind, d.closeText, closing, false⟩ :: ofTrees later := by
  have shape : Tree.flattenAll (.group d opening closing trees :: later) =
      ⟨d.openKind, d.openText, opening, false⟩ ::
        (Tree.flattenAll trees ++ ⟨d.closeKind, d.closeText, closing, false⟩ ::
          Tree.flattenAll later) := by
    simp [Tree.flattenAll, Tree.flatten]
  rw [ofTrees, shape, ofTokens_cons _ _ d.openKind_ne_rangle,
    ofTokens_append_cons _ _ d.closeKind_ne_rangle]
  rfl

theorem ofTrees_token {t : Token} {later : List Tree}
    (apart : ∀ u behind, later = .token u :: behind →
      ¬(t.kind = .rangle ∧ t.joint ∧ u.kind = .rangle)) :
    ofTrees (.token t :: later) = ofToken t :: ofTrees later := by
  show ofTokens (t :: Tree.flattenAll later) = ofToken t :: ofTokens (Tree.flattenAll later)
  match later with
  | [] => rfl
  | .token u :: behind =>
      show ofTokens (t :: u :: Tree.flattenAll behind) = _
      rw [ofTokens, if_neg (by simpa [and_assoc] using apart u behind rfl)]
      rfl
  | .group d opening closing trees :: behind =>
      show ofTokens (t :: ⟨d.openKind, d.openText, opening, false⟩ :: _) = _
      rw [ofTokens, if_neg (by simp [d.openKind_ne_rangle])]
      rfl

/-- The terminals of trees lie over them. -/
theorem covers_ofTrees : ∀ trees : List Tree, (∀ t ∈ Tree.leavesAll trees, t.IsPlain) →
    Covers trees (ofTrees trees)
  | [], _ => .nil
  | .group d opening closing trees :: later, plain => by
      have inside := covers_ofTrees trees fun t member => plain t (List.mem_append_left _ member)
      have behind := covers_ofTrees later fun t member => plain t (List.mem_append_right _ member)
      rw [ofTrees_group]
      exact .group (tokenKind_ofToken _) (tokenKind_ofToken _) inside behind
  | .token t :: later, plain => by
      obtain ⟨here, plain⟩ := List.forall_mem_cons.1 plain
      by_cases shifts : ∃ u behind, later = .token u :: behind ∧
          t.kind = .rangle ∧ t.joint ∧ u.kind = .rangle
      · obtain ⟨u, behind, shape, first, joint, second⟩ := shifts
        have plainBehind : ∀ t ∈ Tree.leavesAll behind, t.IsPlain := by
          rw [shape] at plain
          exact (List.forall_mem_cons.1 plain).2
        have covers := covers_ofTrees behind plainBehind
        have merged : ofTrees (.token t :: .token u :: behind) =
            ⟨.shiftRight, ">>", t.position⟩ :: ofTrees behind := by
          show ofTokens (t :: u :: Tree.flattenAll behind) = _
          rw [ofTokens, if_pos (by simp [first, joint, second])]
          rfl
        rw [shape, merged]
        exact .shift first second covers
      · rw [ofTrees_token fun u behind shape both => shifts ⟨u, behind, shape, both⟩]
        exact .token here (covers_ofTrees later plain)
termination_by trees => Tree.weightAll trees
decreasing_by
  · simp only [Tree.weightAll, Tree.weight]
    omega
  · simp only [Tree.weightAll, Tree.weight]
    omega
  · simp only [shape, Tree.weightAll, Tree.weight]
    omega
  · simp only [Tree.weightAll, Tree.weight]
    omega

end Terminal

namespace ExprParser

/-! ## Runs through balanced terminals -/

section Runs

variable {s target : State} {first last : Terminal} {d : Delimiter} {inner ts : List Terminal}
  {trees : List Tree}

/-- A run through a group starts outside parameters, and comes to an operand with as many brackets open, if that
within the group does. -/
theorem exists_behind_group (isOpen : first.symbol.tokenKind = d.openKind)
    (isClose : last.symbol.tokenKind = d.closeKind)
    (keeps : ∀ {s next : State}, Reaches s inner next → depth next.frames = depth s.frames)
    (reaches : Reaches s (first :: inner ++ last :: ts) target) :
    s.phase.inParams = false ∧ ∃ next, Reaches next ts target ∧
      depth next.frames = depth s.frames ∧ ∃ e, next.phase = .operand e := by
  obtain ⟨opened, takesFirst, reaches⟩ := reaches
  obtain ⟨closing, throughInner, next, takesLast, reaches⟩ := reaches_append_iff.1 reaches
  obtain ⟨outside, deeper⟩ := (turn_of_step takesFirst).of_openKind isOpen
  obtain ⟨higher, isOperand⟩ := (turn_of_step takesLast).of_closeKind isClose
  have level := keeps throughInner
  exact ⟨outside, next, reaches, by omega, isOperand⟩

/-- A run through the terminals of trees leaves as many brackets open as there were. -/
theorem depth_of_reaches (covers : Covers trees ts) :
    ∀ {s target : State}, Reaches s ts target → depth target.frames = depth s.frames := by
  induction covers with
  | nil =>
      intro s target reaches
      exact congrArg (fun s => depth s.frames) reaches.symm
  | token plain behind inductionHypothesis =>
      rintro s target ⟨next, taken, reaches⟩
      have noBracket := plain.not_isBracket
      rw [← Terminal.tokenKind_ofToken] at noBracket
      rw [inductionHypothesis reaches, ((turn_of_step taken).of_plain noBracket).1]
  | shift first second behind inductionHypothesis =>
      rintro s target ⟨next, taken, reaches⟩
      have noBracket : ¬TokenKind.rangle.IsBracket := by decide
      rw [inductionHypothesis reaches, ((turn_of_step taken).of_plain noBracket).1]
  | group isOpen isClose inside behind keeps inductionHypothesis =>
      intro s target reaches
      obtain ⟨-, next, reaches, level, -⟩ := exists_behind_group isOpen isClose keeps reaches
      rw [inductionHypothesis reaches, level]

end Runs

/-! ## What the tree in front tells -/

/-- Whether a phase is as the tree in front tells: behind the end of an operand no operand is wanted, and the other
way round. -/
def Phase.Follows (before : Option Tree) (p : Phase) : Prop :=
  (p = .start → before.any Expr.endsOperand = false) ∧
    (p.operand?.isSome → before.any Expr.endsOperand = true)

theorem Phase.follows_start {before : Option Tree} (noEnd : before.any Expr.endsOperand = false) :
    Phase.start.Follows before :=
  ⟨fun _ => noEnd, nofun⟩

theorem Phase.follows_of_inParams {p : Phase} (inside : p.inParams) (before : Option Tree) :
    p.Follows before := by
  refine ⟨?_, fun holds => ?_⟩
  · rintro rfl
    cases inside
  · rw [inParams_of_operand? holds] at inside
    cases inside

/-- Where input may end, the phase holds an operand. -/
theorem inParams_of_finish {s : State} {phrase : Phrase} (finished : finish s = .ok phrase) :
    s.phase.inParams = false := by
  obtain ⟨phase, frames⟩ := s
  unfold finish at finished
  dsimp only at finished ⊢
  split at finished <;> first | rfl | cases finished

end ExprParser

/-! ## The extent -/

namespace Expr

open ExprParser

theorem extent_le_length (trees : List Tree) :
    ∀ (inParams : Bool) (before : Option Tree), extent inParams before trees ≤ trees.length := by
  induction trees with
  | nil => exact fun _ _ => Nat.le_refl 0
  | cons tree later inductionHypothesis =>
      intro inParams before
      rw [extent, List.length_cons]
      split
      · exact Nat.succ_le_succ (inductionHypothesis _ _)
      · split
        · exact Nat.zero_le _
        · split <;> exact Nat.succ_le_succ (inductionHypothesis _ _)

section Extent

variable {before : Option Tree} {later : List Tree} {p q : Phase}

theorem extent_inParams (tree : Tree) :
    extent true before (tree :: later) = extent (!tree.isKind .pipe) (some tree) later + 1 :=
  rfl

theorem extent_openingBar {tree : Tree} (isBar : tree.isKind .pipe)
    (noEnd : before.any endsOperand = false) :
    extent false before (tree :: later) = extent true before later + 1 := by
  have notComma : tree.isComma = false := by
    cases tree with
    | token t =>
        have isKind : t.kind = .pipe := of_decide_eq_true isBar
        simp [Tree.isComma, Tree.isKind, isKind]
    | group => cases isBar
  rw [extent, if_neg Bool.false_ne_true, if_neg (by simp [notComma]), if_pos (by simp [isBar, noEnd])]

theorem extent_outside {tree : Tree} (notComma : tree.isComma = false)
    (bar : tree.isKind .pipe → before.any endsOperand = true) :
    extent false before (tree :: later) = extent false (some tree) later + 1 := by
  have noParams : ¬(tree.isKind .pipe && !before.any endsOperand) := by
    rw [Bool.and_eq_true, Bool.not_eq_true']
    rintro ⟨isBar, noEnd⟩
    rw [bar isBar] at noEnd
    cases noEnd
  rw [extent, if_neg Bool.false_ne_true, if_neg (by simp [notComma]), if_neg noParams]

/-- Behind a token other than a bar, the phase is as the token tells, and parameters neither start nor end. -/
theorem follows_of_passes {t : Token} (passes : Passes t.kind 0 p q) (notBar : t.kind ≠ .pipe) :
    q.Follows (some (.token t)) ∧ q.inParams = p.inParams ∧
      (p.inParams = false → t.kind ≠ .comma) := by
  cases passes with
  | params inside after =>
      exact ⟨Phase.follows_of_inParams after _, after.trans inside.symm,
        fun outside => absurd inside (Bool.eq_false_iff.1 outside)⟩
  | closingBar _ isBar => exact absurd isBar notBar
  | openingBar _ isBar => exact absurd isBar notBar
  | comma _ _ inBrackets => exact absurd inBrackets (Nat.lt_irrefl 0)
  | sign outside isSign =>
      obtain ⟨-, noEnd, notComma⟩ := isSign
      exact ⟨Phase.follows_start noEnd, outside.symm, fun _ => notComma⟩
  | word outside after notStart notComma _ ends =>
      exact ⟨⟨fun start => absurd start notStart, ends⟩, after.trans outside.symm,
        fun _ => notComma⟩

theorem extent_other {t : Token} {inParams : Bool} (notBar : t.kind ≠ .pipe)
    (notComma : inParams = false → t.kind ≠ .comma) :
    extent inParams before (.token t :: later) =
      extent inParams (some (.token t)) later + 1 := by
  have noBar : (Tree.token t).isKind .pipe = false := decide_eq_false notBar
  cases inParams with
  | true => rw [extent_inParams, noBar, Bool.not_false]
  | false =>
      refine extent_outside (decide_eq_false (notComma rfl)) fun isBar => ?_
      rw [noBar] at isBar
      cases isBar

/-- Collecting the tree of a token outside brackets keeps to the parser. -/
theorem extent_token (later : List Tree) {t : Token} (passes : Passes t.kind 0 p q)
    (follows : p.Follows before) :
    ∃ behind, q.Follows behind ∧
      extent p.inParams before (.token t :: later) = extent q.inParams behind later + 1 := by
  by_cases isBar : t.kind = .pipe
  · have noEnd : (some (Tree.token t)).any endsOperand = false := by
      simp [endsOperand, isBar, TokenKind.isLiteral]
    have bar : (Tree.token t).isKind .pipe := decide_eq_true isBar
    cases passes with
    | params _ _ other => exact absurd isBar other
    | closingBar inside =>
        refine ⟨some (.token t), Phase.follows_start noEnd, ?_⟩
        rw [inside, extent_inParams, bar]
        rfl
    | openingBar after =>
        refine ⟨before, Phase.follows_of_inParams after _, ?_⟩
        rw [after]
        exact extent_openingBar bar (follows.1 rfl)
    | comma _ _ inBrackets => exact absurd inBrackets (Nat.lt_irrefl 0)
    | sign outside isSign holds =>
        refine ⟨some (.token t), Phase.follows_start noEnd, ?_⟩
        rw [outside]
        exact extent_outside (decide_eq_false isSign.2.2) fun _ => follows.2 (holds isBar)
    | word _ _ _ _ notBar => exact absurd isBar notBar
  · obtain ⟨follows', sameParams, notComma⟩ := follows_of_passes passes isBar
    refine ⟨some (.token t), follows', ?_⟩
    rw [sameParams]
    exact extent_other isBar notComma

/-- Whether an expression ends in front of trees: there are none, or a comma is the first. -/
def Stops : List Tree → Prop
  | [] => True
  | tree :: _ => tree.isComma

theorem extent_of_stops {rest : List Tree} (stops : Stops rest) :
    extent false before rest = 0 := by
  match rest, stops with
  | [], _ => rfl
  | tree :: later, stops =>
      have isComma : tree.isComma := stops
      rw [extent, if_neg Bool.false_ne_true, if_pos isComma]

/-- Collecting the trees of an expression keeps to a run of the parser that starts outside brackets. -/
theorem extent_of_reaches {trees rest : List Tree} {ts : List Terminal} (covers : Covers trees ts)
    (stops : Stops rest) {target : State} {phrase : Phrase} (finished : finish target = .ok phrase) :
    ∀ {s : State} {before : Option Tree}, depth s.frames = 0 → s.phase.Follows before →
      Reaches s ts target → extent s.phase.inParams before (trees ++ rest) = trees.length := by
  -- Over all states outside brackets: behind each tree of the level the parser is outside again.
  induction covers with
  | nil =>
      rintro s before - - rfl
      rw [inParams_of_finish finished]
      exact extent_of_stops stops
  | @token t later ts plain behind inductionHypothesis =>
      rintro s before level follows ⟨next, taken, reaches⟩
      have noBracket := plain.not_isBracket
      rw [← Terminal.tokenKind_ofToken] at noBracket
      obtain ⟨sameLevel, passes⟩ := (turn_of_step taken).of_plain noBracket
      rw [Terminal.tokenKind_ofToken, level] at passes
      obtain ⟨before', follows', sameExtent⟩ := extent_token (later ++ rest) passes follows
      have remaining := inductionHypothesis (sameLevel.trans level) follows' reaches
      rw [List.cons_append, sameExtent, remaining, List.length_cons]
  | @shift t u later ts text position first second behind inductionHypothesis =>
      rintro s before level follows ⟨next, taken, reaches⟩
      -- The parser takes both trees in one step, and neither of them is a bar or a comma.
      have noBracket : ¬TokenKind.rangle.IsBracket := by decide
      obtain ⟨sameLevel, passes⟩ := (turn_of_step taken).of_plain noBracket
      have passes : Passes u.kind 0 s.phase next.phase := by
        rw [second, ← level]
        exact passes
      have notBar {v : Token} (isRangle : v.kind = .rangle) : v.kind ≠ .pipe := by
        rw [isRangle]
        decide
      have notComma {v : Token} (isRangle : v.kind = .rangle) : v.kind ≠ .comma := by
        rw [isRangle]
        decide
      obtain ⟨follows', sameParams, -⟩ := follows_of_passes passes (notBar second)
      have remaining := inductionHypothesis (sameLevel.trans level) follows' reaches
      rw [sameParams] at remaining
      rw [List.cons_append, extent_other (notBar first) fun _ => notComma first, List.cons_append,
        extent_other (notBar second) fun _ => notComma second, remaining]
      rfl
  | @group d opening closing trees later inner ts first last isOpen isClose inside behind _
      inductionHypothesis =>
      intro s before level follows reaches
      -- Bars and commas within the group are hidden: the group is one tree that ends an operand.
      obtain ⟨outside, next, reaches, sameLevel, e, phase⟩ :=
        exists_behind_group isOpen isClose (depth_of_reaches inside) reaches
      have follows' : next.phase.Follows (some (.group d opening closing trees)) := by
        rw [phase]
        exact ⟨nofun, fun _ => rfl⟩
      have remaining := inductionHypothesis (sameLevel.trans level) follows' reaches
      rw [phase] at remaining
      have notBar : (Tree.group d opening closing trees).isKind .pipe = false := rfl
      rw [outside, List.cons_append,
        extent_outside rfl fun isBar => absurd isBar (Bool.eq_false_iff.1 notBar)]
      exact congrArg (· + 1) remaining

end Extent

variable {trees : List Tree} {finish : Position} {e : Expr Literal}

/-- Trees that are read as an expression belong to it, up to a comma behind them or the end. -/
theorem extent_of_ofTrees {rest : List Tree} (plain : ∀ t ∈ Tree.leavesAll trees, t.IsPlain)
    (read : ofTrees trees finish = .ok e) (stops : Stops rest) :
    extent false none (trees ++ rest) = trees.length := by
  obtain ⟨d, sameTerminals, -⟩ := ofTrees_eq_ok_iff.1 read
  have parsed := d.parseTerminals_eq
  rw [sameTerminals] at parsed
  obtain ⟨target, reaches, finished⟩ := run_eq_ok_iff.1 parsed
  have covers := Terminal.covers_ofTrees trees plain
  exact extent_of_reaches covers stops finished depth_nil (Phase.follows_start rfl) reaches

/-- The place where trees end does not matter to the expression. -/
theorem ofTrees_of_finish (read : ofTrees trees finish = .ok e) (finish' : Position) :
    ofTrees trees finish' = .ok e :=
  ofTrees_eq_ok_iff.2 (ofTrees_eq_ok_iff.1 read)

theorem ne_nil_of_ofTrees (read : ofTrees trees finish = .ok e) : trees ≠ [] := by
  rintro rfl
  cases read

end Expr

end AttrGrammar
