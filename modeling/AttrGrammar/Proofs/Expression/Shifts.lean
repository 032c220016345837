import Mathlib.Data.List.Chain
import Mathlib.Data.List.Forall2
import Mathlib.Data.List.Nodup
import AttrGrammar.Proofs.Lexing.Layout
import AttrGrammar.Proofs.Trees.RoundTrip

/-!
Contract: the shifts to the right in the terminals of a source are those that maximal munch finds.

Owns:
- tokens that stand side by side: a `>` is joint with a `>` behind it exactly if this is in the next column;
- the levels of trees, of which every part has consecutive tokens of the source;
- the tokens that each terminal spans;
- maximal munch, the runs of `>` in tokens, and what maximal munch makes of these runs.

Does not own: which shifts an expression can have.
-/

namespace AttrGrammar

open Lexer

/-! ## Side by side -/

/-- Whether a place is one column behind another one, in the same line. -/
def Position.IsNext (p q : Position) : Prop :=
  q.line = p.line ∧ q.column = p.column + 1

theorem Position.isNext_iff {p q : Position} : p.IsNext q ↔ q = p.next '>' := by
  obtain ⟨line, column⟩ := q
  simp [IsNext, next]

/-- Whether a token tells if the one behind it stands beside it, where both are `>`. -/
def Token.TellsNext (t u : Token) : Prop :=
  t.kind = .rangle → u.kind = .rangle → (t.joint ↔ t.position.IsNext u.position)

namespace Lexer

/-- Where the first token is a `>`, the rest of a source starts with it unless a gap comes first. -/
theorem Lexed.head?_eq_angle_iff {start : Position} {cs : List Char} {u : Token} {later : List Token}
    (lexed : Lexed start cs (u :: later)) (isAngle : u.kind = .rangle) :
    cs.head? = some '>' ↔ u.position = start := by
  cases lexed with
  | finish => cases isAngle
  | @token _ gap c more kind length _ isGap scanned rest =>
      obtain rfl : kind = .rangle := isAngle
      obtain ⟨rfl, -⟩ := eq_rangle_of_scan scanned
      constructor
      · intro first
        cases gap with
        | nil => rfl
        | cons d gap =>
            obtain rfl := Option.some.inj first
            have noGap : gapLength false ('>' :: (gap ++ '>' :: more)) = 0 := rfl
            rw [List.cons_append, noGap] at isGap
            cases isGap
      · intro same
        have noGap : gap = [] := by
          refine Classical.byContradiction fun some => ?_
          have strict := start.before_after some
          rw [show start.after gap = start from same] at strict
          unfold Position.Before at strict
          omega
        rw [noGap]
        rfl

/-- The `>` of a source tell where the next token stands. -/
theorem Lexed.tellsNext {start : Position} {cs : List Char} {tokens : List Token}
    (lexed : Lexed start cs tokens) : tokens.IsChain Token.TellsNext := by
  induction lexed with
  | finish => exact List.isChain_singleton _
  | @token start gap c more kind length tokens isGap scanned rest inductionHypothesis =>
      refine inductionHypothesis.cons fun u isFirst isAngle isAngleBehind => ?_
      obtain rfl : kind = .rangle := isAngle
      obtain ⟨rfl, none⟩ := eq_rangle_of_scan scanned
      obtain ⟨later, rfl⟩ := List.head?_eq_some_iff.1 isFirst
      rw [none] at rest
      simpa [tokenAt, Position.isNext_iff] using rest.head?_eq_angle_iff isAngleBehind

end Lexer

theorem Token.IsScanned.text_of_rangle {t : Token} (isScanned : t.IsScanned) (isAngle : t.kind = .rangle) :
    t.text = ">" := by
  obtain ⟨c, more, kind, length, scanned, same⟩ := isScanned
  obtain rfl : kind = .rangle := by rw [← isAngle, same]; rfl
  obtain ⟨rfl, none⟩ := eq_rangle_of_scan scanned
  rw [same, none]
  rfl

/-! ## Parts of levels -/

/-- Whether trees are a level of others: all of these, or the trees in a group of a level. -/
inductive Tree.IsLevel (trees : List Tree) : List Tree → Prop where
  | all : IsLevel trees trees
  | inside {level inner : List Tree} {d : Delimiter} {opening closing : Position} (outer : IsLevel trees level)
      (isGroup : Tree.group d opening closing inner ∈ level) : IsLevel trees inner

namespace Tree

theorem flattenAll_infix {part trees : List Tree} (isPart : part <:+: trees) :
    flattenAll part <:+: flattenAll trees := by
  obtain ⟨front, back, rfl⟩ := isPart
  exact ⟨flattenAll front, flattenAll back, by simp⟩

/-- The trees of a level are flattened to consecutive tokens. -/
theorem IsLevel.flattenAll_infix {trees level : List Tree} (isLevel : IsLevel trees level) :
    flattenAll level <:+: flattenAll trees := by
  induction isLevel with
  | all => exact List.infix_rfl
  | @inside level inner d opening closing outer isGroup inductionHypothesis =>
      have inGroup : flattenAll inner <:+: (group d opening closing inner).flatten :=
        ⟨[⟨d.openKind, d.openText, opening, false⟩], [⟨d.closeKind, d.closeText, closing, false⟩], rfl⟩
      have alone : [group d opening closing inner] <:+: level := by
        obtain ⟨front, back, rfl⟩ := List.append_of_mem isGroup
        exact ⟨front, back, by simp⟩
      have inLevel := Tree.flattenAll_infix alone
      rw [flattenAll, flattenAll, List.append_nil] at inLevel
      exact (inGroup.trans inLevel).trans inductionHypothesis

end Tree

/-- What the `>` among consecutive tokens of a source are like. -/
structure Token.AnglesTell (tokens : List Token) : Prop where
  text_eq : ∀ t ∈ tokens, t.kind = .rangle → t.text = ">"
  tellsNext : tokens.IsChain Token.TellsNext

namespace Token.AnglesTell

variable {tokens : List Token}

theorem of_infix {part : List Token} (tell : AnglesTell tokens) (isPart : part <:+: tokens) : AnglesTell part where
  text_eq t member := tell.text_eq t (isPart.subset member)
  tellsNext := tell.tellsNext.infix isPart

theorem tail {t : Token} (tell : AnglesTell (t :: tokens)) : AnglesTell tokens :=
  tell.of_infix (List.suffix_cons t tokens).isInfix

/-- Of two `>` in a row, the first one is joint exactly if the second one stands beside it. -/
theorem joint_iff {t u : Token} (tell : AnglesTell (t :: u :: tokens)) (first : t.kind = .rangle)
    (second : u.kind = .rangle) : t.joint ↔ t.position.IsNext u.position :=
  (List.isChain_cons_cons.1 tell.tellsNext).1 first second

end Token.AnglesTell

theorem anglesTell_of_treesOf {source : String} {trees level part : List Tree} {finish : Position}
    (isRead : treesOf source = .ok (trees, finish)) (isLevel : Tree.IsLevel trees level)
    (isPart : part <:+: level) : Token.AnglesTell (Tree.flattenAll part) := by
  obtain ⟨lexed, areScanned, -⟩ := flattenAll_of_treesOf isRead
  have ofSource : Token.AnglesTell (Tree.flattenAll trees) :=
    ⟨fun t member => (areScanned t member).text_of_rangle, lexed.tellsNext.left_of_append⟩
  exact ofSource.of_infix ((Tree.flattenAll_infix isPart).trans isLevel.flattenAll_infix)

/-! ## Tokens under terminals -/

namespace Terminal

/-- Whether a terminal spans some tokens: one token, or for a shift two `>` side by side. -/
inductive Spans : Terminal → List Token → Prop where
  | token (t : Token) : Spans (ofToken t) [t]
  | shift {t u : Token} (first : t.kind = .rangle) (second : u.kind = .rangle)
      (beside : t.position.IsNext u.position) : Spans ⟨.shiftRight, ">>", t.position⟩ [t, u]

variable {tokens : List Token}

/-- The terminals of tokens span them all, in order. -/
theorem exists_spans (tell : Token.AnglesTell tokens) :
    ∃ blocks, tokens = blocks.flatten ∧ List.Forall₂ Spans (ofTokens tokens) blocks := by
  fun_induction ofTokens tokens with
  | case1 t u later isShift inductionHypothesis =>
      obtain ⟨⟨first, joint⟩, second⟩ : (t.kind = .rangle ∧ t.joint) ∧ u.kind = .rangle := by
        simpa using isShift
      obtain ⟨blocks, rfl, spans⟩ := inductionHypothesis tell.tail.tail
      exact ⟨[t, u] :: blocks, rfl, .cons (.shift first second ((tell.joint_iff first second).1 joint)) spans⟩
  | case2 t u later noShift inductionHypothesis =>
      obtain ⟨blocks, same, spans⟩ := inductionHypothesis tell.tail
      exact ⟨[t] :: blocks, by rw [same]; rfl, .cons (.token t) spans⟩
  | case3 t => exact ⟨[[t]], rfl, .cons (.token t) .nil⟩
  | case4 => exact ⟨[], rfl, .nil⟩

/-- The text of the terminals is that of the tokens. -/
theorem flatMap_text_ofTokens (tell : Token.AnglesTell tokens) :
    (ofTokens tokens).flatMap (fun t => t.text.toList) = tokens.flatMap fun t => t.text.toList := by
  fun_induction ofTokens tokens with
  | case1 t u later isShift inductionHypothesis =>
      obtain ⟨⟨first, -⟩, second⟩ : (t.kind = .rangle ∧ t.joint) ∧ u.kind = .rangle := by simpa using isShift
      simp [inductionHypothesis tell.tail.tail, tell.text_eq t (by simp) first, tell.text_eq u (by simp) second]
  | case2 t u later noShift inductionHypothesis =>
      rw [List.flatMap_cons, inductionHypothesis tell.tail, List.flatMap_cons]
      rfl
  | case3 t => rfl
  | case4 => rfl

theorem ofTokens_cons_of_apart {t : Token} (apart : ∀ u ∈ tokens.head?, ¬(t.joint ∧ u.kind = .rangle)) :
    ofTokens (t :: tokens) = ofToken t :: ofTokens tokens := by
  cases tokens with
  | nil => rfl
  | cons u later =>
      have noShift := apart u rfl
      rw [ofTokens, if_neg (by simpa [and_assoc] using fun _ => not_and.1 noShift)]

theorem ofTokens_of_shift {t u : Token} (first : t.kind = .rangle) (joint : t.joint) (second : u.kind = .rangle) :
    ofTokens (t :: u :: tokens) = ⟨.shiftRight, ">>", t.position⟩ :: ofTokens tokens := by
  rw [ofTokens, if_pos (by simp [first, joint, second])]

/-- The first terminal is the first token, or a shift. -/
theorem head?_ofTokens_cons (u : Token) :
    ∀ v ∈ (ofTokens (u :: tokens)).head?, v = ofToken u ∨ v.symbol = .shiftRight := by
  intro v isFirst
  cases tokens with
  | nil => exact .inl (Option.some.inj isFirst).symm
  | cons w later =>
      rw [ofTokens] at isFirst
      split at isFirst
      · exact .inr (congrArg symbol (Option.some.inj isFirst).symm)
      · exact .inl (Option.some.inj isFirst).symm

theorem kind_of_symbol {t : Token} (isAngle : (ofToken t).symbol = .token .rangle) : t.kind = .rangle := by
  rw [← tokenKind_ofToken t, isAngle]
  rfl

/-- No two `>` that are terminals by themselves stand side by side. -/
theorem isChain_ofTokens (tell : Token.AnglesTell tokens) : (ofTokens tokens).IsChain fun t u =>
    ¬(t.symbol = .token .rangle ∧ u.symbol = .token .rangle ∧ t.position.IsNext u.position) := by
  fun_induction ofTokens tokens with
  | case1 t u later isShift inductionHypothesis =>
      refine (inductionHypothesis tell.tail.tail).cons fun v isFirst sideBySide => ?_
      cases sideBySide.1
  | case2 t u later noShift inductionHypothesis =>
      refine (inductionHypothesis tell.tail).cons fun v isFirst sideBySide => ?_
      obtain ⟨first, second, beside⟩ := sideBySide
      rcases head?_ofTokens_cons u v isFirst with rfl | isShift
      · have isAngle := kind_of_symbol first
        have isAngleBehind := kind_of_symbol second
        have joint := (tell.joint_iff isAngle isAngleBehind).2 beside
        exact noShift (by simp [isAngle, joint, isAngleBehind])
      · cases isShift.symm.trans second
  | case3 t => exact List.isChain_singleton _
  | case4 => exact List.isChain_nil

end Terminal

/-! ## Maximal munch -/

/-- The spellings of a lexer for which a shift to the right is one token: those of all kinds that have one, and
`>>`. -/
def Symbol.spellings : List (List Char × Symbol) :=
  (['>', '>'], .shiftRight) ::
    (TokenKind.all.filter fun kind => kind.spelling ≠ []).map fun kind => (kind.spelling, .token kind)

/-- Whether terminals are what maximal munch makes of characters from a place on: each one is the longest spelling
that the rest of the characters starts with. -/
inductive Munches : Position → List Char → List Terminal → Prop where
  | nil {p : Position} : Munches p [] []
  | cons {p : Position} {spelling later : List Char} {symbol : Symbol} {ts : List Terminal}
      (isSpelling : (spelling, symbol) ∈ Symbol.spellings)
      (longest : ∀ other ∈ Symbol.spellings, other.1 <+: spelling ++ later → other.1.length ≤ spelling.length)
      (behind : Munches (p.after spelling) later ts) :
      Munches p (spelling ++ later) (⟨symbol, String.ofList spelling, p⟩ :: ts)

namespace Symbol

theorem spelling_ne_nil : ∀ s ∈ spellings, s.1 ≠ [] := by
  decide

theorem symbol_unique {spelling : List Char} {s s' : Symbol} (first : (spelling, s) ∈ spellings)
    (second : (spelling, s') ∈ spellings) : s = s' := by
  have distinct : (spellings.map Prod.fst).Nodup := by decide
  exact congrArg Prod.snd (List.inj_on_of_nodup_map distinct first second rfl)

end Symbol

namespace Munches

variable {p : Position} {cs : List Char} {ts us : List Terminal}

/-- Maximal munch leaves no choice. -/
theorem unique (first : Munches p cs ts) (second : Munches p cs us) : ts = us := by
  induction first generalizing us with
  | nil =>
      generalize shape : ([] : List Char) = cs at second
      cases second with
      | nil => rfl
      | cons isSpelling =>
          exact absurd (List.append_eq_nil_iff.1 shape.symm).1 (Symbol.spelling_ne_nil _ isSpelling)
  | @cons p spelling later symbol ts isSpelling longest behind inductionHypothesis =>
      generalize shape : spelling ++ later = cs at second
      cases second with
      | nil => exact absurd (List.append_eq_nil_iff.1 shape).1 (Symbol.spelling_ne_nil _ isSpelling)
      | @cons _ spelling' later' symbol' us isSpelling' longest' behind' =>
          have atMost := longest _ isSpelling' (shape ▸ List.prefix_append ..)
          have atLeast := longest' _ isSpelling (shape ▸ List.prefix_append ..)
          obtain ⟨rfl, rfl⟩ := List.append_inj shape (Nat.le_antisymm atLeast atMost)
          rw [Symbol.symbol_unique isSpelling isSpelling', inductionHypothesis behind']

/-- A single `>` is all that there is. -/
theorem angle (p : Position) : Munches p ['>'] [⟨.token .rangle, ">", p⟩] :=
  @cons p ['>'] [] (.token .rangle) [] (by decide) (fun _ _ isPrefix => isPrefix.length_le) .nil

/-- Nothing is longer than a shift. -/
theorem shift (behind : Munches ⟨p.line, p.column + 2⟩ cs ts) :
    Munches p ('>' :: '>' :: cs) (⟨.shiftRight, ">>", p⟩ :: ts) := by
  have atMostTwo : ∀ s ∈ Symbol.spellings, s.1.length ≤ 2 := by decide
  exact @cons p ['>', '>'] cs .shiftRight ts (by decide) (fun other member _ => atMostTwo other member) behind

end Munches

/-! ## Runs -/

/-- Whether tokens are a run of `>`, each of which stands beside the one in front of it. -/
structure Token.IsRun (tokens : List Token) : Prop where
  angles : ∀ t ∈ tokens, t.kind = .rangle
  beside : tokens.IsChain fun t u => t.position.IsNext u.position

namespace Token.IsRun

variable {t u : Token} {run : List Token}

theorem of_infix {part : List Token} (isRun : IsRun run) (isPart : part <:+: run) : IsRun part where
  angles t member := isRun.angles t (isPart.subset member)
  beside := isRun.beside.infix isPart

theorem single (isAngle : t.kind = .rangle) : IsRun [t] where
  angles := by simpa using isAngle
  beside := List.isChain_singleton t

theorem cons_cons_iff :
    IsRun (t :: u :: run) ↔ t.kind = .rangle ∧ t.position.IsNext u.position ∧ IsRun (u :: run) := by
  constructor
  · intro isRun
    exact ⟨isRun.angles t (by simp), (List.isChain_cons_cons.1 isRun.beside).1,
      isRun.of_infix (List.suffix_cons t _).isInfix⟩
  · rintro ⟨isAngle, beside, isRun⟩
    exact ⟨List.forall_mem_cons.2 ⟨isAngle, isRun.angles⟩, List.isChain_cons_cons.2 ⟨beside, isRun.beside⟩⟩

/-- A `>` starts a run that goes as far as it can. -/
theorem exists_longest (isAngle : t.kind = .rangle) (tokens : List Token) :
    ∃ run later, tokens = run ++ later ∧ IsRun (t :: run) ∧ ∀ u ∈ later.head?, ¬IsRun (t :: (run ++ [u])) := by
  induction tokens generalizing t with
  | nil => exact ⟨[], [], rfl, single isAngle, by simp⟩
  | cons u tokens inductionHypothesis =>
      by_cases goesOn : u.kind = .rangle ∧ t.position.IsNext u.position
      · obtain ⟨isAngleBehind, beside⟩ := goesOn
        obtain ⟨run, later, rfl, isRun, longest⟩ := inductionHypothesis isAngleBehind
        refine ⟨u :: run, later, rfl, cons_cons_iff.2 ⟨isAngle, beside, isRun⟩, fun v isFirst longer => ?_⟩
        exact longest v isFirst (cons_cons_iff.1 longer).2.2
      · refine ⟨[], u :: tokens, rfl, single isAngle, fun v isFirst longer => goesOn ?_⟩
        obtain rfl := Option.some.inj isFirst
        exact ⟨longer.angles u (by simp), (cons_cons_iff.1 longer).2.1⟩

/-- There is one longest run. -/
theorem longest_unique {run' later later' : List Token} (isRun : IsRun (t :: run)) (isRun' : IsRun (t :: run'))
    (longest : ∀ u ∈ later.head?, ¬IsRun (t :: (run ++ [u])))
    (longest' : ∀ u ∈ later'.head?, ¬IsRun (t :: (run' ++ [u]))) (same : run ++ later = run' ++ later') :
    run = run' ∧ later = later' := by
  have noMore {run more later : List Token} (isRun : IsRun (t :: (run ++ more)))
      (longest : ∀ u ∈ (more ++ later).head?, ¬IsRun (t :: (run ++ [u]))) : more = [] := by
    cases more with
    | nil => rfl
    | cons u more =>
        refine absurd (isRun.of_infix ?_) (longest u rfl)
        exact ⟨[], more, by simp⟩
  rcases List.append_eq_append_iff.1 same with ⟨more, rfl, rfl⟩ | ⟨more, rfl, rfl⟩
  · obtain rfl := noMore isRun' longest
    simp
  · obtain rfl := noMore isRun longest'
    simp

end Token.IsRun

/-- Whether terminals are those of tokens of which every run of `>` is read again by maximal munch. -/
inductive Munched : List Token → List Terminal → Prop where
  | nil : Munched [] []
  | other {t : Token} {later : List Token} {ts : List Terminal} (noAngle : t.kind ≠ .rangle)
      (behind : Munched later ts) : Munched (t :: later) (.ofToken t :: ts)
  | run {t : Token} {run later : List Token} {ts us : List Terminal} (isRun : Token.IsRun (t :: run))
      (longest : ∀ u ∈ later.head?, ¬Token.IsRun (t :: (run ++ [u])))
      (munches : Munches t.position ((t :: run).flatMap fun t => t.text.toList) ts)
      (behind : Munched later us) : Munched (t :: (run ++ later)) (ts ++ us)

theorem Munched.unique {tokens : List Token} {ts us : List Terminal} (first : Munched tokens ts)
    (second : Munched tokens us) : ts = us := by
  induction first generalizing us with
  | nil => cases second; rfl
  | other noAngle behind inductionHypothesis =>
      cases second with
      | other _ behind' => rw [inductionHypothesis behind']
      | run isRun => exact absurd (isRun.angles _ List.mem_cons_self) noAngle
  | @run t run later ts us isRun longest munches behind inductionHypothesis =>
      generalize shape : t :: (run ++ later) = tokens at second
      cases second with
      | nil => cases shape
      | other noAngle =>
          obtain ⟨rfl, -⟩ := List.cons.inj shape
          exact absurd (isRun.angles _ List.mem_cons_self) noAngle
      | run isRun' longest' munches' behind' =>
          obtain ⟨rfl, same⟩ := List.cons.inj shape
          obtain ⟨rfl, rfl⟩ := isRun.longest_unique isRun' longest longest' same
          rw [munches.unique munches', inductionHypothesis behind']

namespace Terminal

open Token

/-- The terminals of a run are taken two by two, as far as they go. -/
theorem ofTokens_run : ∀ {t : Token} {run later : List Token}, AnglesTell (t :: (run ++ later)) →
    IsRun (t :: run) → (∀ u ∈ later.head?, ¬IsRun (t :: (run ++ [u]))) →
      ∃ ts, Munches t.position ((t :: run).flatMap fun t => t.text.toList) ts ∧
        ofTokens (t :: (run ++ later)) = ts ++ ofTokens later
  | t, [], later, tell, isRun, longest => by
      have isAngle := isRun.angles t List.mem_cons_self
      have apart : ∀ u ∈ later.head?, ¬(t.joint ∧ u.kind = .rangle) := by
        rintro u isFirst ⟨joint, isAngleBehind⟩
        obtain ⟨more, rfl⟩ := List.head?_eq_some_iff.1 isFirst
        have isNext := (tell.joint_iff isAngle isAngleBehind).1 joint
        exact longest u rfl (IsRun.cons_cons_iff.2 ⟨isAngle, isNext, .single isAngleBehind⟩)
      have text : t.text = ">" := tell.text_eq t List.mem_cons_self isAngle
      have alone : ofToken t = ⟨.token .rangle, ">", t.position⟩ := by
        simp [ofToken, Symbol.ofToken, isAngle, text]
      refine ⟨[ofToken t], ?_, ofTokens_cons_of_apart apart⟩
      rw [alone, List.flatMap_singleton, text]
      exact .angle t.position
  | t, [u], later, tell, isRun, _ => by
      obtain ⟨isAngle, isNext, isRunBehind⟩ := IsRun.cons_cons_iff.1 isRun
      have isAngleBehind := isRunBehind.angles u List.mem_cons_self
      have joint := (tell.joint_iff isAngle isAngleBehind).2 isNext
      refine ⟨[⟨.shiftRight, ">>", t.position⟩], ?_, ?_⟩
      · simpa [tell.text_eq t (by simp) isAngle, tell.text_eq u (by simp) isAngleBehind] using Munches.shift .nil
      · exact ofTokens_of_shift isAngle joint isAngleBehind
  | t, u :: v :: run, later, tell, isRun, longest => by
      obtain ⟨isAngle, isNext, isRunBehind⟩ := IsRun.cons_cons_iff.1 isRun
      obtain ⟨isAngleBehind, isNextBehind, isRunRest⟩ := IsRun.cons_cons_iff.1 isRunBehind
      have joint := (tell.joint_iff isAngle isAngleBehind).2 isNext
      obtain ⟨ts, munches, same⟩ := @ofTokens_run v run later tell.tail.tail isRunRest fun w isFirst longer =>
        longest w isFirst (IsRun.cons_cons_iff.2 ⟨isAngle, isNext,
          IsRun.cons_cons_iff.2 ⟨isAngleBehind, isNextBehind, longer⟩⟩)
      -- What is behind the shift is a run by itself, and maximal munch goes on two columns behind the start.
      have place : v.position = ⟨t.position.line, t.position.column + 2⟩ := by
        rw [Position.isNext_iff.1 isNextBehind, Position.isNext_iff.1 isNext]
        rfl
      rw [place] at munches
      refine ⟨⟨.shiftRight, ">>", t.position⟩ :: ts, ?_, ?_⟩
      · simpa [tell.text_eq t (by simp) isAngle, tell.text_eq u (by simp) isAngleBehind] using munches.shift
      · exact (ofTokens_of_shift isAngle joint isAngleBehind).trans (congrArg _ same)

/-- Of tokens whose `>` tell where the next token stands, the terminals are those of maximal munch. -/
theorem munched_ofTokens : ∀ tokens : List Token, AnglesTell tokens → Munched tokens (ofTokens tokens)
  | [], _ => .nil
  | t :: later, tell => by
      by_cases isAngle : t.kind = .rangle
      · -- A whole run is taken at once, so that the recursion is on the number of tokens.
        obtain ⟨run, behind, split, isRun, longest⟩ := IsRun.exists_longest isAngle later
        have shorter : behind.length < (t :: later).length := by
          rw [split, List.length_cons, List.length_append]
          omega
        rw [split] at tell ⊢
        obtain ⟨ts, munches, same⟩ := ofTokens_run tell isRun longest
        rw [same]
        exact .run isRun longest munches (munched_ofTokens behind (tell.of_infix ⟨t :: run, [], by simp⟩))
      · rw [ofTokens_cons t later isAngle]
        exact .other isAngle (munched_ofTokens later tell.tail)
termination_by tokens => tokens.length

end Terminal

/-! ## Sources -/

/-- The terminals of every part of a level of a source have the texts of its tokens, in order. Each of them spans one
token, or, if it is a shift, two `>` side by side; no two `>` side by side are left as terminals by themselves; and the
terminals are those, and only those, that maximal munch makes of the runs of `>` where `>>` is a token. -/
theorem terminals_of_part {source : String} {trees level part : List Tree} {finish : Position}
    (isRead : treesOf source = .ok (trees, finish)) (isLevel : Tree.IsLevel trees level)
    (isPart : part <:+: level) :
    ((Terminal.ofTrees part).flatMap fun t => t.text.toList) =
        ((Tree.flattenAll part).flatMap fun t => t.text.toList) ∧
      (∃ blocks, Tree.flattenAll part = blocks.flatten ∧
        List.Forall₂ Terminal.Spans (Terminal.ofTrees part) blocks) ∧
      ((Terminal.ofTrees part).IsChain fun t u =>
        ¬(t.symbol = .token .rangle ∧ u.symbol = .token .rangle ∧ t.position.IsNext u.position)) ∧
      ∀ ts, Munched (Tree.flattenAll part) ts ↔ ts = Terminal.ofTrees part := by
  have tell := anglesTell_of_treesOf isRead isLevel isPart
  refine ⟨Terminal.flatMap_text_ofTokens tell, Terminal.exists_spans tell, Terminal.isChain_ofTokens tell,
    fun ts => ⟨fun munched => munched.unique (Terminal.munched_ofTokens _ tell), ?_⟩⟩
  rintro rfl
  exact Terminal.munched_ofTokens _ tell

/-- The trees in the group of `[>>>>=]`. -/
def angleTrees : List Tree :=
  [.token ⟨.rangle, ">", ⟨1, 2⟩, true⟩, .token ⟨.rangle, ">", ⟨1, 3⟩, true⟩, .token ⟨.rangle, ">", ⟨1, 4⟩, true⟩,
    .token ⟨.greaterEq, ">=", ⟨1, 5⟩, false⟩]

/-- Three `>` in front of `>=` in a group: a shift and a `>`, or, behind the first one, a shift. -/
theorem terminals_of_part_group :
    let trees := [Tree.group .bracket ⟨1, 1⟩ ⟨1, 7⟩ angleTrees]
    treesOf "[>>>>=]" = .ok (trees, ⟨1, 8⟩) ∧ Tree.IsLevel trees angleTrees ∧
      (∀ ts, Munched (Tree.flattenAll angleTrees) ts ↔ ts =
        [⟨.shiftRight, ">>", ⟨1, 2⟩⟩, ⟨.token .rangle, ">", ⟨1, 4⟩⟩, ⟨.token .greaterEq, ">=", ⟨1, 5⟩⟩]) ∧
      angleTrees.tail <:+: angleTrees ∧
      ∀ ts, Munched (Tree.flattenAll angleTrees.tail) ts ↔ ts =
        [⟨.shiftRight, ">>", ⟨1, 3⟩⟩, ⟨.token .greaterEq, ">=", ⟨1, 5⟩⟩] := by
  intro trees
  have lexed : Lexed .start "[>>>>=]".toList (Tree.flattenAll trees ++ [Token.atEnd ⟨1, 8⟩]) := by
    refine @Lexed.token _ [] '[' ['>', '>', '>', '>', '=', ']'] .lbracket 0 _ rfl rfl ?_
    refine @Lexed.token _ [] '>' ['>', '>', '>', '=', ']'] .rangle 0 _ rfl rfl ?_
    refine @Lexed.token _ [] '>' ['>', '>', '=', ']'] .rangle 0 _ rfl rfl ?_
    refine @Lexed.token _ [] '>' ['>', '=', ']'] .rangle 0 _ rfl rfl ?_
    refine @Lexed.token _ [] '>' ['=', ']'] .greaterEq 1 _ rfl rfl ?_
    exact @Lexed.token _ [] ']' [] .rbracket 0 _ rfl rfl (.finish rfl)
  have isRead : treesOf "[>>>>=]" = .ok (trees, ⟨1, 8⟩) := treesOf_eq_ok_iff_lexed.2 ⟨lexed, by decide⟩
  have isLevel : Tree.IsLevel trees angleTrees := .inside .all List.mem_cons_self
  have isPart : angleTrees.tail <:+: angleTrees := (List.tail_suffix _).isInfix
  exact ⟨isRead, isLevel, (terminals_of_part isRead isLevel List.infix_rfl).2.2.2, isPart,
    (terminals_of_part isRead isLevel isPart).2.2.2⟩

end AttrGrammar
