import AttrGrammar.Proofs.Reading.Walks

/-!
Contract: where readers fail, and with what.

Owns:
- what is known of the tokens ahead, with the places that may be reported and the failures that may arise;
- readers that fail only so and stay among such tokens, and the rules by which they are put together;
- that the readers of words, literals, expressions, types and lists are such readers.

Does not own: the readers of payloads and attributes.
-/

namespace AttrGrammar

/-- What is known of the tokens ahead, which places may be reported among them, and with what readers may fail. To be
rejected at such a place, and to have such a token that denotes no literal, are failures that may arise. -/
structure Blame where
  token : Token → Prop
  place : Position → Prop
  failure : Failure → Prop
  place_of_token {t : Token} : token t → place t.position
  failure_of_place {kind : ErrorKind} {problem : Problem} {p : Position} :
    place p → failure (.rejected ⟨kind, problem, p⟩)
  failure_of_literal {t : Token} {fault : LiteralFault} :
    token t → Literal.decode t.kind t.text = .error fault → failure (.ofLiteral t.position fault)

variable {b : Blame}

/-! ## Cursors -/

namespace Cursor

/-- Whether all tokens ahead are known ones, and their end may be reported. -/
structure Within (b : Blame) (c : Cursor) : Prop where
  tokens : ∀ t ∈ Tree.flattenAll c.rest, b.token t
  finish : b.place c.finish

theorem Within.position {c : Cursor} (within : c.Within b) : b.place c.position := by
  obtain ⟨consumed, trees, finish⟩ := c
  match trees, within with
  | [], within => exact within.finish
  | .token t :: later, within => exact b.place_of_token (within.tokens t List.mem_cons_self)
  | .group .. :: later, within => exact b.place_of_token (within.tokens _ List.mem_cons_self)

theorem Within.take {c : Cursor} (within : c.Within b) (count : Nat) :
    ∀ t ∈ Tree.flattenAll (c.rest.take count), b.token t := by
  intro t member
  apply within.tokens
  rw [← List.take_append_drop count c.rest, Tree.flattenAll_append]
  exact List.mem_append_left _ member

theorem Within.skip {c : Cursor} (within : c.Within b) (count : Nat) : (c.skip count).Within b where
  tokens := by
    intro t member
    apply within.tokens
    rw [← List.take_append_drop count c.rest, Tree.flattenAll_append]
    exact List.mem_append_right _ member
  finish := within.finish

/-- The trees of a group ahead end at its closing bracket. -/
theorem Within.group {c : Cursor} {d : Delimiter} {opening closing : Position} {trees later : List Tree}
    (within : c.Within b) (rest : c.rest = .group d opening closing trees :: later) :
    (ofTrees trees closing).Within b where
  tokens := by
    intro t member
    apply within.tokens
    rw [rest, Tree.flattenAll, Tree.flatten]
    simp [show t ∈ Tree.flattenAll trees from member]
  finish := by
    have isClosing : b.token ⟨d.closeKind, d.closeText, closing, false⟩ := by
      apply within.tokens
      rw [rest, Tree.flattenAll, Tree.flatten]
      simp
    exact b.place_of_token isClosing

end Cursor

namespace Reader

open Cursor

/-! ## Rules -/

/-- Whether a reader among known tokens fails only as it may, and else yields such a value and stays among known
tokens. -/
def Keeps {α : Type} (b : Blame) (r : Reader α) (yields : α → Prop := fun _ => True) : Prop :=
  ∀ c : Cursor, c.Within b → match r c with
    | .ok v d => yields v ∧ d.Within b
    | .error failure _ => b.failure failure

section Rules

variable {α β : Type} {r : Reader α} {yields : α → Prop}

theorem keeps_pure {v : α} (known : yields v) : Keeps b (pure v) yields :=
  fun _ within => ⟨known, within⟩

theorem Keeps.bind {k : α → Reader β} {yieldsBehind : β → Prop} (keeps : Keeps b r yields)
    (later : ∀ v, yields v → Keeps b (k v) yieldsBehind) : Keeps b (r >>= k) yieldsBehind := by
  intro c within
  have first := keeps c within
  show match EStateM.bind r k c with
    | .ok v d => _
    | .error failure _ => _
  unfold EStateM.bind
  cases result : r c with
  | ok v d =>
      rw [result] at first
      exact later v first.1 d first.2
  | error failure d =>
      rw [result] at first
      exact first

theorem Keeps.bind_pure (keeps : Keeps b r yields) (f : α → β) :
    Keeps b (r >>= fun v => pure (f v)) :=
  keeps.bind fun _ _ => keeps_pure trivial

theorem keeps_get : Keeps b get (Within b) :=
  fun _ within => ⟨within, within⟩

theorem keeps_set {c : Cursor} (within : c.Within b) : Keeps b (set c) :=
  fun _ _ => ⟨trivial, within⟩

theorem keeps_throw {failure : Failure} (known : b.failure failure) :
    Keeps b (throw failure : Reader α) yields :=
  fun _ _ => known

theorem keeps_error {c : Cursor} (within : c.Within b) (kind : ErrorKind) (problem : Problem) :
    Keeps b (reject (c.error kind problem) : Reader α) yields :=
  keeps_throw (b.failure_of_place within.position)

theorem keeps_fail {kind : ErrorKind} {problem : Found → Problem} :
    Keeps b (fail kind problem : Reader α) yields :=
  keeps_get.bind fun _ within => keeps_error within _ _

theorem Keeps.inside {inner : Cursor} (keeps : Keeps b r yields) (within : inner.Within b) :
    Keeps b (inside inner r) yields := by
  intro outer withinOuter
  have kept := keeps inner within
  unfold Reader.inside
  cases result : r inner with
  | ok v d =>
      rw [result] at kept
      exact ⟨kept.1, withinOuter⟩
  | error failure d =>
      rw [result] at kept
      exact kept

end Rules

/-! ## Single trees -/

section Single

theorem keeps_token? {kind : TokenKind} : Keeps b (token? kind) := by
  refine keeps_get.bind fun c within => ?_
  split
  · split
    · exact (keeps_set (within.skip 1)).bind_pure _
    · exact keeps_pure trivial
  · exact keeps_pure trivial

theorem keeps_word? {word : String} : Keeps b (word? word) := by
  refine keeps_get.bind fun c within => ?_
  split
  · split
    · exact (keeps_set (within.skip 1)).bind_pure _
    · exact keeps_pure trivial
  · exact keeps_pure trivial

theorem keeps_expect {kind : TokenKind} {context : String} {errorKind : ErrorKind} :
    Keeps b (expect kind context errorKind) := by
  refine keeps_token?.bind fun found _ => ?_
  cases found with
  | some t => exact keeps_pure trivial
  | none => exact keeps_fail

theorem keeps_group? {delimiter : Delimiter} :
    Keeps b (group? delimiter) fun found => ∀ group ∈ found, group.2.Within b := by
  refine keeps_get.bind fun c within => ?_
  split
  · rename_i opening closing trees later rest
    split
    · refine (keeps_set (within.skip 1)).bind fun _ _ => keeps_pure ?_
      rintro group ⟨⟩
      exact within.group rest
    · exact keeps_pure nofun
  · exact keeps_pure nofun

theorem keeps_openGroup {delimiter : Delimiter} {context : String} :
    Keeps b (openGroup delimiter context) (Within b) := by
  refine keeps_group?.bind fun found within => ?_
  cases found with
  | some group => exact keeps_pure (within group rfl)
  | none => exact keeps_get.bind fun c withinHere => keeps_error withinHere _ _

theorem keeps_expectEnd : Keeps b expectEnd := by
  refine keeps_get.bind fun c _ => ?_
  split
  · exact keeps_fail
  · exact keeps_pure trivial

theorem keeps_decoded {t : Token} (known : b.token t) : Keeps b (decoded t) := by
  unfold decoded
  split
  · exact keeps_pure trivial
  · rename_i fault noLiteral
    exact keeps_throw (b.failure_of_literal known noLiteral)

theorem keeps_literal? : Keeps b literal? := by
  refine keeps_get.bind fun c within => ?_
  split
  · rename_i t later rest
    have known : b.token t := within.tokens t (rest ▸ List.mem_cons_self)
    split
    · exact (keeps_set (within.skip 1)).bind fun _ _ => (keeps_decoded known).bind_pure _
    · exact keeps_pure trivial
  · exact keeps_pure trivial

theorem keeps_literal : Keeps b literal := by
  refine keeps_literal?.bind fun found _ => ?_
  cases found with
  | some read => exact keeps_pure trivial
  | none => exact keeps_fail

theorem keeps_ident : Keeps b ident := by
  refine keeps_get.bind fun c within => ?_
  split
  · split
    · exact (keeps_set (within.skip 1)).bind_pure _
    · exact keeps_fail
  · exact keeps_fail

end Single

/-! ## Lists -/

section Lists

variable {α : Type} {r : Reader α}

theorem Keeps.whole (keeps : Keeps b r) : Keeps b (whole r) :=
  keeps.bind fun _ _ => keeps_expectEnd.bind_pure _

theorem Keeps.itemsUpTo (keeps : Keeps b r) (count : Nat) : Keeps b (itemsUpTo r count) := by
  induction count with
  | zero => exact keeps_pure trivial
  | succ count inductionHypothesis =>
      refine keeps_get.bind fun c _ => ?_
      split
      · exact keeps_pure trivial
      refine keeps.bind fun first _ => keeps_get.bind fun d _ => ?_
      split
      · exact keeps_pure trivial
      · exact keeps_expect.bind fun _ _ => inductionHypothesis.bind_pure _

theorem Keeps.terminated (keeps : Keeps b r) : Keeps b (terminated r) :=
  keeps_get.bind fun _ _ => keeps.itemsUpTo _

end Lists

end Reader

open Reader

/-! ## Expressions -/

namespace ExprParser

/-- A terminal that the parser cannot go on with is one of those it was given. -/
theorem mem_of_run {state : State} {ts : List Terminal} {stuck : Stuck} {t : Terminal}
    (fails : run state ts = .error stuck) (isStuck : stuck.terminal = some t) : t ∈ ts := by
  induction ts generalizing state with
  | nil =>
      rw [run] at fails
      cases atEnd : finish state with
      | ok phrase =>
          rw [atEnd] at fails
          cases fails
      | error expected =>
          rw [atEnd] at fails
          obtain rfl := Except.error.inj fails
          cases isStuck
  | cons u later inductionHypothesis =>
      rw [run] at fails
      cases next : step state u with
      | ok state' =>
          rw [next] at fails
          exact List.mem_cons_of_mem _ (inductionHypothesis fails)
      | error expected =>
          rw [next] at fails
          obtain rfl := Except.error.inj fails
          obtain rfl := Option.some.inj isStuck
          exact List.mem_cons_self

end ExprParser

/-- A terminal is a token, or a shift at the place of its first token. -/
theorem Terminal.exists_of_mem_ofTokens {t : Terminal} {tokens : List Token}
    (member : t ∈ ofTokens tokens) :
    ∃ u ∈ tokens, t = ofToken u ∨ t = ⟨.shiftRight, ">>", u.position⟩ := by
  fun_induction ofTokens tokens with
  | case1 u v later isShift inductionHypothesis =>
      rcases List.mem_cons.1 member with rfl | behind
      · exact ⟨u, List.mem_cons_self, .inr rfl⟩
      · obtain ⟨w, isBehind, isTerminal⟩ := inductionHypothesis behind
        exact ⟨w, by simp [isBehind], isTerminal⟩
  | case2 u v later notShift inductionHypothesis =>
      rcases List.mem_cons.1 member with rfl | behind
      · exact ⟨u, List.mem_cons_self, .inl rfl⟩
      · obtain ⟨w, isBehind, isTerminal⟩ := inductionHypothesis behind
        exact ⟨w, List.mem_cons_of_mem _ isBehind, isTerminal⟩
  | case3 u =>
      obtain rfl := List.mem_singleton.1 member
      exact ⟨u, List.mem_cons_self, .inl rfl⟩
  | case4 => cases member

namespace Expr

section Failures

variable {trees : List Tree} {finish : Position}

theorem place_of_terminal (known : ∀ t ∈ Tree.flattenAll trees, b.token t) {t : Terminal}
    (member : t ∈ Terminal.ofTrees trees) : b.place t.position := by
  obtain ⟨u, isToken, rfl | rfl⟩ := Terminal.exists_of_mem_ofTokens member
  · exact b.place_of_token (known u isToken)
  · exact b.place_of_token (known u isToken)

/-- Terminals that denote no literal fail as the tokens do that they are. -/
theorem failure_of_decode (known : ∀ t ∈ Tree.flattenAll trees, b.token t) {t : Terminal}
    (member : t ∈ Terminal.ofTrees trees) {failure : Failure}
    (noLiteral : t.decode t.position = .error failure) : b.failure failure := by
  rw [Terminal.decode] at noLiteral
  cases decoded : Literal.decode t.symbol.tokenKind t.text with
  | ok l =>
      rw [decoded] at noLiteral
      cases noLiteral
  | error fault =>
      rw [decoded] at noLiteral
      obtain rfl := Except.error.inj noLiteral
      obtain ⟨u, isToken, rfl | rfl⟩ := Terminal.exists_of_mem_ofTokens member
      · rw [Terminal.tokenKind_ofToken] at decoded
        exact b.failure_of_literal (known u isToken) decoded
      · obtain rfl := Except.error.inj decoded
        exact b.failure_of_place (b.place_of_token (known u isToken))

theorem failure_of_ofTrees (known : ∀ t ∈ Tree.flattenAll trees, b.token t)
    (knownFinish : b.place finish) {failure : Failure}
    (fails : ofTrees trees finish = .error failure) : b.failure failure := by
  unfold ofTrees at fails
  split at fails
  · obtain rfl := Except.error.inj fails
    exact b.failure_of_place knownFinish
  split at fails
  · rename_i stuck isStuck
    obtain rfl := Except.error.inj fails
    unfold ExprParser.Stuck.error
    split
    · rename_i t atTerminal
      exact b.failure_of_place (place_of_terminal known (ExprParser.mem_of_run isStuck atTerminal))
    · exact b.failure_of_place knownFinish
  · rename_i phrase parsed
    obtain ⟨d, sameTerminals, rfl⟩ := parseTerminals_eq_ok_iff.1 parsed
    rw [← d.value_eq] at fails
    obtain ⟨t, isLiteral, noLiteral⟩ := d.exists_of_value_eq_error fails
    exact failure_of_decode known (sameTerminals ▸ d.collects.subset isLiteral) noLiteral

end Failures

theorem keeps_read : Keeps b read := by
  refine keeps_get.bind fun c within => ?_
  dsimp only
  split
  · exact keeps_fail
  · refine (keeps_set (within.skip _)).bind fun _ _ => ?_
    split
    · exact keeps_pure trivial
    · rename_i failure fails
      exact keeps_throw (failure_of_ofTrees (within.take _) (within.skip _).position fails)

end Expr

/-! ## Types -/

namespace Comparison

open Cursor

/-- A cursor among known tokens compared with itself, for the failures that may arise. -/
def blames (b : Blame) : Comparison where
  place := .eq _
  literal := .eq _
  expr := .eq _
  Base := Within b
  Shown _ _ c c' := c' = c
  Level c c' := c' = c
  Fails _ _ failure _ _ _ := b.failure failure

theorem follows_of_keeps {α : Type} {view : View} {r : Reader α} {c c' : Cursor} (walks : Walks r) (keeps : Keeps b r)
    (within : c.Within b) : (blames b).Follows view r r c' c (.eq α) where
  reads := by
    intro v d read
    obtain ⟨count, inTrees, rfl⟩ := walks.exists_skip read
    refine ⟨count, inTrees, rfl, rfl, ?_⟩
    rintro rfl
    exact ⟨v, read, rfl⟩
  fails := by
    rintro failure d fails rfl
    have known := keeps c' within
    rw [fails] at known
    exact ⟨failure, d, fails, known⟩

instance : (blames b).IsLawful where
  place_refl _ := rfl
  literal_self _ _ _ := rfl
  base_skip := Within.skip
  base_inner := Within.group
  shown_of_le shown _ := shown
  shown_skip := by
    rintro view c c' count behind rfl
    rfl
  shown_of_level level _ := level
  level_skip := by
    rintro c c' rfl count
    rfl
  level_inner := by
    rintro view c c' d opening opening' closing closing' inner inner' later later' rfl rest rest'
    obtain ⟨same, -⟩ := List.cons.inj (rest'.symm.trans rest)
    obtain ⟨-, -, rfl, rfl⟩ := Tree.group.inj same
    rfl
  fronts_of_shown := by
    rintro view c c' count rfl
    exact .inl (.refl (fun _ => rfl) c'.rest)
  fronts_of_one := by
    rintro view c c' rfl
    exact .refl (fun _ => rfl) c'.rest
  fronts_of_all := by
    rintro c c' count rfl
    exact .refl (fun _ => rfl) c'.rest
  fails_here within _ := b.failure_of_place within.position
  fails_literal := by
    intro c c' t t' later later' fault within _ rest _ noLiteral
    exact b.failure_of_literal (within.tokens t (rest ▸ List.mem_cons_self)) noLiteral
  fails_behind := id
  fails_inside := id
  expr_follows within := follows_of_keeps Expr.walks_read.whole Expr.keeps_read.whole within

end Comparison

namespace TypeExpr

theorem keeps_read : Keeps b read := by
  intro c within
  have follows : FollowsAt (.eq id id id : TypeLikeness (Comparison.blames b)) (depthBound c) (depthBound c) :=
    follows_readAt _ _
  have here : (Comparison.blames b).Follows .all (readAt (depthBound c)) (readAt (depthBound c)) c c (.eq _) :=
    follows within (Nat.le_refl _) (Nat.le_refl _)
  rw [read_eq]
  cases result : readAt (depthBound c) c with
  | ok node d =>
      obtain ⟨count, -, rfl, -⟩ := here.reads node d result
      exact ⟨trivial, within.skip count⟩
  | error failure d =>
      obtain ⟨_, _, _, known⟩ := here.fails failure d result rfl
      exact known

end TypeExpr

end AttrGrammar
