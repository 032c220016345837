import AttrGrammar.Proofs.Reading.Agreement
import AttrGrammar.Proofs.Reading.Types

/-!
Contract: the readers of words, literals, expressions and types read an item of a list as if nothing stood behind it.

Owns:
- the agreement of each of these readers with itself, on trees whose brackets are those of groups.

Does not own: the agreement of the readers of payloads and attributes.

The calls that read a type have a depth that depends on all that is ahead, so types are read at any two depths that
are sufficient.
-/

namespace AttrGrammar

open Cursor

/-! ## Words and literals -/

namespace Reader

section Words

variable {view : View} {c c' : Cursor}

theorem agrees_literal? : Agrees view literal? literal? c' c := by
  by_cases present : ∃ t later, c.rest = .token t :: later ∧ (Tree.token t).isLiteral
  · obtain ⟨t, later, rest, isLiteral⟩ := present
    cases value : Literal.decode t.kind t.text with
    | ok l =>
        apply agrees_of_taken rest
        intro e behind restE
        rw [literal?_of_literal restE isLiteral, value]
    | error fault =>
        apply agrees_of_error
        intro e level
        refine ⟨e.skip 1, ?_⟩
        rw [literal?_of_literal (level.rest.trans rest) isLiteral, value]
  · have leaves : ∀ e : Cursor, (∀ tree later, e.rest = tree :: later → tree.isLiteral = false) →
        literal? e = .ok none e :=
      fun e absent => literal?_of_other fun t later rest => absent _ later rest
    apply agrees_of_left _ leaves
    · intro tree later rest
      cases tree with
      | token t => exact Bool.eq_false_iff.2 fun isLiteral => present ⟨t, later, rest, isLiteral⟩
      | group => rfl
    · intro t isComma
      simp [Tree.isLiteral, Token.isWord, isComma, TokenKind.isLiteral]

theorem agrees_literal : Agrees view literal literal c' c := by
  apply agrees_literal?.bind
  intro read d d' _ _
  cases read with
  | some l => exact agrees_pure l
  | none => exact agrees_fail _ _

theorem agrees_ident : Agrees view ident ident c' c := by
  by_cases present : ∃ t later, c.rest = .token t :: later ∧ t.kind = .ident ∧ t.text ∉ reservedWords
  · obtain ⟨t, later, rest, isIdent, free⟩ := present
    exact agrees_of_taken rest fun e behind restE => ident_of_word restE isIdent free
  · apply agrees_of_failing
    intro e same
    exact ident_of_other fun t later rest isWord => present ⟨t, later, same.symm.trans rest, isWord⟩

end Words

end Reader

open Reader

/-! ## Expressions -/

namespace Expr

/-- An item may end behind the trees that are collected for an expression. -/
theorem stops_drop_extent (trees : List Tree) :
    ∀ (inParams : Bool) (before : Option Tree), Stops (trees.drop (extent inParams before trees)) := by
  induction trees with
  | nil => exact fun _ _ => trivial
  | cons tree later inductionHypothesis =>
      intro inParams before
      rw [extent]
      split
      · exact inductionHypothesis _ _
      · split
        · assumption
        · split <;> exact inductionHypothesis _ _

section Agreement

variable {view : View} {c c' : Cursor}

/-- Where trees are an expression, what follows them does not matter, if an item may end there. -/
theorem extent_eq_of_same (plain : IsPlainAhead c) {e : Spelled (Expr Literal)}
    (isExpr : ofTrees (c.rest.take (extent false none c.rest)) c.finish = .ok e.node)
    (same : View.item.Same (extent false none c.rest) c c') :
    extent false none c'.rest = extent false none c.rest := by
  have stops := stops_drop_extent c.rest false none
  generalize extent false none c.rest = count at isExpr same stops ⊢
  obtain ⟨trees, more, more', enough, ⟨rest, -⟩, rest', stops'⟩ := same
  rw [rest, List.take_append_of_le_length enough] at isExpr
  rw [rest, List.drop_append_of_le_length enough] at stops
  have plainTaken : ∀ t ∈ Tree.leavesAll (trees.take count), t.IsPlain := by
    intro t member
    apply plain t
    rw [rest, Tree.leavesAll_append]
    exact List.mem_append_left _ (Tree.leavesAll_take_subset trees count member)
  have stopsBehind : Stops (trees.drop count ++ more') := by
    cases behind : trees.drop count with
    | nil => exact stops'
    | cons tree later =>
        rw [behind] at stops
        exact stops
  have extent := extent_of_ofTrees plainTaken isExpr stopsBehind
  rw [← List.append_assoc, List.take_append_drop, List.length_take, Nat.min_eq_left enough] at extent
  rw [rest', extent]

theorem agrees_read (plain : IsPlainAhead c) : Agrees view read read c' c := by
  by_cases absent : extent false none c.rest = 0
  · exact agrees_of_failing fun e same => read_of_absent (same ▸ absent)
  · apply Agrees.inView
    refine ⟨fun e d isRead => ?_, fun failure d fails level => ?_⟩
    · obtain ⟨-, rfl, trees, isExpr⟩ := read_eq_ok_iff.1 isRead
      refine ⟨extent false none c.rest, extent_le_length _ _ _, rfl, fun same => ?_⟩
      have isExprHere := ofTrees_of_finish isExpr c.finish
      rw [trees] at isExprHere
      rw [read_eq_ok_iff, extent_eq_of_same plain isExprHere same]
      refine ⟨absent, rfl, ?_, ofTrees_of_finish isExpr _⟩
      rw [trees, same.take_eq]
    · rw [read_of_extent absent] at fails
      rw [read_of_extent (level.rest ▸ absent), level.rest, (level.skip _).position_eq]
      split at fails
      · cases fails
      · rename_i failure' isError
        obtain ⟨rfl, rfl⟩ := EStateM.Result.error.inj fails
        exact ⟨_, rfl⟩

end Agreement

end Expr

/-! ## Types -/

namespace Comparison

/-- Cursors compared by what is ahead of them, in a view. -/
def agreement : Comparison where
  place := .eq _
  literal := .eq _
  expr := .eq _
  Base := IsPlainAhead
  Shown := View.Same
  Level := Cursor.Level
  Fails _ _ failure failure' _ _ := failure' = failure

section Agreement

variable {α : Type} {view : View} {r r' : Reader α} {c c' : Cursor}

theorem follows_of_agrees (agrees : Agrees view r' r c' c) : agreement.Follows view r' r c' c (.eq α) where
  reads := by
    intro v d read
    obtain ⟨count, within, behind, again⟩ := agrees.reads v d read
    exact ⟨count, within, behind, rfl, fun same => ⟨v, again same, rfl⟩⟩
  fails := by
    intro failure d fails level
    obtain ⟨d', fails'⟩ := agrees.fails failure d fails level
    exact ⟨failure, d', fails', rfl⟩

theorem agrees_of_follows (follows : agreement.Follows view r' r c' c (.eq α)) : Agrees view r' r c' c where
  reads := by
    intro v d read
    obtain ⟨count, within, behind, -, again⟩ := follows.reads v d read
    refine ⟨count, within, behind, fun same => ?_⟩
    obtain ⟨v', read', sameValue⟩ := again same
    obtain rfl : v' = v := sameValue
    exact read'
  fails := by
    intro failure d fails level
    obtain ⟨failure', d', fails', sameFailure⟩ := follows.fails failure d fails level
    obtain rfl : failure' = failure := sameFailure
    exact ⟨d', fails'⟩

end Agreement

instance : agreement.IsLawful where
  place_refl _ := rfl
  literal_self _ _ _ := rfl
  base_skip := IsPlainAhead.skip
  base_inner := IsPlainAhead.inner
  shown_of_le := View.Same.of_le
  shown_skip := View.Same.skip
  shown_of_level := View.same_of_level
  level_skip := Level.skip
  level_inner := by
    intro view c c' d opening opening' closing closing' inner inner' later later' shown rest rest'
    obtain ⟨_, here⟩ := View.Same.exists_head shown rest
    obtain ⟨same, -⟩ := List.cons.inj (here.symm.trans rest')
    obtain ⟨-, -, rfl, rfl⟩ := Tree.group.inj same
    exact .refl _
  fronts_of_shown := by
    intro view c c' count shown
    rcases View.Same.next shown with ⟨tree, later, later', rest, rest'⟩ | stops
    · rw [rest, rest']
      exact .inl (.of_head (fun _ => rfl) tree later later')
    · exact .inr stops
  fronts_of_one := by
    intro view c c' shown
    cases rest : c.rest with
    | cons tree later =>
        obtain ⟨later', rest'⟩ := View.Same.exists_head shown rest
        rw [rest']
        exact .of_head (fun _ => rfl) tree later later'
    | nil =>
        rcases view with - | -
        · rw [Level.rest shown, rest]
          exact .nil
        · obtain ⟨trees, more, -, enough, ⟨here, -⟩, -⟩ := shown
          rw [rest] at here
          rw [(List.append_eq_nil_iff.1 here.symm).1] at enough
          cases enough
  fronts_of_all := by
    intro c c' count level
    rw [Level.rest level]
    exact .refl (fun _ => rfl) c.rest
  fails_here := by
    intro c c' kind problem _ level
    show Failure.rejected _ = Failure.rejected _
    rw [level.found_eq, level.error_eq]
  fails_literal := by
    intro c c' t t' later later' fault _ level rest rest' _
    obtain ⟨same, -⟩ := List.cons.inj (rest'.symm.trans (level.rest.trans rest))
    obtain rfl := Tree.token.inj same
    rfl
  fails_behind := id
  fails_inside := id
  expr_follows plain := follows_of_agrees (Expr.agrees_read plain).whole

end Comparison

namespace TypeExpr

open Comparison

/-- Types are read the same, wherever an item may end behind them. -/
theorem agrees_readAt {depth depth' : Nat} {view : View} {c c' : Cursor} (plain : IsPlainAhead c)
    (enough : 3 * c.weight + 3 ≤ depth) (enough' : 3 * c.weight + 3 ≤ depth') :
    Agrees view (readAt depth') (readAt depth) c' c := by
  have follows : FollowsAt (.eq id id id : TypeLikeness agreement) depth' depth := follows_readAt depth' depth
  exact agrees_of_follows (follows plain enough enough')

section Whole

variable {view : View} {c c' : Cursor}

/-- Types with their trees are read the same. -/
theorem agrees_read (plain : IsPlainAhead c) : Agrees view read read c' c where
  reads := by
    intro t d isRead
    obtain ⟨isNode, trees⟩ := read_eq_ok_iff.1 isRead
    have here : Agrees view (readAt (depthBound c)) (readAt (depthBound c)) c c :=
      agrees_readAt plain (Nat.le_refl _) (Nat.le_refl _)
    obtain ⟨count, within, rfl, -⟩ := here.reads t.node d isNode
    refine ⟨count, within, rfl, fun same => ?_⟩
    -- The depths suffice for both cursors where there are only the trees that both have ahead.
    obtain ⟨m, ⟨more, rest⟩, ⟨more', rest'⟩, sameHere, sameThere⟩ := same.exists_between
    have lighter : depthBound m ≤ depthBound c := by
      rw [depthBound_eq, depthBound_eq, weight, weight, rest, Tree.weightAll_append]
      omega
    have lighter' : depthBound m ≤ depthBound c' := by
      rw [depthBound_eq, depthBound_eq, weight, weight, rest', Tree.weightAll_append]
      omega
    have plainBetween : IsPlainAhead m := by
      intro u member
      apply plain u
      rw [rest, Tree.leavesAll_append]
      exact List.mem_append_left _ member
    have first : Agrees view (readAt (depthBound c)) (readAt (depthBound c)) m c :=
      agrees_readAt plain (Nat.le_refl _) (Nat.le_refl _)
    have second : Agrees view (readAt (depthBound c')) (readAt (depthBound c)) c' m :=
      agrees_readAt plainBetween lighter lighter'
    obtain ⟨countFirst, withinFirst, sameFirst, readFirst⟩ := first.reads t.node _ isNode
    obtain rfl := skip_inj within withinFirst sameFirst
    obtain ⟨countSecond, withinSecond, sameSecond, readSecond⟩ :=
      second.reads t.node _ (readFirst sameHere)
    obtain rfl := skip_inj (sameHere.le_length within) withinSecond sameSecond
    refine read_eq_ok_iff.2 ⟨readSecond sameThere, ?_⟩
    rw [trees, since_skip, since_skip, same.take_eq]
  fails := by
    intro failure d fails level
    rw [read_eq_error_iff] at fails
    have sameBound : depthBound c' = depthBound c := by
      rw [depthBound, depthBound, level.rest]
    have agrees : Agrees .all (readAt (depthBound c)) (readAt (depthBound c)) c' c :=
      agrees_readAt plain (Nat.le_refl _) (Nat.le_refl _)
    obtain ⟨d', fails'⟩ := agrees.fails failure d fails level
    exact ⟨d', read_eq_error_iff.2 (sameBound ▸ fails')⟩

end Whole

end TypeExpr

end AttrGrammar
