import AttrGrammar.Proofs.Reading.Types

/-!
Contract: readers walk forward over their trees, and where these end is for them no more than a place to report.

Owns:
- cursors over the same trees with another end, and failures that differ in the two ends only;
- readers that walk: whether they succeed or fail, they leave the cursor some trees further on, and with another end
  they do the same, the place of a failure at the end aside;
- the rules by which such readers are put together, and that the readers of words, literals, expressions, types and
  lists walk.

What is read inside a group is read by a cursor of its own, which has the same end either way.
-/

namespace AttrGrammar

namespace Cursor

/-- The cursor over the same trees with another end. -/
def endingAt (c : Cursor) (finish : Position) : Cursor :=
  ⟨c.consumed, c.rest, finish⟩

theorem position_endingAt (c : Cursor) (finish : Position) :
    (c.endingAt finish).position = c.position ∨
      (c.endingAt finish).position = finish ∧ c.position = c.finish := by
  obtain ⟨consumed, - | ⟨tree, later⟩, atEnd⟩ := c
  · exact .inr ⟨rfl, rfl⟩
  · exact .inl rfl

theorem rest_endingAt (c : Cursor) (finish : Position) : (c.endingAt finish).rest = c.rest :=
  rfl

theorem skip_endingAt (c : Cursor) (finish : Position) (count : Nat) :
    (c.endingAt finish).skip count = (c.skip count).endingAt finish :=
  rfl

end Cursor

/-- Whether two failures are one, or reject trees alike, each at its own end. -/
def Failure.SameButEnd (finish' finish : Position) (failure' failure : Failure) : Prop :=
  failure' = failure ∨
    ∃ kind problem, failure' = .rejected ⟨kind, problem, finish'⟩ ∧
      failure = .rejected ⟨kind, problem, finish⟩

namespace Reader

open Cursor

/-! ## Rules -/

/-- Whether a reader walks forward from a cursor, and another one does the same where the trees end elsewhere. -/
structure WalksAt {α : Type} (r' r : Reader α) (c : Cursor) (finish : Position) : Prop where
  reads : ∀ v d, r c = .ok v d →
    ∃ count, d = c.skip count ∧ r' (c.endingAt finish) = .ok v (d.endingAt finish)
  fails : ∀ failure d, r c = .error failure d →
    ∃ count failure', d = c.skip count ∧ r' (c.endingAt finish) = .error failure' (d.endingAt finish) ∧
      failure'.SameButEnd finish c.finish failure

/-- Whether a reader walks forward from every cursor, and does the same wherever the trees end. -/
def Walks {α : Type} (r : Reader α) : Prop :=
  ∀ c finish, WalksAt r r c finish

section Rules

variable {α β : Type} {r r' : Reader α} {c : Cursor} {finish : Position}

theorem walksAt_of_ok {v : α} (count : Nat) (read : r c = .ok v (c.skip count))
    (read' : r' (c.endingAt finish) = .ok v ((c.endingAt finish).skip count)) : WalksAt r' r c finish where
  reads := by
    intro w d isRead
    rw [read] at isRead
    obtain ⟨rfl, rfl⟩ := EStateM.Result.ok.inj isRead
    exact ⟨count, rfl, read'⟩
  fails := by
    intro failure d fails
    rw [read] at fails
    cases fails

theorem walksAt_of_error {failure failure' : Failure} (count : Nat)
    (fails : r c = .error failure (c.skip count))
    (fails' : r' (c.endingAt finish) = .error failure' ((c.endingAt finish).skip count))
    (same : failure'.SameButEnd finish c.finish failure) : WalksAt r' r c finish where
  reads := by
    intro v d isRead
    rw [fails] at isRead
    cases isRead
  fails := by
    intro other d isFailure
    rw [fails] at isFailure
    obtain ⟨rfl, rfl⟩ := EStateM.Result.error.inj isFailure
    exact ⟨count, failure', rfl, fails', same⟩

theorem WalksAt.of_eq {s s' : Reader α} (walks : WalksAt s' s c finish) (same : r c = s c)
    (same' : r' (c.endingAt finish) = s' (c.endingAt finish)) : WalksAt r' r c finish :=
  ⟨same ▸ same' ▸ walks.reads, same ▸ same' ▸ walks.fails⟩

/-- A reader that walks moves over trees that are there. -/
theorem Walks.exists_skip (walks : Walks r) {v : α} {d : Cursor} (read : r c = .ok v d) :
    ∃ count, count ≤ c.rest.length ∧ d = c.skip count := by
  obtain ⟨count, rfl, -⟩ := (walks c c.finish).reads v d read
  exact ⟨min count c.rest.length, Nat.min_le_right _ _, (c.skip_min count).symm⟩

theorem walks_pure (v : α) : Walks (pure v) := by
  intro c finish
  refine walksAt_of_ok (v := v) 0 ?_ ?_ <;> rw [skip_zero] <;> rfl

theorem walksAt_throw {failure failure' : Failure} (same : failure'.SameButEnd finish c.finish failure) :
    WalksAt (throw failure') (throw failure : Reader α) c finish := by
  refine walksAt_of_error 0 ?_ ?_ same <;> rw [skip_zero] <;> rfl

theorem walks_throw (failure : Failure) : Walks (throw failure : Reader α) :=
  fun _ _ => walksAt_throw (.inl rfl)

/-- A reader goes on from where another one has left the cursor. -/
theorem WalksAt.bind {k k' : α → Reader β} (first : WalksAt r' r c finish)
    (later : ∀ v count, WalksAt (k' v) (k v) (c.skip count) finish) :
    WalksAt (r' >>= k') (r >>= k) c finish where
  reads := by
    intro w e isRead
    obtain ⟨v, d, isFirst, isLater⟩ := bind_eq_ok_iff.1 isRead
    obtain ⟨m, rfl, isFirst'⟩ := first.reads v d isFirst
    obtain ⟨n, rfl, isLater'⟩ := (later v m).reads w e isLater
    exact ⟨m + n, c.skip_skip m n, (bind_of_ok isFirst').trans isLater'⟩
  fails := by
    intro failure e fails
    rcases bind_eq_error_iff.1 fails with failsFirst | ⟨v, d, isFirst, failsLater⟩
    · obtain ⟨m, failure', rfl, failsFirst', same⟩ := first.fails failure e failsFirst
      exact ⟨m, failure', rfl, bind_eq_error_iff.2 (.inl failsFirst'), same⟩
    · obtain ⟨m, rfl, isFirst'⟩ := first.reads v d isFirst
      obtain ⟨n, failure', rfl, failsLater', same⟩ := (later v m).fails failure e failsLater
      exact ⟨m + n, failure', c.skip_skip m n, bind_eq_error_iff.2 (.inr ⟨v, _, isFirst', failsLater'⟩), same⟩

theorem Walks.bind {k : α → Reader β} (walks : Walks r) (later : ∀ v, Walks (k v)) : Walks (r >>= k) :=
  fun c finish => (walks c finish).bind fun v count => later v (c.skip count) finish

theorem Walks.bind_pure (walks : Walks r) (f : α → β) : Walks (r >>= fun v => pure (f v)) :=
  walks.bind fun v => walks_pure (f v)

/-- A reader that looks at its cursor. -/
theorem walks_of_get {k : Cursor → Reader β}
    (later : ∀ c finish, WalksAt (k (c.endingAt finish)) (k c) c finish) : Walks (get >>= k) :=
  fun c finish => (later c finish).of_eq rfl rfl

/-- A reader that looks at the trees ahead, but not at their end. -/
theorem walks_get {k : Cursor → Reader β} (endless : ∀ c finish, k (c.endingAt finish) = k c)
    (later : ∀ c, Walks (k c)) : Walks (get >>= k) :=
  walks_of_get fun c finish => (endless c finish).symm ▸ later c c finish

/-- Errors at the cursor are alike, wherever the trees end. -/
theorem sameButEnd_error (c : Cursor) (finish : Position) (kind : ErrorKind) (problem : Problem) :
    (Failure.rejected ((c.endingAt finish).error kind problem)).SameButEnd finish c.finish
      (.rejected (c.error kind problem)) := by
  rcases c.position_endingAt finish with samePosition | ⟨atFinish, atEnd⟩
  · rw [error, samePosition]
    exact .inl rfl
  · rw [error, error, atFinish, atEnd]
    exact .inr ⟨kind, problem, rfl, rfl⟩

theorem walksAt_error (kind : ErrorKind) (problem : Problem) :
    WalksAt (reject ((c.endingAt finish).error kind problem)) (reject (c.error kind problem) : Reader α) c
      finish :=
  walksAt_throw (sameButEnd_error c finish kind problem)

theorem walks_reject_of_get {kind : Cursor → ErrorKind} {problem : Cursor → Problem}
    (endlessKind : ∀ c finish, kind (c.endingAt finish) = kind c)
    (endlessProblem : ∀ c finish, problem (c.endingAt finish) = problem c) :
    Walks (get >>= fun c => reject (c.error (kind c) (problem c)) : Reader α) := by
  refine walks_of_get fun c finish => ?_
  rw [endlessKind, endlessProblem]
  exact walksAt_error (kind c) (problem c)

theorem walks_fail (kind : ErrorKind) (problem : Found → Problem) :
    Walks (fail kind problem : Reader α) :=
  walks_reject_of_get (fun _ _ => rfl) fun _ _ => rfl

/-- Whatever is read inside a group leaves the cursor behind the group where it is. -/
theorem walks_inside (inner : Cursor) (r : Reader α) : Walks (inside inner r) := by
  intro c finish
  cases result : r inner with
  | ok v d => refine (walks_pure v c finish).of_eq ?_ ?_ <;> rw [inside, result] <;> rfl
  | error failure d => refine (walks_throw failure c finish).of_eq ?_ ?_ <;> rw [inside, result] <;> rfl

end Rules

/-! ## Single trees -/

section Single

theorem walks_advance : Walks advance := by
  intro c finish
  obtain ⟨consumed, - | ⟨tree, later⟩, atEnd⟩ := c
  · exact (walks_fail .missingPayload (fun _ => .endOfInput) ⟨consumed, [], atEnd⟩ finish).of_eq rfl rfl
  · exact walksAt_of_ok 1 rfl rfl

theorem walks_token? (kind : TokenKind) : Walks (token? kind) := by
  intro c finish
  by_cases present : ∃ t later, c.rest = .token t :: later ∧ t.kind = kind
  · obtain ⟨t, later, rest, rfl⟩ := present
    exact walksAt_of_ok 1 (token?_of_kind rest) (token?_of_kind (c := c.endingAt finish) rest)
  · have absent : ∀ t later, c.rest = .token t :: later → t.kind ≠ kind :=
      fun t later rest isKind => present ⟨t, later, rest, isKind⟩
    exact (walks_pure none c finish).of_eq (token?_of_other absent)
      (token?_of_other (c := c.endingAt finish) absent)

theorem walks_group? (delimiter : Delimiter) : Walks (group? delimiter) := by
  intro c finish
  by_cases present : ∃ opening closing inner later, c.rest = .group delimiter opening closing inner :: later
  · obtain ⟨opening, closing, inner, later, rest⟩ := present
    exact walksAt_of_ok 1 (group?_of_group rest) (group?_of_group (c := c.endingAt finish) rest)
  · have absent : ∀ opening closing inner later, c.rest ≠ .group delimiter opening closing inner :: later :=
      fun opening closing inner later rest => present ⟨opening, closing, inner, later, rest⟩
    exact (walks_pure none c finish).of_eq (group?_of_other absent)
      (group?_of_other (c := c.endingAt finish) absent)

theorem walks_expect (kind : TokenKind) (context : String) (errorKind : ErrorKind) :
    Walks (expect kind context errorKind) := by
  refine (walks_token? kind).bind fun found => ?_
  cases found with
  | some t => exact walks_pure t
  | none => exact walks_fail _ _

theorem walks_openGroup (delimiter : Delimiter) (context : String) : Walks (openGroup delimiter context) := by
  refine (walks_group? delimiter).bind fun found => ?_
  cases found with
  | some group => exact walks_pure group.2
  | none => exact walks_reject_of_get (fun _ _ => rfl) fun _ _ => rfl

theorem walks_expectEnd : Walks expectEnd := by
  refine walks_get (fun _ _ => rfl) fun c => ?_
  split
  · exact walks_fail _ _
  · exact walks_pure ()

theorem walks_literal? : Walks literal? := by
  intro c finish
  by_cases present : ∃ t later, c.rest = .token t :: later ∧ (Tree.token t).isLiteral
  · obtain ⟨t, later, rest, isLiteral⟩ := present
    have read := literal?_of_literal rest isLiteral
    have read' := literal?_of_literal (c := c.endingAt finish) rest isLiteral
    cases decoded : Literal.decode t.kind t.text with
    | ok l =>
        rw [decoded] at read read'
        exact walksAt_of_ok 1 read read'
    | error fault =>
        rw [decoded] at read read'
        exact walksAt_of_error 1 read read' (.inl rfl)
  · have absent : ∀ t later, c.rest = .token t :: later → (Tree.token t).isLiteral = false :=
      fun t later rest => Bool.eq_false_iff.2 fun isLiteral => present ⟨t, later, rest, isLiteral⟩
    exact (walks_pure none c finish).of_eq (literal?_of_other absent)
      (literal?_of_other (c := c.endingAt finish) absent)

theorem walks_literal : Walks literal := by
  refine walks_literal?.bind fun found => ?_
  cases found with
  | some read => exact walks_pure read
  | none => exact walks_fail _ _

theorem walks_ident : Walks ident := by
  intro c finish
  by_cases present : ∃ t later, c.rest = .token t :: later ∧ t.kind = .ident ∧ t.text ∉ reservedWords
  · obtain ⟨t, later, rest, isIdent, free⟩ := present
    exact walksAt_of_ok 1 (ident_of_word rest isIdent free)
      (ident_of_word (c := c.endingAt finish) rest isIdent free)
  · have absent : ∀ t later, c.rest = .token t :: later → ¬(t.kind = .ident ∧ t.text ∉ reservedWords) :=
      fun t later rest isWord => present ⟨t, later, rest, isWord⟩
    exact (walks_fail _ _ c finish).of_eq (ident_of_other absent)
      (ident_of_other (c := c.endingAt finish) absent)

end Single

/-! ## Lists -/

section Lists

variable {α : Type} {r : Reader α}

theorem Walks.whole (walks : Walks r) : Walks (whole r) :=
  walks.bind fun v => walks_expectEnd.bind_pure fun _ => v

theorem Walks.itemsUpTo (walks : Walks r) (count : Nat) : Walks (itemsUpTo r count) := by
  induction count with
  | zero => exact walks_pure []
  | succ count inductionHypothesis =>
      refine walks_get (fun _ _ => rfl) fun c => ?_
      split
      · exact walks_pure []
      refine walks.bind fun first => walks_get (fun _ _ => rfl) fun d => ?_
      split
      · exact walks_pure [first]
      · exact (walks_expect _ _ _).bind fun _ => inductionHypothesis.bind_pure _

theorem Walks.terminated (walks : Walks r) : Walks (terminated r) :=
  walks_get (fun _ _ => rfl) fun c => walks.itemsUpTo c.rest.length

end Lists

end Reader

open Cursor Reader

/-! ## Expressions -/

namespace Expr

/-- Trees spell the same expression wherever they end. -/
theorem ofTrees_of_error {trees : List Tree} {finish' finish : Position} {failure : Failure}
    (fails : ofTrees trees finish = .error failure) :
    ∃ failure', ofTrees trees finish' = .error failure' ∧ failure'.SameButEnd finish' finish failure := by
  unfold ofTrees at fails ⊢
  split at fails
  · rename_i none
    obtain rfl := Except.error.inj fails
    exact ⟨_, if_pos none, .inr ⟨_, _, rfl, rfl⟩⟩
  rename_i some
  rw [if_neg some]
  split at fails
  · rename_i stuck isStuck
    obtain rfl := Except.error.inj fails
    refine ⟨_, rfl, ?_⟩
    unfold ExprParser.Stuck.error
    cases stuck.terminal with
    | some t => exact .inl rfl
    | none => exact .inr ⟨_, _, rfl, rfl⟩
  · exact ⟨failure, fails, .inl rfl⟩

theorem ofTrees_of_ok {trees : List Tree} {finish' finish : Position} {e : Expr Literal}
    (spells : ofTrees trees finish = .ok e) : ofTrees trees finish' = .ok e := by
  unfold ofTrees at spells ⊢
  split at spells
  · cases spells
  rename_i some
  rw [if_neg some]
  split at spells
  · cases spells
  · exact spells

theorem walks_read : Walks read := by
  intro c finish
  by_cases absent : extent false none c.rest = 0
  · exact (walks_fail _ _ c finish).of_eq (read_of_absent absent)
      (read_of_absent (c := c.endingAt finish) absent)
  have isRead := read_of_extent absent
  have isRead' := read_of_extent (c := c.endingAt finish) absent
  rw [rest_endingAt, skip_endingAt] at isRead'
  generalize extent false none c.rest = count at isRead isRead'
  cases spelled : ofTrees (c.rest.take count) (c.skip count).position with
  | ok e =>
      rw [spelled] at isRead
      rw [ofTrees_of_ok spelled] at isRead'
      exact walksAt_of_ok count isRead isRead'
  | error failure =>
      rw [spelled] at isRead
      -- The end matters only if all trees up to it belong to the expression.
      rcases (c.skip count).position_endingAt finish with samePosition | ⟨atFinish, atEnd⟩
      · rw [samePosition, spelled] at isRead'
        exact walksAt_of_error count isRead isRead' (.inl rfl)
      · rw [atEnd] at spelled
        obtain ⟨failure', spelled', same⟩ := ofTrees_of_error spelled
        rw [atFinish, spelled'] at isRead'
        exact walksAt_of_error count isRead isRead' same

end Expr

/-! ## Types -/

namespace Comparison

/-- Cursors compared by the trees ahead of them, which may end elsewhere. -/
def endings (finish' finish : Position) : Comparison where
  place := .eq _
  literal := .eq _
  expr := .eq _
  Base _ := True
  Shown _ _ c c' := c' = c ∨ c.finish = finish ∧ c' = c.endingAt finish'
  Level c c' := c' = c ∨ c.finish = finish ∧ c' = c.endingAt finish'
  Fails c c' failure failure' d d' :=
    (∃ count, d = c.skip count ∧ d' = c'.skip count) ∧ failure'.SameButEnd finish' finish failure

section Endings

variable {α : Type} {finish' finish : Position} {view : View} {r r' : Reader α} {c c' : Cursor}

theorem rest_of_endings (level : (endings finish' finish).Level c c') : c'.rest = c.rest := by
  obtain rfl | ⟨-, rfl⟩ := level
  · rfl
  · rfl

theorem follows_of_walks (walks : Walks r) : (endings finish' finish).Follows view r r c' c (.eq α) where
  reads := by
    intro v d read
    obtain ⟨count, within, rfl⟩ := walks.exists_skip read
    obtain ⟨_, -, again⟩ := (walks c finish').reads v _ read
    refine ⟨count, within, rfl, rfl, ?_⟩
    rintro (rfl | ⟨-, rfl⟩)
    · exact ⟨v, read, rfl⟩
    · exact ⟨v, again, rfl⟩
  fails := by
    rintro failure d fails (rfl | ⟨rfl, rfl⟩)
    · obtain ⟨count, -, rfl, -⟩ := (walks c' finish').fails failure d fails
      exact ⟨failure, _, fails, ⟨count, rfl, rfl⟩, .inl rfl⟩
    · obtain ⟨count, failure', rfl, fails', same⟩ := (walks c finish').fails failure d fails
      exact ⟨failure', _, fails', ⟨count, rfl, rfl⟩, same⟩

theorem walksAt_of_follows {finish : Position}
    (follows : (endings finish c.finish).Follows .all r' r (c.endingAt finish) c (.eq α)) :
    WalksAt r' r c finish where
  reads := by
    intro v d read
    obtain ⟨count, -, rfl, -, again⟩ := follows.reads v d read
    obtain ⟨v', read', same⟩ := again (.inr ⟨rfl, rfl⟩)
    obtain rfl : v' = v := same
    exact ⟨count, rfl, read'⟩
  fails := by
    intro failure d fails
    obtain ⟨failure', _, fails', ⟨count, rfl, rfl⟩, same⟩ := follows.fails failure d fails (.inr ⟨rfl, rfl⟩)
    exact ⟨count, failure', rfl, fails', same⟩

end Endings

instance (finish' finish : Position) : (endings finish' finish).IsLawful where
  place_refl _ := rfl
  literal_self _ _ _ := rfl
  base_skip _ _ := trivial
  base_inner _ _ := trivial
  shown_of_le shown _ := shown
  shown_skip := by
    rintro view c c' count behind (rfl | ⟨atFinish, rfl⟩)
    · exact .inl rfl
    · exact .inr ⟨atFinish, rfl⟩
  shown_of_level level _ := level
  level_skip := by
    rintro c c' (rfl | ⟨atFinish, rfl⟩) count
    · exact .inl rfl
    · exact .inr ⟨atFinish, rfl⟩
  level_inner := by
    intro view c c' d opening opening' closing closing' inner inner' later later' shown rest rest'
    obtain ⟨same, -⟩ := List.cons.inj (rest'.symm.trans ((rest_of_endings shown).trans rest))
    obtain ⟨-, -, rfl, rfl⟩ := Tree.group.inj same
    exact .inl rfl
  fronts_of_shown shown := .inl (rest_of_endings shown ▸ .refl (fun _ => rfl) _)
  fronts_of_one shown := rest_of_endings shown ▸ .refl (fun _ => rfl) _
  fronts_of_all shown := rest_of_endings shown ▸ .refl (fun _ => rfl) _
  fails_here := by
    rintro c c' kind problem - (rfl | ⟨rfl, rfl⟩)
    · exact ⟨⟨0, (skip_zero c').symm, (skip_zero c').symm⟩, .inl rfl⟩
    · exact ⟨⟨0, (skip_zero c).symm, (skip_zero _).symm⟩, sameButEnd_error c finish' kind _⟩
  fails_literal := by
    intro c c' t t' later later' fault _ level rest rest' _
    obtain ⟨same, -⟩ := List.cons.inj (rest'.symm.trans ((rest_of_endings level).trans rest))
    obtain rfl := Tree.token.inj same
    exact ⟨⟨1, rfl, rfl⟩, .inl rfl⟩
  fails_behind := by
    rintro c c' d d' failure failure' m ⟨⟨n, rfl, rfl⟩, same⟩
    exact ⟨⟨m + n, c.skip_skip m n, c'.skip_skip m n⟩, same⟩
  fails_inside fails := ⟨⟨1, rfl, rfl⟩, fails.2⟩
  expr_follows _ := follows_of_walks Expr.walks_read.whole

end Comparison

namespace TypeExpr

open Comparison

theorem walks_read : Walks read := by
  intro c finish
  have follows : FollowsAt (.eq id id id : TypeLikeness (endings finish c.finish)) (depthBound c) (depthBound c) :=
    follows_readAt _ _
  have node : WalksAt (readAt (depthBound c)) (readAt (depthBound c)) c finish :=
    walksAt_of_follows (follows trivial (Nat.le_refl _) (Nat.le_refl _))
  have since (v : TypeExpr) : Walks (get >>= fun d => pure (v, d.since c.index)) :=
    walks_get (fun _ _ => rfl) fun d => walks_pure (v, d.since c.index)
  have spelled : WalksAt (withTrees (readAt (depthBound c))) (withTrees (readAt (depthBound c))) c finish :=
    (node.bind fun v count => since v (c.skip count) finish).of_eq rfl rfl
  exact (spelled.bind fun read count => walks_pure (Spelled.mk read.1 read.2) (c.skip count) finish).of_eq rfl rfl

/-- The depth of the calls does not matter where it is sufficient. -/
theorem readAt_of_readAt {depth depth' : Nat} {c d : Cursor} {t : TypeExpr} (enough : 3 * c.weight + 3 ≤ depth)
    (enough' : 3 * c.weight + 3 ≤ depth') (isRead : readAt depth c = .ok t d) : readAt depth' c = .ok t d := by
  have follows : FollowsAt (.eq id id id : TypeLikeness (endings c.finish c.finish)) depth' depth := follows_readAt _ _
  have here : (endings c.finish c.finish).Follows .all (readAt depth') (readAt depth) c c (.eq _) :=
    follows trivial enough enough'
  obtain ⟨count, -, rfl, -, again⟩ := here.reads t d isRead
  obtain ⟨t', isRead', same⟩ := again (.inl rfl)
  obtain rfl : t' = t := same
  exact isRead'

theorem read_of_readAt {depth : Nat} {c d : Cursor} {t : TypeExpr} (enough : 3 * c.weight + 3 ≤ depth)
    (isRead : readAt depth c = .ok t d) : ∃ s, read c = .ok s d :=
  ⟨⟨t, _⟩, read_eq_ok_iff.2 ⟨readAt_of_readAt enough (Nat.le_refl _) isRead, rfl⟩⟩

theorem readAt_of_read {depth : Nat} {c d : Cursor} {s : Spelled TypeExpr} (enough : 3 * c.weight + 3 ≤ depth)
    (isRead : read c = .ok s d) : readAt depth c = .ok s.node d :=
  readAt_of_readAt (Nat.le_refl _) enough (read_eq_ok_iff.1 isRead).1

end TypeExpr

end AttrGrammar
