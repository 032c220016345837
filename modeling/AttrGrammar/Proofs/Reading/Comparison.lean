import AttrGrammar.Proofs.Reading.Agreement
import Mathlib.Data.List.Forall2

/-!
Contract: two readers side by side, by whatever their cursors are compared.

Owns:
- relations between the values that two readers yield;
- comparisons: which cursors count as alike, as far as a reader reads and where it fails, and which failures do;
- one reader following another one: it succeeds as the other does, over as many trees and with a value that is related
  to the other's, wherever those trees are alike, and it fails as the other does where all that is ahead is;
- following for the rules by which readers are put together, and for the readers of single trees.

Does not own: the comparisons that are made, and the readers that are put together.
-/

namespace AttrGrammar

/-! ## Relations between values -/

/-- A relation between values of which the second is related to itself. -/
structure Likeness (α : Type) where
  holds : α → α → Prop
  self {a' a : α} : holds a' a → holds a a

namespace Likeness

variable {α β : Type}

def eq (α : Type) : Likeness α where
  holds a' a := a' = a
  self _ := rfl

def any (α : Type) : Likeness α where
  holds _ _ := True
  self _ := trivial

def list (like : Likeness α) : Likeness (List α) where
  holds := List.Forall₂ like.holds
  self related := by
    induction related with
    | nil => exact .nil
    | cons head _ inductionHypothesis => exact .cons (like.self head) inductionHypothesis

def option (like : Likeness α) : Likeness (Option α) where
  holds a' a := (a' = none ∧ a = none) ∨ ∃ b' b, a' = some b' ∧ a = some b ∧ like.holds b' b
  self := by
    rintro a' a (⟨-, rfl⟩ | ⟨b', b, -, rfl, related⟩)
    · exact .inl ⟨rfl, rfl⟩
    · exact .inr ⟨b, b, rfl, rfl, like.self related⟩

def prod (first : Likeness α) (second : Likeness β) : Likeness (α × β) where
  holds p' p := first.holds p'.1 p.1 ∧ second.holds p'.2 p.2
  self related := ⟨first.self related.1, second.self related.2⟩

end Likeness

/-! ## Comparisons -/

/-- By what two readers are compared. -/
structure Comparison where
  place : Likeness Position
  literal : Likeness Literal
  expr : Likeness (Spelled (Expr Literal))
  /-- What is known of the cursor that is read. -/
  Base : Cursor → Prop
  /-- Whether the trees ahead of two cursors are alike in a view, as many as given at least. -/
  Shown : View → Nat → Cursor → Cursor → Prop
  /-- Whether all that is ahead of two cursors is alike. -/
  Level : Cursor → Cursor → Prop
  /-- Whether failures at two cursors are alike, each with the cursor that it leaves. -/
  Fails : Cursor → Cursor → Failure → Failure → Cursor → Cursor → Prop

namespace Comparison

open Cursor Reader

variable {S : Comparison}

def token (S : Comparison) : Likeness Token where
  holds t' t := t'.kind = t.kind ∧ t'.text = t.text ∧ S.place.holds t'.position t.position
  self related := ⟨rfl, rfl, S.place.self related.2.2⟩

def tokenLiteral (S : Comparison) : Likeness TokenLiteral where
  holds l' l := S.literal.holds l'.literal l.literal ∧ S.token.holds l'.token l.token
  self related := ⟨S.literal.self related.1, S.token.self related.2⟩

/-- Whether the first of some trees are alike, or there are none. -/
inductive FrontsAlike (S : Comparison) : List Tree → List Tree → Prop where
  | nil : FrontsAlike S [] []
  | token {t t' : Token} {later later' : List Tree} (same : S.token.holds t' t) :
      FrontsAlike S (.token t :: later) (.token t' :: later')
  | group {d : Delimiter} {opening opening' closing closing' : Position} {inner inner' later later' : List Tree}
      (same : S.place.holds opening' opening) :
      FrontsAlike S (.group d opening closing inner :: later) (.group d opening' closing' inner' :: later')

theorem FrontsAlike.of_head (refl : ∀ p, S.place.holds p p) (tree : Tree) (later later' : List Tree) :
    S.FrontsAlike (tree :: later) (tree :: later') := by
  cases tree with
  | token t => exact .token ⟨rfl, rfl, refl _⟩
  | group d opening closing inner => exact .group (refl _)

theorem FrontsAlike.refl (refl : ∀ p, S.place.holds p p) (trees : List Tree) : S.FrontsAlike trees trees := by
  cases trees with
  | nil => exact .nil
  | cons tree later => exact .of_head refl tree later later

/-- Whether one reader at a cursor follows another one at another cursor. Where the second succeeds, it moves over some
trees, and where these are shown ahead of both cursors, the first succeeds with a related value and moves over as many.
Where the second fails, the first fails alike if all that is ahead is alike. -/
structure Follows (S : Comparison) {α : Type} (view : View) (r' r : Reader α) (c' c : Cursor) (like : Likeness α) :
    Prop where
  reads : ∀ v d, r c = .ok v d → ∃ count, count ≤ c.rest.length ∧ d = c.skip count ∧ like.holds v v ∧
    (S.Shown view count c c' → ∃ v', r' c' = .ok v' (c'.skip count) ∧ like.holds v' v)
  fails : ∀ failure d, r c = .error failure d → S.Level c c' →
    ∃ failure' d', r' c' = .error failure' d' ∧ S.Fails c c' failure failure' d d'

/-- What a comparison has to be like for readers to be compared part by part. -/
class IsLawful (S : Comparison) : Prop where
  place_refl (p : Position) : S.place.holds p p
  literal_self {c : Cursor} {t : Token} {later : List Tree} {l : Literal} (base : S.Base c)
    (rest : c.rest = .token t :: later) (decoded : Literal.decode t.kind t.text = .ok l) : S.literal.holds l l
  base_skip {c : Cursor} (base : S.Base c) (count : Nat) : S.Base (c.skip count)
  base_inner {c : Cursor} {d : Delimiter} {opening closing : Position} {inner later : List Tree} (base : S.Base c)
    (rest : c.rest = .group d opening closing inner :: later) : S.Base (ofTrees inner closing)
  shown_of_le {view : View} {c c' : Cursor} {fewer count : Nat} (shown : S.Shown view count c c')
    (le : fewer ≤ count) : S.Shown view fewer c c'
  shown_skip {view : View} {c c' : Cursor} {count behind : Nat} (shown : S.Shown view (count + behind) c c') :
    S.Shown view behind (c.skip count) (c'.skip count)
  shown_of_level {view : View} {c c' : Cursor} {count : Nat} (level : S.Level c c')
    (within : count ≤ c.rest.length) : S.Shown view count c c'
  level_skip {c c' : Cursor} (level : S.Level c c') (count : Nat) : S.Level (c.skip count) (c'.skip count)
  level_inner {view : View} {c c' : Cursor} {d : Delimiter} {opening opening' closing closing' : Position}
    {inner inner' later later' : List Tree} (shown : S.Shown view 1 c c')
    (rest : c.rest = .group d opening closing inner :: later)
    (rest' : c'.rest = .group d opening' closing' inner' :: later') :
    S.Level (ofTrees inner closing) (ofTrees inner' closing')
  fronts_of_shown {view : View} {c c' : Cursor} {count : Nat} (shown : S.Shown view count c c') :
    S.FrontsAlike c.rest c'.rest ∨ Expr.Stops c.rest ∧ Expr.Stops c'.rest
  fronts_of_one {view : View} {c c' : Cursor} (shown : S.Shown view 1 c c') : S.FrontsAlike c.rest c'.rest
  fronts_of_all {c c' : Cursor} {count : Nat} (shown : S.Shown .all count c c') : S.FrontsAlike c.rest c'.rest
  fails_here {c c' : Cursor} {kind : ErrorKind} {problem : Found → Problem} (base : S.Base c)
    (level : S.Level c c') :
    S.Fails c c' (.rejected (c.error kind (problem c.found))) (.rejected (c'.error kind (problem c'.found))) c c'
  fails_literal {c c' : Cursor} {t t' : Token} {later later' : List Tree} {fault : LiteralFault} (base : S.Base c)
    (level : S.Level c c') (rest : c.rest = .token t :: later) (rest' : c'.rest = .token t' :: later')
    (decoded : Literal.decode t.kind t.text = .error fault) :
    S.Fails c c' (.ofLiteral t.position fault) (.ofLiteral t'.position fault) (c.skip 1) (c'.skip 1)
  fails_behind {c c' d d' : Cursor} {failure failure' : Failure} {count : Nat}
    (fails : S.Fails (c.skip count) (c'.skip count) failure failure' d d') : S.Fails c c' failure failure' d d'
  fails_inside {c c' e e' inner inner' : Cursor} {failure failure' : Failure}
    (fails : S.Fails inner inner' failure failure' e e') : S.Fails c c' failure failure' (c.skip 1) (c'.skip 1)
  expr_follows {c c' : Cursor} (base : S.Base c) :
    S.Follows .all (Reader.whole Expr.read) (Reader.whole Expr.read) c' c S.expr

/-! ## Rules -/

section Rules

variable {α β : Type} {view : View} {r r' s s' : Reader α} {k k' : α → Reader β} {c c' : Cursor} {like : Likeness α}
  {likeBehind : Likeness β}

/-- Readers follow each other if others do that do the same where they stand. -/
theorem Follows.of_eq (follows : S.Follows view s' s c' c like) (same : r c = s c) (same' : r' c' = s' c') :
    S.Follows view r' r c' c like :=
  ⟨same ▸ same' ▸ follows.reads, same ▸ same' ▸ follows.fails⟩

theorem follows_of_ok {v v' : α} (count : Nat) (within : count ≤ c.rest.length) (read : r c = .ok v (c.skip count))
    (read' : S.Shown view count c c' → r' c' = .ok v' (c'.skip count)) (same : like.holds v' v) :
    S.Follows view r' r c' c like where
  reads := by
    intro w d isRead
    rw [read] at isRead
    obtain ⟨rfl, rfl⟩ := EStateM.Result.ok.inj isRead
    exact ⟨count, within, rfl, like.self same, fun shown => ⟨v', read' shown, same⟩⟩
  fails := by
    intro failure d fails
    rw [read] at fails
    cases fails

theorem follows_of_error {failure : Failure} {d : Cursor} (fails : r c = .error failure d)
    (fails' : S.Level c c' → ∃ failure' d', r' c' = .error failure' d' ∧ S.Fails c c' failure failure' d d') :
    S.Follows view r' r c' c like where
  reads := by
    intro v e isRead
    rw [fails] at isRead
    cases isRead
  fails := by
    intro other e isFailure level
    rw [fails] at isFailure
    obtain ⟨rfl, rfl⟩ := EStateM.Result.error.inj isFailure
    exact fails' level

theorem follows_pure {v v' : α} (same : like.holds v' v) : S.Follows view (pure v') (pure v) c' c like := by
  refine follows_of_ok 0 (Nat.zero_le _) ?_ (fun _ => ?_) same
  · rw [skip_zero]
    rfl
  · rw [skip_zero]
    rfl

/-- A reader that looks at the cursor first. -/
theorem follows_get {k k' : Cursor → Reader β} (follows : S.Follows view (k' c') (k c) c' c likeBehind) :
    S.Follows view (get >>= k') (get >>= k) c' c likeBehind :=
  ⟨follows.reads, follows.fails⟩

variable [S.IsLawful]

/-- Readers one behind the other follow each other if the second do wherever the first have moved. -/
theorem Follows.bind (first : S.Follows view r' r c' c like)
    (later : ∀ v' v count, like.holds v' v → r c = .ok v (c.skip count) →
      S.Follows view (k' v') (k v) (c'.skip count) (c.skip count) likeBehind) :
    S.Follows view (r' >>= k') (r >>= k) c' c likeBehind where
  reads := by
    intro w e read
    obtain ⟨v, d, isFirst, isLater⟩ := bind_eq_ok_iff.1 read
    obtain ⟨m, within, rfl, self, again⟩ := first.reads v d isFirst
    obtain ⟨n, withinLater, rfl, selfLater, -⟩ := (later v v m self isFirst).reads w e isLater
    refine ⟨m + n, ?_, skip_skip c m n, selfLater, fun shown => ?_⟩
    · rw [skip, List.length_drop] at withinLater
      omega
    obtain ⟨v', isFirst', same⟩ := again (IsLawful.shown_of_le shown (Nat.le_add_right m n))
    obtain ⟨l, withinAgain, sameMove, -, againLater⟩ := (later v' v m same isFirst).reads w _ isLater
    obtain rfl := skip_inj withinLater withinAgain sameMove
    obtain ⟨w', isLater', sameBehind⟩ := againLater (IsLawful.shown_skip shown)
    refine ⟨w', ?_, sameBehind⟩
    rw [bind_of_ok isFirst', ← skip_skip]
    exact isLater'
  fails := by
    intro failure e fails level
    rcases bind_eq_error_iff.1 fails with failsFirst | ⟨v, d, isFirst, failsLater⟩
    · obtain ⟨failure', d', failsFirst', same⟩ := first.fails failure e failsFirst level
      exact ⟨failure', d', bind_eq_error_iff.2 (.inl failsFirst'), same⟩
    · obtain ⟨m, within, rfl, -, again⟩ := first.reads v d isFirst
      obtain ⟨v', isFirst', same⟩ := again (IsLawful.shown_of_level level within)
      obtain ⟨failure', d', failsLater', sameFailure⟩ :=
        (later v' v m same isFirst).fails failure e failsLater (IsLawful.level_skip level m)
      exact ⟨failure', d', bind_eq_error_iff.2 (.inr ⟨v', _, isFirst', failsLater'⟩), IsLawful.fails_behind sameFailure⟩

/-- Readers follow each other if they change what others yield that do. -/
theorem Follows.bind_pure (first : S.Follows view r' r c' c like) {f' f : α → β}
    (same : ∀ v' v, like.holds v' v → likeBehind.holds (f' v') (f v)) :
    S.Follows view (r' >>= fun v => pure (f' v)) (r >>= fun v => pure (f v)) c' c likeBehind :=
  first.bind fun v' v _ related _ => follows_pure (same v' v related)

theorem follows_fail {kind : ErrorKind} {problem : Found → Problem} (base : S.Base c) :
    S.Follows view (fail kind problem : Reader α) (fail kind problem) c' c like :=
  follows_of_error rfl fun level => ⟨_, c', rfl, IsLawful.fails_here base level⟩

theorem fronts_refl (trees : List Tree) : S.FrontsAlike trees trees :=
  .refl IsLawful.place_refl trees

theorem fronts_of_level (level : S.Level c c') : S.FrontsAlike c.rest c'.rest :=
  IsLawful.fronts_of_all (IsLawful.shown_of_level level (Nat.zero_le _))

/-- Readers follow each other if they do in front of trees that are alike, and where an item may end in front of both
of them. -/
theorem Follows.of_fronts (alike : ∀ e : Cursor, S.FrontsAlike c.rest e.rest → S.Follows view r' r e c like)
    (stopped : Expr.Stops c.rest → Expr.Stops c'.rest → S.Follows view r' r c' c like) :
    S.Follows view r' r c' c like := by
  by_cases fronts : S.FrontsAlike c.rest c'.rest
  · exact alike c' fronts
  by_cases stops : Expr.Stops c.rest ∧ Expr.Stops c'.rest
  · exact stopped stops.1 stops.2
  constructor
  · intro v d read
    obtain ⟨count, within, behind, self, -⟩ := (alike c (fronts_refl _)).reads v d read
    refine ⟨count, within, behind, self, fun shown => ?_⟩
    exact absurd (IsLawful.fronts_of_shown shown) (not_or_intro fronts stops)
  · intro failure d fails level
    exact absurd (fronts_of_level level) fronts

/-- Readers follow each other that consume the next tree, wherever it is alike. -/
theorem follows_of_taken {v : α} {tree : Tree} {later : List Tree} (rest : c.rest = tree :: later)
    (taken : r c = .ok v (c.skip 1))
    (taken' : ∀ e : Cursor, S.FrontsAlike c.rest e.rest → ∃ v', r' e = .ok v' (e.skip 1) ∧ like.holds v' v) :
    S.Follows view r' r c' c like where
  reads := by
    intro w d isRead
    rw [taken] at isRead
    obtain ⟨rfl, rfl⟩ := EStateM.Result.ok.inj isRead
    obtain ⟨v', -, same⟩ := taken' c (fronts_refl _)
    exact ⟨1, by simp [rest], rfl, like.self same, fun shown => taken' c' (IsLawful.fronts_of_one shown)⟩
  fails := by
    intro failure d fails
    rw [taken] at fails
    cases fails

/-- Readers follow each other that fail at their cursors. -/
theorem follows_of_failing {kind : ErrorKind} {problem : Found → Problem} (base : S.Base c)
    (fails : r c = fail kind problem c)
    (fails' : S.FrontsAlike c.rest c'.rest → r' c' = fail kind problem c') : S.Follows view r' r c' c like :=
  follows_of_error fails fun level =>
    ⟨_, c', fails' (fronts_of_level level), IsLawful.fails_here base level⟩

/-- Readers follow each other that consume the next tree and go on behind it. -/
theorem Follows.behind (follows : S.Follows view s' s (c'.skip 1) (c.skip 1) like) {tree : Tree} {later : List Tree}
    (rest : c.rest = tree :: later) (same : r c = s (c.skip 1)) (same' : r' c' = s' (c'.skip 1)) :
    S.Follows view r' r c' c like where
  reads := by
    intro v d read
    obtain ⟨count, within, rfl, self, again⟩ := follows.reads v d (same.symm.trans read)
    refine ⟨1 + count, ?_, skip_skip c 1 count, self, fun shown => ?_⟩
    · rw [rest_skip_one rest] at within
      rw [rest, List.length_cons]
      omega
    obtain ⟨v', read', sameValue⟩ := again (IsLawful.shown_skip shown)
    exact ⟨v', by rw [same', read', skip_skip], sameValue⟩
  fails := by
    intro failure d fails level
    obtain ⟨failure', d', fails', sameFailure⟩ :=
      follows.fails failure d (same.symm.trans fails) (IsLawful.level_skip level 1)
    exact ⟨failure', d', same'.trans fails', IsLawful.fails_behind sameFailure⟩

/-- Readers follow each other that consume a group and read what is inside it. -/
theorem Follows.inside {d : Delimiter} {opening opening' closing closing' : Position}
    {inner inner' later later' : List Tree}
    (follows : S.Follows .all s' s (ofTrees inner' closing') (ofTrees inner closing) like)
    (rest : c.rest = .group d opening closing inner :: later)
    (rest' : c'.rest = .group d opening' closing' inner' :: later')
    (same : r c = inside (ofTrees inner closing) s (c.skip 1))
    (same' : r' c' = inside (ofTrees inner' closing') s' (c'.skip 1)) : S.Follows view r' r c' c like := by
  cases result : s (ofTrees inner closing) with
  | ok v e =>
      obtain ⟨count, within, -, self, again⟩ := follows.reads v e result
      constructor
      · intro w d read
        rw [same, Reader.inside, result] at read
        obtain ⟨rfl, rfl⟩ := EStateM.Result.ok.inj read
        refine ⟨1, by simp [rest], rfl, self, fun shown => ?_⟩
        obtain ⟨v', read', sameValue⟩ :=
          again (IsLawful.shown_of_level (IsLawful.level_inner shown rest rest') within)
        exact ⟨v', by rw [same', Reader.inside, read'], sameValue⟩
      · intro failure d fails
        rw [same, Reader.inside, result] at fails
        cases fails
  | error failure e =>
      constructor
      · intro w d read
        rw [same, Reader.inside, result] at read
        cases read
      · intro failure' d fails level
        rw [same, Reader.inside, result] at fails
        obtain ⟨rfl, rfl⟩ := EStateM.Result.error.inj fails
        have shown : S.Shown view 1 c c' := IsLawful.shown_of_level level (by simp [rest])
        obtain ⟨failure', e', fails', sameFailure⟩ :=
          follows.fails failure e result (IsLawful.level_inner shown rest rest')
        exact ⟨failure', _, by rw [same', Reader.inside, fails'], IsLawful.fails_inside sameFailure⟩

end Rules

/-! ## Single trees -/

section Single

variable {β : Type} {view : View} {c c' : Cursor} {likeBehind : Likeness β}

theorem follows_left {α : Type} {r r' : Reader α} {like : Likeness α} {v v' : α} (leaves : r c = .ok v c)
    (leaves' : r' c' = .ok v' c') (same : like.holds v' v) : S.Follows view r' r c' c like := by
  refine follows_of_ok 0 (Nat.zero_le _) ?_ (fun _ => ?_) same
  · rw [skip_zero, leaves]
  · rw [skip_zero, leaves']

/-- Tokens of trees that are alike are alike. -/
theorem FrontsAlike.exists_token {trees later : List Tree} {t : Token}
    (fronts : S.FrontsAlike (.token t :: later) trees) :
    ∃ t' later', trees = .token t' :: later' ∧ S.token.holds t' t := by
  cases fronts with
  | token same => exact ⟨_, _, rfl, same⟩

theorem FrontsAlike.exists_group {trees later inner : List Tree} {d : Delimiter} {opening closing : Position}
    (fronts : S.FrontsAlike (.group d opening closing inner :: later) trees) :
    ∃ opening' closing' inner' later', trees = .group d opening' closing' inner' :: later' ∧
      S.place.holds opening' opening := by
  cases fronts with
  | group same => exact ⟨_, _, _, _, rfl, same⟩

theorem FrontsAlike.eq_nil {trees : List Tree} (fronts : S.FrontsAlike [] trees) : trees = [] := by
  cases fronts
  rfl

theorem FrontsAlike.exists_token_of_token {trees later : List Tree} {t' : Token}
    (fronts : S.FrontsAlike trees (.token t' :: later)) :
    ∃ t later', trees = .token t :: later' ∧ S.token.holds t' t := by
  cases fronts with
  | token same => exact ⟨_, _, rfl, same⟩

/-- Where a token is not next, it is next nowhere that the trees are alike. -/
theorem FrontsAlike.token?_eq_none {kind : TokenKind} (fronts : S.FrontsAlike c.rest c'.rest)
    (absent : ∀ t later, c.rest = .token t :: later → t.kind ≠ kind) : token? kind c' = .ok none c' := by
  refine token?_of_other fun t' later' rest' isKind => ?_
  obtain ⟨t, later, rest, same⟩ := FrontsAlike.exists_token_of_token (rest' ▸ fronts)
  exact absent t later rest (same.1.symm.trans isKind)

variable [S.IsLawful]

theorem follows_token_taken {kind : TokenKind} {t : Token} {later : List Tree} (rest : c.rest = .token t :: later)
    (isKind : t.kind = kind) : S.Follows view (token? kind) (token? kind) c' c S.token.option := by
  subst isKind
  refine follows_of_taken rest (token?_of_kind rest) fun e fronts => ?_
  obtain ⟨t', later', rest', same⟩ := FrontsAlike.exists_token (rest ▸ fronts)
  exact ⟨some t', same.1 ▸ token?_of_kind rest', .inr ⟨t', t, rfl, rfl, same⟩⟩

theorem follows_token? {kind : TokenKind} (notComma : kind ≠ .comma) :
    S.Follows view (token? kind) (token? kind) c' c S.token.option := by
  by_cases present : ∃ t later, c.rest = .token t :: later ∧ t.kind = kind
  · obtain ⟨t, later, rest, isKind⟩ := present
    exact follows_token_taken rest isKind
  have absent : ∀ t later, c.rest = .token t :: later → t.kind ≠ kind :=
    fun t later rest isKind => present ⟨t, later, rest, isKind⟩
  refine Follows.of_fronts (fun e fronts => ?_) fun _ stops => ?_
  · exact follows_left (token?_of_other absent) (fronts.token?_eq_none absent) (.inl ⟨rfl, rfl⟩)
  · refine follows_left (token?_of_other absent) (token?_of_other fun t later rest isKind => ?_) (.inl ⟨rfl, rfl⟩)
    exact notComma (isKind.symm.trans (kind_of_stops rest stops))

theorem follows_word? (word : String) :
    S.Follows view (word? word) (word? word) c' c (.eq Bool) := by
  by_cases present : ∃ t later, c.rest = .token t :: later ∧ t.isWord word
  · obtain ⟨t, later, rest, isWord⟩ := present
    refine follows_of_taken rest (word?_of_word rest isWord) fun e fronts => ?_
    obtain ⟨t', later', rest', same⟩ := FrontsAlike.exists_token (rest ▸ fronts)
    refine ⟨true, word?_of_word rest' ?_, rfl⟩
    rwa [Token.isWord, same.1, same.2.1]
  have absent : ∀ t later, c.rest = .token t :: later → t.isWord word = false :=
    fun t later rest => Bool.eq_false_iff.2 fun isWord => present ⟨t, later, rest, isWord⟩
  refine Follows.of_fronts (fun e fronts => ?_) fun _ stops => ?_
  · refine follows_left (word?_of_other absent) (word?_of_other fun t' later' rest' => ?_) rfl
    obtain ⟨t, later, rest, same⟩ := FrontsAlike.exists_token_of_token (rest' ▸ fronts)
    rw [Token.isWord, same.1, same.2.1]
    exact absent t later rest
  · refine follows_left (word?_of_other absent) (word?_of_other fun t later rest => ?_) rfl
    simp [Token.isWord, kind_of_stops rest stops]

/-- A required token may be a comma: without it the reader fails. -/
theorem follows_expect (kind : TokenKind) (context : String) (errorKind : ErrorKind) (base : S.Base c) :
    S.Follows view (expect kind context errorKind) (expect kind context errorKind) c' c S.token := by
  by_cases present : ∃ t later, c.rest = .token t :: later ∧ t.kind = kind
  · obtain ⟨t, later, rest, rfl⟩ := present
    refine follows_of_taken rest (expect_of_kind rest) fun e fronts => ?_
    obtain ⟨t', later', rest', same⟩ := FrontsAlike.exists_token (rest ▸ fronts)
    exact ⟨t', same.1 ▸ expect_of_kind rest', same⟩
  · have absent : ∀ t later, c.rest = .token t :: later → t.kind ≠ kind :=
      fun t later rest isKind => present ⟨t, later, rest, isKind⟩
    exact follows_of_failing base (expect_of_other absent) fun fronts =>
      bind_of_ok (fronts.token?_eq_none absent)

theorem follows_literal? (base : S.Base c) :
    S.Follows view literal? literal? c' c S.tokenLiteral.option := by
  have literal_eq {t t' : Token} (same : S.token.holds t' t) :
      (Tree.token t').isLiteral = (Tree.token t).isLiteral := by
    simp only [Tree.isLiteral, Token.isWord, same.1, same.2.1]
  by_cases present : ∃ t later, c.rest = .token t :: later ∧ (Tree.token t).isLiteral
  · obtain ⟨t, later, rest, isLiteral⟩ := present
    have read := literal?_of_literal rest isLiteral
    cases decoded : Literal.decode t.kind t.text with
    | ok l =>
        rw [decoded] at read
        refine follows_of_taken rest read fun e fronts => ?_
        obtain ⟨t', later', rest', same⟩ := FrontsAlike.exists_token (rest ▸ fronts)
        refine ⟨some ⟨l, t'⟩, ?_, .inr ⟨_, _, rfl, rfl, IsLawful.literal_self base rest decoded, same⟩⟩
        rw [literal?_of_literal rest' ((literal_eq same).trans isLiteral), same.1, same.2.1, decoded]
    | error fault =>
        rw [decoded] at read
        refine follows_of_error read fun level => ?_
        obtain ⟨t', later', rest', same⟩ := FrontsAlike.exists_token (rest ▸ fronts_of_level level)
        refine ⟨_, _, ?_, IsLawful.fails_literal base level rest rest' decoded⟩
        rw [literal?_of_literal rest' ((literal_eq same).trans isLiteral), same.1, same.2.1, decoded]
  have absent : ∀ t later, c.rest = .token t :: later → (Tree.token t).isLiteral = false :=
    fun t later rest => Bool.eq_false_iff.2 fun isLiteral => present ⟨t, later, rest, isLiteral⟩
  refine Follows.of_fronts (fun e fronts => ?_) fun _ stops => ?_
  · refine follows_left (literal?_of_other absent) (literal?_of_other fun t' later' rest' => ?_) (.inl ⟨rfl, rfl⟩)
    obtain ⟨t, later, rest, same⟩ := FrontsAlike.exists_token_of_token (rest' ▸ fronts)
    exact (literal_eq same).trans (absent t later rest)
  · refine follows_left (literal?_of_other absent) (literal?_of_other fun t later rest => ?_) (.inl ⟨rfl, rfl⟩)
    simp [Tree.isLiteral, Token.isWord, kind_of_stops rest stops, TokenKind.isLiteral]

/-- Readers follow each other that go on according to whether there is a comma, if they read nothing at the end. -/
theorem Follows.bind_comma? {k k' : Option Token → Reader β} (nothing : c.rest = [] → ∀ v d, k none c ≠ .ok v d)
    (present : ∀ t' t count, S.token.holds t' t → token? .comma c = .ok (some t) (c.skip count) →
      S.Follows view (k' (some t')) (k (some t)) (c'.skip count) (c.skip count) likeBehind)
    (absent : S.Follows view (k' none) (k none) c' c likeBehind) :
    S.Follows view (token? .comma >>= k') (token? .comma >>= k) c' c likeBehind := by
  by_cases isPresent : ∃ t later, c.rest = .token t :: later ∧ t.kind = .comma
  · obtain ⟨t, later, rest, isComma⟩ := isPresent
    refine (follows_token_taken rest isComma).bind fun found' found count related isFound => ?_
    obtain ⟨-, rfl⟩ | ⟨t', u, rfl, rfl, same⟩ := related
    · rw [← isComma, token?_of_kind rest] at isFound
      cases isFound
    · exact present t' u count same isFound
  have noComma : ∀ t later, c.rest = .token t :: later → t.kind ≠ .comma :=
    fun t later rest isComma => isPresent ⟨t, later, rest, isComma⟩
  have leaves := bind_of_ok (k := k) (token?_of_other noComma)
  constructor
  · intro v d read
    obtain ⟨count, within, behind, self, again⟩ := absent.reads v d (leaves.symm.trans read)
    refine ⟨count, within, behind, self, fun shown => ?_⟩
    obtain ⟨v', read', same⟩ := again shown
    rcases IsLawful.fronts_of_shown shown with fronts | ⟨stops, -⟩
    · exact ⟨v', (bind_of_ok (fronts.token?_eq_none noComma)).trans read', same⟩
    -- At the end the other cursor may be in front of a comma, but there nothing is read.
    · refine absurd (leaves.symm.trans read) (nothing ?_ v d)
      cases rest : c.rest with
      | nil => rfl
      | cons tree later =>
          cases tree with
          | token t => exact absurd (kind_of_stops rest stops) (noComma t later rest)
          | group =>
              rw [rest] at stops
              cases stops
  · intro failure d fails level
    obtain ⟨failure', d', fails', same⟩ := absent.fails failure d (leaves.symm.trans fails) level
    have leaves' := bind_of_ok (k := k') ((fronts_of_level level).token?_eq_none noComma)
    exact ⟨failure', d', leaves'.trans fails', same⟩

/-! ## The end -/

/-- Where all that is ahead is compared, readers follow each other that go on according to whether there is more. -/
theorem Follows.of_level {α : Type} {r r' : Reader α} {like : Likeness α}
    (follows : ∀ e : Cursor, e.isEmpty = c.isEmpty → S.Follows .all r' r e c like) : S.Follows .all r' r c' c like := by
  by_cases same : c'.isEmpty = c.isEmpty
  · exact follows c' same
  have sameEnd {trees trees' : List Tree} (fronts : S.FrontsAlike trees trees') : trees'.isEmpty = trees.isEmpty := by
    cases fronts <;> rfl
  have apart : ¬S.FrontsAlike c.rest c'.rest := fun fronts => same (sameEnd fronts)
  constructor
  · intro v d read
    obtain ⟨count, within, behind, self, -⟩ := (follows c rfl).reads v d read
    exact ⟨count, within, behind, self, fun shown => absurd (IsLawful.fronts_of_all shown) apart⟩
  · intro failure d fails level
    exact absurd (fronts_of_level level) apart

theorem follows_expectEnd (base : S.Base c) : S.Follows .all expectEnd expectEnd c' c (.eq Unit) := by
  refine Follows.of_level fun e sameEnd => follows_get ?_
  rw [sameEnd]
  cases c.isEmpty with
  | true => exact follows_pure rfl
  | false => exact follows_fail base

end Single

end Comparison

end AttrGrammar
