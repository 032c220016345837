import AttrGrammar.Proofs.Expression.Extent
import AttrGrammar.Proofs.Reading.Words

/-!
Contract: what a reader does depends on the trees that it consumes, and on no more than the end of an item behind
them.

Owns:
- the two views in which cursors are compared: by all that is ahead, or up to where an item of a list ends;
- readers that agree: one succeeds as the other does wherever the view shows the same trees, over as many trees and
  with the same value, and it fails as the other does where all that is ahead is the same;
- agreement for the rules by which readers are put together, and for the readers of single trees and groups.

Does not own: agreement of the readers of types, payloads and attributes.
-/

namespace AttrGrammar

namespace Cursor

/-! ## Cursors that have the same ahead -/

/-- Whether the trees ahead of two cursors are the same, and end at the same place. -/
structure Level (c c' : Cursor) : Prop where
  rest : c'.rest = c.rest
  finish : c'.finish = c.finish

namespace Level

variable {c c' : Cursor}

theorem refl (c : Cursor) : Level c c :=
  ⟨rfl, rfl⟩

theorem skip (level : Level c c') (count : Nat) : Level (c.skip count) (c'.skip count) where
  rest := by simp [Cursor.skip, level.rest]
  finish := level.finish

theorem position_eq (level : Level c c') : c'.position = c.position := by
  rw [position, position, level.rest, level.finish]

theorem found_eq (level : Level c c') : c'.found = c.found := by
  rw [found, found, current?, current?, level.rest]

theorem isAbsent_eq (level : Level c c') : c'.isAbsent = c.isAbsent := by
  rw [isAbsent, isAbsent, level.rest]

theorem isEmpty_eq (level : Level c c') : c'.isEmpty = c.isEmpty := by
  rw [isEmpty, isEmpty, level.rest]

theorem error_eq (level : Level c c') (kind : ErrorKind) (problem : Problem) :
    c'.error kind problem = c.error kind problem := by
  rw [error, error, level.position_eq]

theorem lookaheadError_eq (level : Level c c') (wanted : List Pattern) (kind : ErrorKind) :
    c'.lookaheadError wanted kind = c.lookaheadError wanted kind := by
  rw [lookaheadError, lookaheadError, level.isAbsent_eq, level.found_eq, level.error_eq]

end Level

/-- Of all tokens, only a comma is where an item may end. -/
theorem kind_of_stops {c : Cursor} {t : Token} {later : List Tree} (rest : c.rest = .token t :: later)
    (stops : Expr.Stops c.rest) : t.kind = .comma := by
  rw [rest] at stops
  exact of_decide_eq_true stops

end Cursor

/-- What two cursors are compared by: all that is ahead of them, or the trees up to where an item of a list ends. -/
inductive View where
  | all
  | item

namespace View

open Cursor

/-- Whether a view shows the same trees ahead of two cursors, as many as given at least. -/
def Same (view : View) (count : Nat) (c c' : Cursor) : Prop :=
  match view with
  | all => c.Level c'
  | item => ∃ trees more more', count ≤ trees.length ∧ (c.rest = trees ++ more ∧ Expr.Stops more) ∧
      c'.rest = trees ++ more' ∧ Expr.Stops more'

section Same

variable {view : View} {c c' : Cursor} {count : Nat}

theorem same_of_level (level : Level c c') (enough : count ≤ c.rest.length) :
    view.Same count c c' := by
  cases view with
  | all => exact level
  | item =>
      refine ⟨c.rest, [], [], enough, ⟨?_, trivial⟩, ?_, trivial⟩
      · rw [List.append_nil]
      · rw [List.append_nil, level.rest]

theorem Same.of_le {fewer : Nat} (same : view.Same count c c') (le : fewer ≤ count) :
    view.Same fewer c c' := by
  cases view with
  | all => exact same
  | item =>
      obtain ⟨trees, more, more', enough, ahead, ahead'⟩ := same
      exact ⟨trees, more, more', Nat.le_trans le enough, ahead, ahead'⟩

theorem Same.skip {behind : Nat} (same : view.Same (count + behind) c c') :
    view.Same behind (c.skip count) (c'.skip count) := by
  cases view with
  | all => exact Level.skip same count
  | item =>
      obtain ⟨trees, more, more', enough, ⟨rest, stops⟩, rest', stops'⟩ := same
      have within : count ≤ trees.length := by omega
      refine ⟨trees.drop count, more, more', ?_, ⟨?_, stops⟩, ?_, stops'⟩
      · rw [List.length_drop]
        omega
      · rw [Cursor.skip, rest, List.drop_append_of_le_length within]
      · rw [Cursor.skip, rest', List.drop_append_of_le_length within]

/-- A tree that is shown is ahead of both cursors. -/
theorem Same.exists_head {tree : Tree} {later : List Tree} (same : view.Same 1 c c')
    (rest : c.rest = tree :: later) : ∃ later', c'.rest = tree :: later' := by
  cases view with
  | all =>
      have level : Level c c' := same
      exact ⟨later, level.rest.trans rest⟩
  | item =>
      obtain ⟨trees, more, more', enough, ⟨shown, -⟩, shown', -⟩ := same
      cases trees with
      | nil => cases enough
      | cons first others =>
          rw [rest, List.cons_append] at shown
          obtain ⟨rfl, -⟩ := List.cons.inj shown
          exact ⟨others ++ more', shown'⟩

/-- Two cursors have the same tree next, or an item may end at both of them. -/
theorem Same.next (same : view.Same count c c') :
    (∃ tree later later', c.rest = tree :: later ∧ c'.rest = tree :: later') ∨
      Expr.Stops c.rest ∧ Expr.Stops c'.rest := by
  cases view with
  | all =>
      have level : Level c c' := same
      cases rest : c.rest with
      | nil => exact .inr ⟨trivial, by rw [level.rest, rest]; trivial⟩
      | cons tree later => exact .inl ⟨tree, later, later, rfl, level.rest.trans rest⟩
  | item =>
      obtain ⟨trees, more, more', -, ⟨rest, stops⟩, rest', stops'⟩ := same
      cases trees with
      | nil => exact .inr ⟨by rwa [rest], by rwa [rest']⟩
      | cons tree others => exact .inl ⟨tree, others ++ more, others ++ more', rest, rest'⟩

theorem Same.le_length (same : view.Same count c c') (within : count ≤ c.rest.length) :
    count ≤ c'.rest.length := by
  cases view with
  | all =>
      have level : Level c c' := same
      rwa [level.rest]
  | item =>
      obtain ⟨trees, more, more', enough, -, rest', -⟩ := same
      rw [rest', List.length_append]
      omega

/-- Between two cursors there is one with only the trees ahead that a view shows of both. -/
theorem Same.exists_between (same : view.Same count c c') : ∃ m : Cursor,
    (∃ more, c.rest = m.rest ++ more) ∧ (∃ more, c'.rest = m.rest ++ more) ∧
      view.Same count c m ∧ view.Same count m c' := by
  cases view with
  | all =>
      have level : Level c c' := same
      exact ⟨c, ⟨[], (List.append_nil _).symm⟩, ⟨[], by rw [List.append_nil, level.rest]⟩, .refl c,
        level⟩
  | item =>
      obtain ⟨trees, more, more', enough, ahead, ahead'⟩ := same
      have only : trees = trees ++ [] ∧ Expr.Stops [] := ⟨(List.append_nil _).symm, trivial⟩
      exact ⟨.ofTrees trees c.finish, ⟨more, ahead.1⟩, ⟨more', ahead'.1⟩,
        ⟨trees, more, [], enough, ahead, only⟩, ⟨trees, [], more', enough, only, ahead'⟩⟩

theorem Same.take_eq (same : view.Same count c c') : c'.rest.take count = c.rest.take count := by
  cases view with
  | all =>
      have level : Level c c' := same
      rw [level.rest]
  | item =>
      obtain ⟨trees, more, more', enough, ⟨rest, -⟩, rest', -⟩ := same
      rw [rest, rest', List.take_append_of_le_length enough, List.take_append_of_le_length enough]

end Same

end View

namespace Reader

open Cursor

/-- Whether two cursors are behind two others, over as many trees, all of which were there for the first. -/
def Advance (c d c' d' : Cursor) : Prop :=
  ∃ count, count ≤ c.rest.length ∧ d = c.skip count ∧ d' = c'.skip count

/-- Whether no token ahead of a cursor is a bracket. -/
def IsPlainAhead (c : Cursor) : Prop :=
  ∀ t ∈ Tree.leavesAll c.rest, t.IsPlain

section Advance

variable {c d c' d' : Cursor}

theorem Advance.length_le (advance : Advance c d c' d') : d.rest.length ≤ c.rest.length := by
  obtain ⟨count, -, rfl, -⟩ := advance
  rw [Cursor.skip, List.length_drop]
  omega

theorem skip_inj {c : Cursor} {m n : Nat} (within : m ≤ c.rest.length) (withinToo : n ≤ c.rest.length)
    (same : c.skip m = c.skip n) : m = n := by
  have lengths := congrArg (fun d => d.consumed.length) same
  simp only [Cursor.skip, List.length_append, List.length_reverse, List.length_take] at lengths
  omega

theorem Advance.eq_skip {count : Nat} (advance : Advance c (c.skip count) c' d')
    (within : count ≤ c.rest.length) : d' = c'.skip count := by
  obtain ⟨other, withinOther, same, rfl⟩ := advance
  rw [skip_inj within withinOther same]

theorem Advance.isPlainAhead (advance : Advance c d c' d') (plain : IsPlainAhead c) :
    IsPlainAhead d := by
  obtain ⟨count, -, rfl, -⟩ := advance
  intro t member
  exact plain t (Tree.leavesAll_drop_subset c.rest count member)

theorem IsPlainAhead.skip (plain : IsPlainAhead c) (count : Nat) : IsPlainAhead (c.skip count) :=
  fun t member => plain t (Tree.leavesAll_drop_subset c.rest count member)

theorem IsPlainAhead.inner {delimiter : Delimiter} {opening closing : Position}
    {inner later : List Tree} (plain : IsPlainAhead c)
    (rest : c.rest = .group delimiter opening closing inner :: later) :
    IsPlainAhead (.ofTrees inner closing) := by
  intro t member
  apply plain t
  rw [rest]
  exact List.mem_append_left _ member

end Advance

/-! ## Agreement -/

/-- Whether a reader at one cursor agrees with another reader at another one. Where the second succeeds, it moves
over some trees, and if a view shows these ahead of both cursors, the first succeeds with the same value and moves
over as many. Where the second fails, the first fails alike if all that is ahead is the same. -/
structure Agrees {α : Type} (view : View) (r' r : Reader α) (c' c : Cursor) : Prop where
  reads : ∀ v d, r c = .ok v d → ∃ count, count ≤ c.rest.length ∧ d = c.skip count ∧
    (view.Same count c c' → r' c' = .ok v (c'.skip count))
  fails : ∀ failure d, r c = .error failure d → Level c c' → ∃ d', r' c' = .error failure d'

section Rules

variable {α β : Type} {view : View} {r r' : Reader α} {k k' : α → Reader β} {c c' : Cursor}

/-- What agrees in the view of an item agrees in every view. -/
theorem Agrees.inView (agrees : Agrees .item r' r c' c) : Agrees view r' r c' c := by
  cases view with
  | item => exact agrees
  | all =>
      refine ⟨fun v d read => ?_, agrees.fails⟩
      obtain ⟨count, enough, behind, again⟩ := agrees.reads v d read
      exact ⟨count, enough, behind, fun level => again (View.same_of_level level enough)⟩

theorem agrees_pure (v : α) : Agrees view (pure v) (pure v) c' c where
  reads := by
    intro w d read
    obtain ⟨rfl, rfl⟩ := EStateM.Result.ok.inj read
    exact ⟨0, Nat.zero_le _, (skip_zero c).symm, fun _ => by rw [skip_zero]; rfl⟩
  fails := by
    intro failure d fails
    cases fails

theorem Agrees.bind (first : Agrees view r' r c' c)
    (later : ∀ v d d', r c = .ok v d → Advance c d c' d' → Agrees view (k' v) (k v) d' d) :
    Agrees view (r' >>= k') (r >>= k) c' c where
  reads := by
    intro w e read
    obtain ⟨v, d, readFirst, readLater⟩ := bind_eq_ok_iff.1 read
    obtain ⟨m, within, rfl, again⟩ := first.reads v d readFirst
    obtain ⟨n, withinLater, rfl, againLater⟩ :=
      (later v _ _ readFirst ⟨m, within, rfl, rfl⟩).reads w e readLater
    refine ⟨m + n, ?_, skip_skip c m n, fun same => ?_⟩
    · rw [Cursor.skip, List.length_drop] at withinLater
      omega
    · rw [bind_of_ok (again (same.of_le (Nat.le_add_right m n))), ← skip_skip]
      exact againLater same.skip
  fails := by
    intro failure e fails level
    rcases bind_eq_error_iff.1 fails with failsFirst | ⟨v, d, readFirst, failsLater⟩
    · obtain ⟨d', failsFirst'⟩ := first.fails failure e failsFirst level
      exact ⟨d', bind_eq_error_iff.2 (.inl failsFirst')⟩
    · obtain ⟨m, within, rfl, again⟩ := first.reads v d readFirst
      have readFirst' := again (View.same_of_level level within)
      obtain ⟨e', failsLater'⟩ :=
        (later v _ _ readFirst ⟨m, within, rfl, rfl⟩).fails failure e failsLater (level.skip m)
      exact ⟨e', bind_eq_error_iff.2 (.inr ⟨v, _, readFirst', failsLater'⟩)⟩

/-- Readers agree if they change what others yield that agree. -/
theorem Agrees.bind_pure (first : Agrees view r' r c' c) (f : α → β) :
    Agrees view (r' >>= fun v => pure (f v)) (r >>= fun v => pure (f v)) c' c :=
  first.bind fun v _ _ _ _ => agrees_pure (f v)

/-- Readers agree if others do that yield the same as each of them where it stands. -/
theorem Agrees.of_eq {s s' : Reader α} (agrees : Agrees view s' s c' c) (same : r c = s c)
    (same' : r' c' = s' c') : Agrees view r' r c' c where
  reads := by
    rw [same, same']
    exact agrees.reads
  fails := by
    rw [same, same']
    exact agrees.fails

/-- A reader that looks at the cursor first. -/
theorem agrees_get {k k' : Cursor → Reader β} (agrees : Agrees view (k' c') (k c) c' c) :
    Agrees view (get >>= k') (get >>= k) c' c :=
  ⟨agrees.reads, agrees.fails⟩

/-- Readers that fail with the same error where all that is ahead is the same. -/
theorem agrees_reject {e e' : ParseError} (same : Level c c' → e' = e) :
    Agrees view (reject e' : Reader α) (reject e) c' c where
  reads := by
    intro v d read
    cases read
  fails := by
    intro failure d fails level
    obtain ⟨rfl, rfl⟩ := EStateM.Result.error.inj fails
    rw [same level]
    exact ⟨c', rfl⟩

theorem agrees_fail (kind : ErrorKind) (problem : Found → Problem) :
    Agrees view (fail kind problem : Reader α) (fail kind problem) c' c := by
  refine agrees_get (agrees_reject fun level => ?_)
  rw [level.found_eq, level.error_eq]

/-- Readers that agree where the same tree is next agree everywhere, if the second reads nothing where an item may
end. -/
theorem Agrees.of_next (nothing : Expr.Stops c.rest → ∀ v d, r c ≠ .ok v d)
    (agrees : ∀ e : Cursor, e.position = c.position → e.rest.head? = c.rest.head? →
      Agrees view r' r e c) : Agrees view r' r c' c := by
  by_cases next : c'.position = c.position ∧ c'.rest.head? = c.rest.head?
  · exact agrees c' next.1 next.2
  · refine ⟨fun v d read => ?_, fun failure d fails level => ?_⟩
    · obtain ⟨count, within, behind, -⟩ := (agrees c rfl rfl).reads v d read
      refine ⟨count, within, behind, fun same => ?_⟩
      rcases same.next with ⟨tree, later, later', rest, rest'⟩ | ⟨stops, -⟩
      · refine absurd ⟨?_, ?_⟩ next
        · rw [Cursor.position, Cursor.position, rest, rest']
        · rw [rest, rest', List.head?_cons, List.head?_cons]
      · exact absurd read (nothing stops v d)
    · exact absurd ⟨level.position_eq, congrArg List.head? level.rest⟩ next

/-- In the view of all that is ahead, readers agree if they do where that is the same. -/
theorem Agrees.of_level (agrees : ∀ e : Cursor, Level c e → Agrees .all r' r e c) :
    Agrees .all r' r c' c := by
  by_cases level : Level c c'
  · exact agrees c' level
  · refine ⟨fun v d read => ?_, fun failure d fails isLevel => absurd isLevel level⟩
    obtain ⟨count, within, behind, -⟩ := (agrees c (.refl c)).reads v d read
    exact ⟨count, within, behind, fun isLevel => absurd isLevel level⟩

/-- Readers that agree on the trees of a group agree where these are read by a cursor of their own. -/
theorem Agrees.inside {inner : Cursor} (agrees : Agrees .all r' r inner inner) :
    Agrees view (inside inner r') (inside inner r) c' c where
  reads := by
    intro v d read
    cases result : r inner with
    | error failure e =>
        simp only [Reader.inside, result] at read
        cases read
    | ok w e =>
        simp only [Reader.inside, result] at read
        obtain ⟨rfl, rfl⟩ := EStateM.Result.ok.inj read
        obtain ⟨count, -, -, again⟩ := agrees.reads w e result
        refine ⟨0, Nat.zero_le _, (skip_zero c).symm, fun _ => ?_⟩
        rw [skip_zero]
        simp only [Reader.inside, again (Level.refl inner)]
  fails := by
    intro failure d fails level
    cases result : r inner with
    | ok w e =>
        simp only [Reader.inside, result] at fails
        cases fails
    | error failure' e =>
        simp only [Reader.inside, result] at fails
        obtain ⟨rfl, rfl⟩ := EStateM.Result.error.inj fails
        obtain ⟨e', fails'⟩ := agrees.fails failure' e result (.refl inner)
        exact ⟨c', by simp only [Reader.inside, fails']⟩

end Rules

/-! ## Single trees -/

section Single

variable {α β : Type} {view : View} {r : Reader α} {c c' : Cursor}

/-- A reader that consumes the next tree, whatever follows it, agrees with itself. -/
theorem agrees_of_taken {tree : Tree} {later : List Tree} {v : α} (rest : c.rest = tree :: later)
    (takes : ∀ (e : Cursor) (behind : List Tree), e.rest = tree :: behind → r e = .ok v (e.skip 1)) :
    Agrees view r r c' c where
  reads := by
    intro w d read
    rw [takes c later rest] at read
    obtain ⟨rfl, rfl⟩ := EStateM.Result.ok.inj read
    refine ⟨1, by simp [rest], rfl, fun same => ?_⟩
    obtain ⟨later', rest'⟩ := same.exists_head rest
    exact takes c' later' rest'
  fails := by
    intro failure d fails
    rw [takes c later rest] at fails
    cases fails

/-- A reader that fails with one error wherever all that is ahead is the same agrees with itself. -/
theorem agrees_of_error {failure : Failure}
    (fails : ∀ e : Cursor, Level c e → ∃ d, r e = .error failure d) : Agrees view r r c' c where
  reads := by
    intro v d read
    obtain ⟨e, failsHere⟩ := fails c (.refl c)
    rw [failsHere] at read
    cases read
  fails := by
    intro other d failsHere level
    obtain ⟨e, failsAlike⟩ := fails c (.refl c)
    rw [failsAlike] at failsHere
    obtain ⟨rfl, rfl⟩ := EStateM.Result.error.inj failsHere
    exact fails c' level

/-- A reader that fails, by what is ahead, wherever the same trees are ahead agrees with itself. -/
theorem agrees_of_failing {kind : ErrorKind} {problem : Found → Problem}
    (fails : ∀ e : Cursor, e.rest = c.rest → r e = fail kind problem e) : Agrees view r r c' c := by
  apply agrees_of_error
  intro e level
  have failsHere : r e = .error (.rejected (e.error kind (problem e.found))) e :=
    (fails e level.rest).trans rfl
  rw [level.found_eq, level.error_eq] at failsHere
  exact ⟨e, failsHere⟩

/-- A reader that leaves the next tree where it is agrees with itself, if only trees other than commas would keep it
from doing so. -/
theorem agrees_of_left {v : α} {present : Tree → Bool}
    (noComma : ∀ t : Token, t.kind = .comma → present (.token t) = false)
    (leaves : ∀ e : Cursor, (∀ tree later, e.rest = tree :: later → present tree = false) →
      r e = .ok v e)
    (absent : ∀ tree later, c.rest = tree :: later → present tree = false) :
    Agrees view r r c' c where
  reads := by
    intro w d read
    rw [leaves c absent] at read
    obtain ⟨rfl, rfl⟩ := EStateM.Result.ok.inj read
    refine ⟨0, Nat.zero_le _, (skip_zero c).symm, fun same => ?_⟩
    rw [skip_zero]
    apply leaves
    intro tree later' rest'
    rcases same.next with ⟨tree', later, behind, rest, restAgain⟩ | ⟨-, stops⟩
    · obtain ⟨rfl, -⟩ := List.cons.inj (rest'.symm.trans restAgain)
      exact absent tree later rest
    · cases tree with
      | token t => exact noComma t (kind_of_stops rest' stops)
      | group =>
          rw [rest'] at stops
          cases stops
  fails := by
    intro failure d fails
    rw [leaves c absent] at fails
    cases fails

/-- A reader that consumes the next tree if it is of some kind that commas are not of, and else leaves it, agrees
with itself. -/
theorem agrees_of_next {v : α} (present : Tree → Bool)
    (noComma : ∀ t : Token, t.kind = .comma → present (.token t) = false)
    (takes : ∀ tree, present tree → ∃ w, ∀ (e : Cursor) (behind : List Tree),
      e.rest = tree :: behind → r e = .ok w (e.skip 1))
    (leaves : ∀ e : Cursor, (∀ tree later, e.rest = tree :: later → present tree = false) →
      r e = .ok v e) :
    Agrees view r r c' c := by
  cases rest : c.rest with
  | nil =>
      apply agrees_of_left noComma leaves
      intro tree later restAgain
      rw [rest] at restAgain
      cases restAgain
  | cons tree later =>
      cases isPresent : present tree with
      | true =>
          obtain ⟨w, takes⟩ := takes tree isPresent
          exact agrees_of_taken rest takes
      | false =>
          apply agrees_of_left noComma leaves
          intro tree' later' restAgain
          obtain ⟨rfl, -⟩ := List.cons.inj (rest.symm.trans restAgain)
          exact isPresent

theorem agrees_token? {kind : TokenKind} (notComma : kind ≠ .comma) :
    Agrees view (token? kind) (token? kind) c' c := by
  apply agrees_of_next (Tree.isKind kind)
  · intro t isComma
    exact decide_eq_false fun isKind => notComma (isKind.symm.trans isComma)
  · intro tree isKind
    cases tree with
    | group => cases isKind
    | token t =>
        obtain rfl : t.kind = kind := of_decide_eq_true isKind
        exact ⟨some t, fun e behind rest => token?_of_kind rest⟩
  · intro e absent
    exact token?_of_other fun t later rest => of_decide_eq_false (absent _ later rest)

theorem agrees_word? (word : String) : Agrees view (word? word) (word? word) c' c := by
  apply agrees_of_next (Tree.isWord word)
  · intro t isComma
    simp [Tree.isWord, Token.isWord, isComma]
  · intro tree isWord
    cases tree with
    | group => cases isWord
    | token t => exact ⟨true, fun e behind rest => word?_of_word rest isWord⟩
  · intro e absent
    exact word?_of_other fun t later rest => absent _ later rest

theorem agrees_group? (d : Delimiter) : Agrees view (group? d) (group? d) c' c := by
  apply agrees_of_next (Tree.isGroup d)
  · intro t _
    rfl
  · intro tree isGroup
    cases tree with
    | token => cases isGroup
    | group delimiter opening closing inner =>
        obtain rfl : delimiter = d := of_decide_eq_true isGroup
        exact ⟨_, fun e behind rest => group?_of_group rest⟩
  · intro e absent
    apply group?_of_other
    intro opening closing inner later rest
    exact of_decide_eq_false (absent _ later rest) rfl

/-- A required token may be a comma: without it the reader fails. -/
theorem agrees_expect (kind : TokenKind) (context : String) (errorKind : ErrorKind) :
    Agrees view (expect kind context errorKind) (expect kind context errorKind) c' c := by
  by_cases present : ∃ t later, c.rest = .token t :: later ∧ t.kind = kind
  · obtain ⟨t, later, rest, rfl⟩ := present
    exact agrees_of_taken rest fun e behind restE => expect_of_kind restE
  · apply agrees_of_failing
    intro e same
    exact expect_of_other fun t later rest isKind =>
      present ⟨t, later, same.symm.trans rest, isKind⟩

/-! ## Readers that go on according to the next tree -/

section Next

variable {k k' : α → Reader β}

theorem Agrees.bind_taken {r' : Reader α} {tree : Tree} {later : List Tree} {v : α}
    (first : Agrees view r' r c' c) (rest : c.rest = tree :: later) (takes : r c = .ok v (c.skip 1))
    (behind : Agrees view (k' v) (k v) (c'.skip 1) (c.skip 1)) :
    Agrees view (r' >>= k') (r >>= k) c' c := by
  apply first.bind
  intro w d d' read advance
  rw [takes] at read
  obtain ⟨rfl, rfl⟩ := EStateM.Result.ok.inj read
  rwa [advance.eq_skip (by simp [rest])]

theorem Agrees.bind_left {r' : Reader α} {v : α} (first : Agrees view r' r c' c)
    (leaves : r c = .ok v c) (behind : Agrees view (k' v) (k v) c' c) :
    Agrees view (r' >>= k') (r >>= k) c' c := by
  apply first.bind
  intro w d d' read advance
  rw [leaves, ← skip_zero c] at read
  obtain ⟨rfl, rfl⟩ := EStateM.Result.ok.inj read
  rwa [advance.eq_skip (Nat.zero_le _), skip_zero, skip_zero]

end Next

theorem Agrees.bind_group? {d : Delimiter} {k k' : Option (Position × Cursor) → Reader β}
    (present : ∀ opening closing inner later, c.rest = .group d opening closing inner :: later →
      Agrees view (k' (some (opening, .ofTrees inner closing)))
        (k (some (opening, .ofTrees inner closing))) (c'.skip 1) (c.skip 1))
    (absent : Agrees view (k' none) (k none) c' c) :
    Agrees view (group? d >>= k') (group? d >>= k) c' c := by
  have first : Agrees view (group? d) (group? d) c' c := agrees_group? d
  by_cases isPresent : ∃ opening closing inner later, c.rest = .group d opening closing inner :: later
  · obtain ⟨opening, closing, inner, later, rest⟩ := isPresent
    exact first.bind_taken rest (group?_of_group rest) (present opening closing inner later rest)
  · apply first.bind_left (group?_of_other _) absent
    intro opening closing inner later rest
    exact isPresent ⟨opening, closing, inner, later, rest⟩

end Single

/-! ## The end -/

section End

variable {α : Type} {view : View} {r r' : Reader α} {c c' : Cursor}

theorem expectEnd_of_rest {tree : Tree} {later : List Tree} (rest : c.rest = tree :: later) :
    expectEnd c = fail .unexpectedToken .leftover c := by
  have notEmpty : c.isEmpty = false := by simp [Cursor.isEmpty, rest]
  show (if !c.isEmpty then _ else _ : Reader Unit) c = _
  rw [notEmpty]
  rfl

theorem agrees_expectEnd : Agrees .all expectEnd expectEnd c' c := by
  cases rest : c.rest with
  | nil =>
      refine ⟨fun v d read => ?_, fun failure d fails => ?_⟩
      · obtain ⟨-, rfl⟩ := expectEnd_eq_ok_iff.1 read
        refine ⟨0, Nat.zero_le _, (skip_zero d).symm, fun level => ?_⟩
        rw [skip_zero]
        exact expectEnd_eq_ok_iff.2 ⟨Level.rest level |>.trans rest, rfl⟩
      · rw [expectEnd_eq_ok_iff.2 ⟨rest, rfl⟩] at fails
        cases fails
  | cons tree later =>
      apply agrees_of_failing
      intro e same
      exact expectEnd_of_rest (same.trans rest)

theorem Agrees.whole (agrees : Agrees .all r' r c' c) :
    Agrees .all (whole r') (whole r) c' c := by
  apply agrees.bind
  intro v d d' _ _
  exact agrees_expectEnd.bind_pure _

end End

end Reader

end AttrGrammar
