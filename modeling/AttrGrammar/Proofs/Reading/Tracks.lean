import AttrGrammar.Cursor.Words
import AttrGrammar.Proofs.Expression.Reread

/-!
Contract: two readers side by side, on trees that differ in their places only.

Owns:
- twin cursors, and their moves over trees whose characters have values;
- one reader tracking another: where the first succeeds, the second does, over as many trees, with a result that
  is related to the first one, and where the first fails, the second fails alike;
- this for the rules by which readers are put together, and for the readers of single trees and groups.
-/

namespace AttrGrammar

namespace Cursor

theorem skip_skip (c : Cursor) (m n : Nat) : (c.skip m).skip n = c.skip (m + n) := by
  simp [skip, List.take_add]

theorem skip_zero (c : Cursor) : c.skip 0 = c := by
  simp [skip]

theorem skip_min (c : Cursor) (count : Nat) : c.skip (min count c.rest.length) = c.skip count := by
  rw [skip, skip, ← List.take_eq_take_min, ← List.drop_eq_drop_min]

theorem rest_skip_one {c : Cursor} {tree : Tree} {later : List Tree} (rest : c.rest = tree :: later) :
    (c.skip 1).rest = later := by
  simp [skip, rest]

/-- The trees since a mark are those that were skipped. -/
theorem since_skip (c : Cursor) (count : Nat) :
    (c.skip count).since c.index = c.rest.take count := by
  simp [since, skip, index]

/-- Whether two cursors stand in front of trees that differ in their places only, the values of literals among
them being equal to themselves. -/
structure Twin (c c' : Cursor) : Prop where
  alike : Tree.unplacedAll c'.rest = Tree.unplacedAll c.rest
  reflexive : ∀ t ∈ Tree.leavesAll c.rest, t.IsReflexive

/-- Whether two cursors move over as many trees, in the first of which characters have values. -/
def Moves (c d c' d' : Cursor) : Prop :=
  ∃ count, d = c.skip count ∧ d' = c'.skip count ∧
    ∀ t ∈ Tree.leavesAll (c.rest.take count), t.HasCharacter

section Moves

variable {c d e c' d' e' : Cursor}

theorem Moves.refl (c c' : Cursor) : Moves c c c' c' :=
  ⟨0, c.skip_zero.symm, c'.skip_zero.symm, by simp [Tree.leavesAll]⟩

theorem Moves.trans (first : Moves c d c' d') (second : Moves d e d' e') : Moves c e c' e' := by
  obtain ⟨m, rfl, rfl, inFirst⟩ := first
  obtain ⟨n, rfl, rfl, inSecond⟩ := second
  refine ⟨m + n, c.skip_skip m n, c'.skip_skip m n, ?_⟩
  rw [List.take_add, Tree.leavesAll_append]
  exact List.forall_mem_append.2 ⟨inFirst, inSecond⟩

theorem Moves.twin (moves : Moves c d c' d') (twin : Twin c c') : Twin d d' := by
  obtain ⟨count, rfl, rfl, -⟩ := moves
  constructor
  · simp only [skip, Tree.unplacedAll_drop, twin.alike]
  · intro t member
    exact twin.reflexive t (Tree.leavesAll_drop_subset c.rest count member)

def weight (c : Cursor) : Nat :=
  Tree.weightAll c.rest

theorem Moves.weight_le (moves : Moves c d c' d') : d.weight ≤ c.weight := by
  obtain ⟨count, rfl, -, -⟩ := moves
  exact Tree.weightAll_drop_le c.rest count

theorem Moves.length_le (moves : Moves c d c' d') : d.rest.length ≤ c.rest.length := by
  obtain ⟨count, rfl, -, -⟩ := moves
  simp [skip]

/-- A move to where less is left is a move over one tree at least. -/
theorem Moves.length_lt (moves : Moves c d c' d') (lighter : d.weight < c.weight) :
    d.rest.length < c.rest.length := by
  obtain ⟨count, rfl, -, -⟩ := moves
  cases count with
  | zero => exact absurd lighter (by rw [skip_zero]; exact Nat.lt_irrefl _)
  | succ count =>
      cases rest : c.rest with
      | nil => simp [weight, rest, Tree.weightAll] at lighter
      | cons tree later =>
          simp only [skip, rest, List.drop_succ_cons, List.length_drop, List.length_cons]
          omega

/-- A move over all trees shows that all their characters have values. -/
theorem Moves.hasCharacter (moves : Moves c d c' d') (atEnd : d.rest = []) :
    ∀ t ∈ Tree.leavesAll c.rest, t.HasCharacter := by
  obtain ⟨count, rfl, -, inTrees⟩ := moves
  have all : c.rest.take count = c.rest :=
    List.take_of_length_le (List.drop_eq_nil_iff.1 atEnd)
  rwa [all] at inTrees

theorem moves_skip_one {tree : Tree} {later : List Tree} (rest : c.rest = tree :: later)
    (leaves : ∀ t ∈ tree.leaves, t.HasCharacter) : Moves c (c.skip 1) c' (c'.skip 1) :=
  ⟨1, rfl, rfl, by simpa [rest, Tree.leavesAll] using leaves⟩

theorem moves_token {t : Token} {later : List Tree} (rest : c.rest = .token t :: later)
    (notChar : t.kind ≠ .char) : Moves c (c.skip 1) c' (c'.skip 1) := by
  refine moves_skip_one rest fun u member isChar => ?_
  obtain rfl := List.mem_singleton.1 member
  exact absurd isChar notChar

theorem weight_skip_one {tree : Tree} {later : List Tree} (rest : c.rest = tree :: later) :
    (c.skip 1).weight + tree.weight = c.weight := by
  simp [weight, skip, rest, Tree.weightAll, Nat.add_comm]

end Moves

end Cursor

namespace Reader

open Cursor

/-! ## Readers one behind the other -/

section Bind

variable {α β : Type} {r : Reader α} {k : α → Reader β} {c d : Cursor} {v : α}

theorem bind_of_ok (first : r c = .ok v d) : (r >>= k) c = k v d := by
  show EStateM.bind r k c = _
  rw [EStateM.bind, first]

theorem bind_eq_ok_iff {w : β} {e : Cursor} :
    (r >>= k) c = .ok w e ↔ ∃ v d, r c = .ok v d ∧ k v d = .ok w e := by
  constructor
  · intro read
    cases first : r c with
    | ok v d => exact ⟨v, d, rfl, (bind_of_ok first).symm.trans read⟩
    | error failure d =>
        have fails : (r >>= k) c = .error failure d := by
          show EStateM.bind r k c = _
          rw [EStateM.bind, first]
        rw [fails] at read
        cases read
  · rintro ⟨v, d, first, later⟩
    exact (bind_of_ok first).trans later

/-- What it takes for a reader to be read whose value is changed behind it. -/
theorem bind_pure_eq_ok_iff {f : α → β} {w : β} :
    (r >>= fun v => pure (f v)) c = .ok w d ↔ ∃ v, r c = .ok v d ∧ w = f v := by
  rw [bind_eq_ok_iff]
  constructor
  · rintro ⟨v, e, first, last⟩
    obtain ⟨rfl, rfl⟩ := EStateM.Result.ok.inj last
    exact ⟨v, first, rfl⟩
  · rintro ⟨v, first, rfl⟩
    exact ⟨v, d, first, rfl⟩

/-- What it takes for readers one behind the other to fail. -/
theorem bind_eq_error_iff {failure : Failure} {e : Cursor} :
    (r >>= k) c = .error failure e ↔
      r c = .error failure e ∨ ∃ v d, r c = .ok v d ∧ k v d = .error failure e := by
  cases first : r c with
  | ok v d =>
      rw [bind_of_ok first]
      constructor
      · intro fails
        exact .inr ⟨v, d, rfl, fails⟩
      · rintro (fails | ⟨w, d', same, fails⟩)
        · cases fails
        · obtain ⟨rfl, rfl⟩ := EStateM.Result.ok.inj same
          exact fails
  | error failure' d =>
      have fails : (r >>= k) c = .error failure' d := by
        show EStateM.bind r k c = _
        rw [EStateM.bind, first]
      rw [fails]
      constructor
      · intro same
        obtain ⟨rfl, rfl⟩ := EStateM.Result.error.inj same
        exact .inl rfl
      · rintro (same | ⟨v, d', same, -⟩)
        · obtain ⟨rfl, rfl⟩ := EStateM.Result.error.inj same
          rfl
        · cases same

end Bind

/-! ## Readers side by side -/

/-- Whether one reader tracks another. Where the second succeeds at its cursor, the first does at the twin, and both
move over as many trees: their values are related in the order of the readers, together with the cursor behind.
Where the second fails, the first fails with the same failure, places aside. -/
structure Tracks {α : Type} (r' r : Reader α) (c' c : Cursor) (related : α → α → Cursor → Prop) : Prop where
  reads : ∀ v d, r c = .ok v d → ∃ v' d', r' c' = .ok v' d' ∧ Moves c d c' d' ∧ related v' v d
  fails : ∀ failure d, r c = .error failure d →
    ∃ failure' d', r' c' = .error failure' d' ∧ failure'.unplaced = failure.unplaced

section Rules

variable {α β : Type} {c c' : Cursor} {related : α → α → Cursor → Prop}
  {relatedBehind : β → β → Cursor → Prop}

theorem tracks_of_ok {r r' : Reader α} {v v' : α} {d d' : Cursor} (read : r c = .ok v d)
    (read' : r' c' = .ok v' d') (moves : Moves c d c' d') (same : related v' v d) :
    Tracks r' r c' c related where
  reads := by
    intro w e isRead
    rw [read] at isRead
    obtain ⟨rfl, rfl⟩ := EStateM.Result.ok.inj isRead
    exact ⟨v', d', read', moves, same⟩
  fails := by
    intro failure e fails
    rw [read] at fails
    cases fails

theorem tracks_of_error {r r' : Reader α} {failure failure' : Failure} {d d' : Cursor}
    (fails : r c = .error failure d) (fails' : r' c' = .error failure' d')
    (same : failure'.unplaced = failure.unplaced) : Tracks r' r c' c related where
  reads := by
    intro v e read
    rw [fails] at read
    cases read
  fails := by
    intro other e isFailure
    rw [fails] at isFailure
    obtain ⟨rfl, rfl⟩ := EStateM.Result.error.inj isFailure
    exact ⟨failure', d', fails', same⟩

/-- Readers track each other if others do that do the same where they stand. -/
theorem Tracks.of_eq {r r' : Reader α} {s s' : Reader α}
    (tracks : Tracks s' s c' c related) (same : r c = s c) (same' : r' c' = s' c') :
    Tracks r' r c' c related :=
  ⟨same ▸ same' ▸ tracks.reads, same ▸ same' ▸ tracks.fails⟩

theorem tracks_pure {v v' : α} (same : related v' v c) :
    Tracks (pure v') (pure v) c' c related :=
  tracks_of_ok rfl rfl (Moves.refl c c') same

/-- Readers one behind the other track each other if the second do wherever the first have moved. -/
theorem Tracks.bind_of_moves {r r' : Reader α} {k k' : α → Reader β} (twin : Twin c c')
    (first : Tracks r' r c' c related)
    (later : ∀ v' v d' d, Twin d d' → Moves c d c' d' → related v' v d →
      Tracks (k' v') (k v) d' d relatedBehind) :
    Tracks (r' >>= k') (r >>= k) c' c relatedBehind where
  reads := by
    intro w e read
    obtain ⟨v, d, readFirst, readLater⟩ := bind_eq_ok_iff.1 read
    obtain ⟨v', d', readFirst', moves, same⟩ := first.reads v d readFirst
    obtain ⟨w', e', readLater', movesBehind, sameBehind⟩ :=
      (later v' v d' d (moves.twin twin) moves same).reads w e readLater
    exact ⟨w', e', (bind_of_ok readFirst').trans readLater', moves.trans movesBehind, sameBehind⟩
  fails := by
    intro failure e fails
    rcases bind_eq_error_iff.1 fails with failsFirst | ⟨v, d, readFirst, failsLater⟩
    · obtain ⟨failure', d', failsFirst', same⟩ := first.fails failure e failsFirst
      exact ⟨failure', d', bind_eq_error_iff.2 (.inl failsFirst'), same⟩
    · obtain ⟨v', d', readFirst', moves, same⟩ := first.reads v d readFirst
      obtain ⟨failure', e', failsLater', sameFailure⟩ :=
        (later v' v d' d (moves.twin twin) moves same).fails failure e failsLater
      exact ⟨failure', e', bind_eq_error_iff.2 (.inr ⟨v', d', readFirst', failsLater'⟩), sameFailure⟩

theorem Tracks.bind {r r' : Reader α} {k k' : α → Reader β} (twin : Twin c c')
    (first : Tracks r' r c' c related)
    (later : ∀ v' v d' d, Twin d d' → d.weight ≤ c.weight → related v' v d →
      Tracks (k' v') (k v) d' d relatedBehind) :
    Tracks (r' >>= k') (r >>= k) c' c relatedBehind :=
  first.bind_of_moves twin fun v' v d' d twinD moves => later v' v d' d twinD moves.weight_le

/-- A reader that looks at the cursor first. -/
theorem tracks_get {k k' : Cursor → Reader β} (tracks : Tracks (k' c') (k c) c' c relatedBehind) :
    Tracks (get >>= k') (get >>= k) c' c relatedBehind :=
  ⟨tracks.reads, tracks.fails⟩

/-- Readers that only fail, and do so alike. -/
theorem tracks_reject {e e' : ParseError} (same : e'.unplaced = e.unplaced) :
    Tracks (reject e') (reject e) c' c related :=
  tracks_of_error rfl rfl (congrArg Failure.rejected same)

theorem found_eq_of_twin (twin : Twin c c') : c'.found = c.found := by
  have placeless (tree : Option Tree) : Found.ofTree? (tree.map Tree.unplaced) = Found.ofTree? tree := by
    rcases tree with - | ⟨_ | _⟩ <;> rfl
  rw [Cursor.found, Cursor.found, ← placeless, ← placeless c.current?, current?, current?,
    ← List.getElem?_map, ← List.getElem?_map, ← Tree.unplacedAll_eq_map, ← Tree.unplacedAll_eq_map,
    twin.alike]

theorem isAbsent_eq_of_twin (twin : Twin c c') : c'.isAbsent = c.isAbsent := by
  have placeless (c : Cursor) :
      (⟨c.consumed, Tree.unplacedAll c.rest, c.finish⟩ : Cursor).isAbsent = c.isAbsent := by
    obtain ⟨_, _ | ⟨_ | _, _⟩, _⟩ := c <;> rfl
  rw [← placeless c', ← placeless c, twin.alike]
  rfl

theorem tracks_fail (twin : Twin c c') (kind : ErrorKind) (problem : Found → Problem) :
    Tracks (fail kind problem) (fail kind problem) c' c related := by
  refine tracks_get (tracks_reject ?_)
  rw [found_eq_of_twin twin]
  rfl

end Rules

/-! ## What readers of single trees do -/

section Single

variable {c : Cursor} {t : Token} {later : List Tree}

theorem token?_of_kind (rest : c.rest = .token t :: later) :
    token? t.kind c = .ok (some t) (c.skip 1) := by
  obtain ⟨consumed, trees, finish⟩ := c
  obtain rfl : trees = .token t :: later := rest
  show (if t.kind = t.kind then _ else _ : Reader (Option Token)) _ = _
  rw [if_pos rfl]
  rfl

theorem token?_of_other {kind : TokenKind} (other : ∀ t later, c.rest = .token t :: later →
    t.kind ≠ kind) : token? kind c = .ok none c := by
  obtain ⟨consumed, trees, finish⟩ := c
  rcases trees with - | ⟨u | _, behind⟩
  · rfl
  · show (if u.kind = kind then _ else _ : Reader (Option Token)) _ = _
    rw [if_neg (other u behind rfl)]
    rfl
  · rfl

theorem word?_of_word {word : String} (rest : c.rest = .token t :: later)
    (isWord : t.isWord word) : word? word c = .ok true (c.skip 1) := by
  obtain ⟨consumed, trees, finish⟩ := c
  obtain rfl : trees = .token t :: later := rest
  show (if t.isWord word then _ else _ : Reader Bool) _ = _
  rw [if_pos isWord]
  rfl

theorem word?_of_other {word : String} (other : ∀ t later, c.rest = .token t :: later →
    t.isWord word = false) : word? word c = .ok false c := by
  obtain ⟨consumed, trees, finish⟩ := c
  rcases trees with - | ⟨u | _, behind⟩
  · rfl
  · show (if u.isWord word then _ else _ : Reader Bool) _ = _
    rw [if_neg (Bool.eq_false_iff.1 (other u behind rfl))]
    rfl
  · rfl

theorem group?_of_group {d : Delimiter} {opening closing : Position} {inner : List Tree}
    (rest : c.rest = .group d opening closing inner :: later) :
    group? d c = .ok (some (opening, .ofTrees inner closing)) (c.skip 1) := by
  obtain ⟨consumed, trees, finish⟩ := c
  obtain rfl : trees = .group d opening closing inner :: later := rest
  show (if d = d then _ else _ : Reader (Option (Position × Cursor))) _ = _
  rw [if_pos rfl]
  rfl

theorem group?_of_other {d : Delimiter} (other : ∀ opening closing inner later,
    c.rest ≠ .group d opening closing inner :: later) : group? d c = .ok none c := by
  obtain ⟨consumed, trees, finish⟩ := c
  rcases trees with - | ⟨_ | ⟨delimiter, opening, closing, inner⟩, behind⟩
  · rfl
  · rfl
  · show (if delimiter = d then _ else _ : Reader (Option (Position × Cursor))) _ = _
    rw [if_neg]
    · rfl
    · rintro rfl
      exact other opening closing inner behind rfl

end Single

/-! ## Single trees -/

section Twins

variable {c c' : Cursor}

/-- How the results of consuming a token or not are related: what is left weighs less if one was consumed. -/
def SameToken (c : Cursor) (read' read : Option Token) (d : Cursor) : Prop :=
  (∃ t' t, read' = some t' ∧ read = some t ∧ t'.unplaced = t.unplaced ∧ d.weight < c.weight) ∨
    (read' = none ∧ read = none)

theorem tracks_token? (twin : Twin c c') {kind : TokenKind} (notChar : kind ≠ .char) :
    Tracks (token? kind) (token? kind) c' c (SameToken c) := by
  by_cases present : ∃ t later, c.rest = .token t :: later ∧ t.kind = kind
  · obtain ⟨t, later, rest, rfl⟩ := present
    obtain ⟨t', later', rest', sameToken, -⟩ := Tree.exists_token_of_alike (rest ▸ twin.alike)
    have sameKind := Token.kind_eq_of_alike sameToken
    have lighter := weight_skip_one rest
    refine tracks_of_ok (token?_of_kind rest) (sameKind ▸ token?_of_kind rest')
      (moves_token rest notChar) (.inl ⟨t', t, rfl, rfl, sameToken, ?_⟩)
    rw [Tree.weight] at lighter
    omega
  · have absent := token?_of_other fun t later rest isKind => present ⟨t, later, rest, isKind⟩
    refine tracks_of_ok absent (token?_of_other ?_) (Moves.refl c c') (.inr ⟨rfl, rfl⟩)
    intro t' later' rest' isKind
    obtain ⟨t, later, rest, sameToken, -⟩ := Tree.exists_token_of_alike (rest' ▸ twin.alike.symm)
    exact present ⟨t, later, rest, (Token.kind_eq_of_alike sameToken).trans isKind⟩

theorem tracks_word? (twin : Twin c c') (word : String) :
    Tracks (word? word) (word? word) c' c fun v' v _ => v' = v := by
  by_cases present : ∃ t later, c.rest = .token t :: later ∧ t.isWord word
  · obtain ⟨t, later, rest, isWord⟩ := present
    obtain ⟨t', later', rest', sameToken, -⟩ := Tree.exists_token_of_alike (rest ▸ twin.alike)
    have notChar : t.kind ≠ .char := by
      intro isChar
      simp [Token.isWord, isChar] at isWord
    have isWord' := (Token.isWord_eq_of_alike sameToken word).trans isWord
    exact tracks_of_ok (word?_of_word rest isWord) (word?_of_word rest' isWord')
      (moves_token rest notChar) rfl
  · have absent := word?_of_other fun t later rest =>
      Bool.eq_false_iff.2 fun isWord => present ⟨t, later, rest, isWord⟩
    refine tracks_of_ok absent (word?_of_other ?_) (Moves.refl c c') rfl
    intro t' later' rest'
    obtain ⟨t, later, rest, sameToken, -⟩ := Tree.exists_token_of_alike (rest' ▸ twin.alike.symm)
    refine Bool.eq_false_iff.2 fun isWord => present ⟨t, later, rest, ?_⟩
    rwa [Token.isWord_eq_of_alike sameToken word]

/-- A token of a kind that is no character is expected by twins alike. -/
theorem tracks_expect (twin : Twin c c') {kind : TokenKind} (notChar : kind ≠ .char)
    (context : String) (errorKind : ErrorKind) :
    Tracks (expect kind context errorKind) (expect kind context errorKind) c' c
      fun t' t d => t'.unplaced = t.unplaced ∧ d.weight < c.weight := by
  refine (tracks_token? twin notChar).bind twin ?_
  rintro _ _ d' d twinD - (⟨t', t, rfl, rfl, sameToken, lighter⟩ | ⟨rfl, rfl⟩)
  · exact tracks_pure ⟨sameToken, lighter⟩
  · exact tracks_fail twinD _ _

theorem isEmpty_eq_of_twin (twin : Twin c c') : c'.isEmpty = c.isEmpty := by
  have sameLength := Tree.length_eq_of_alike twin.alike
  rw [Cursor.isEmpty, Cursor.isEmpty, Bool.eq_iff_iff, List.isEmpty_iff_length_eq_zero,
    List.isEmpty_iff_length_eq_zero, sameLength]

theorem expectEnd_eq_ok_iff {d : Cursor} : expectEnd c = .ok () d ↔ c.rest = [] ∧ d = c := by
  obtain ⟨consumed, trees, finish⟩ := c
  cases trees with
  | nil =>
      constructor
      · intro read
        exact ⟨rfl, (EStateM.Result.ok.inj read).2.symm⟩
      · rintro ⟨-, rfl⟩
        rfl
  | cons tree later => exact ⟨nofun, nofun⟩

/-- What it takes for a reader to read all trees. -/
theorem whole_eq_ok_iff {α : Type} {r : Reader α} {a : α} {d : Cursor} :
    whole r c = .ok a d ↔ r c = .ok a d ∧ d.rest = [] := by
  refine bind_eq_ok_iff.trans ⟨?_, fun ⟨read, atEnd⟩ => ⟨a, d, read, ?_⟩⟩
  · rintro ⟨b, e, read, rest⟩
    obtain ⟨_, f, ended, last⟩ := bind_eq_ok_iff.1 rest
    obtain ⟨atEnd, rfl⟩ := expectEnd_eq_ok_iff.1 ended
    obtain ⟨rfl, rfl⟩ := EStateM.Result.ok.inj last
    exact ⟨read, atEnd⟩
  · exact bind_eq_ok_iff.2 ⟨(), d, expectEnd_eq_ok_iff.2 ⟨atEnd, rfl⟩, rfl⟩

theorem tracks_expectEnd (twin : Twin c c') :
    Tracks expectEnd expectEnd c' c fun _ _ d => d.rest = [] := by
  refine tracks_get ?_
  rw [isEmpty_eq_of_twin twin]
  cases isEmpty : c.isEmpty with
  | true => exact tracks_pure (List.isEmpty_iff.1 isEmpty)
  | false => exact tracks_fail twin _ _

theorem Tracks.whole {α : Type} {r r' : Reader α} {related : α → α → Prop}
    (twin : Twin c c') (tracks : Tracks r' r c' c fun v' v _ => related v' v) :
    Tracks (whole r') (whole r) c' c fun v' v d => related v' v ∧ d.rest = [] := by
  refine tracks.bind twin fun v' v d' d twin' _ same => ?_
  refine (tracks_expectEnd twin').bind twin' fun _ _ e' e _ _ atEnd => ?_
  exact tracks_pure ⟨same, atEnd⟩

/-! ## Groups -/

/-- Whether one reader tracks another on the trees of groups, all of which are read if it succeeds, while the outer
cursors stay where they are. -/
structure TracksInside {α : Type} (r' r : Reader α) (inner : List Tree) (related : α → α → Prop) :
    Prop where
  reads : ∀ outer' outer v e, r outer = .ok v e →
    e = outer ∧ (∀ t ∈ Tree.leavesAll inner, t.HasCharacter) ∧
      ∃ v', r' outer' = .ok v' outer' ∧ related v' v
  fails : ∀ outer' outer failure e, r outer = .error failure e →
    ∃ failure' e', r' outer' = .error failure' e' ∧ failure'.unplaced = failure.unplaced

theorem Tracks.inside {α : Type} {r r' : Reader α} {related : α → α → Prop}
    {inner inner' : List Tree} {closing closing' : Position}
    (tracks : Tracks r' r (.ofTrees inner' closing') (.ofTrees inner closing)
      fun v' v d => related v' v ∧ d.rest = []) :
    TracksInside (inside (.ofTrees inner' closing') r') (inside (.ofTrees inner closing) r)
      inner related := by
  cases result : r (.ofTrees inner closing) with
  | error failure d =>
      obtain ⟨failure', d', fails', same⟩ := tracks.fails failure d result
      constructor
      · intro outer' outer v e read
        simp only [Reader.inside, result] at read
        cases read
      · intro outer' outer f e fails
        simp only [Reader.inside, result] at fails
        obtain ⟨rfl, rfl⟩ := EStateM.Result.error.inj fails
        exact ⟨failure', outer', by simp only [Reader.inside, fails'], same⟩
  | ok w d =>
      obtain ⟨v', d', read', moves, same, atEnd⟩ := tracks.reads w d result
      constructor
      · intro outer' outer v e read
        simp only [Reader.inside, result] at read
        obtain ⟨rfl, rfl⟩ := EStateM.Result.ok.inj read
        exact ⟨rfl, moves.hasCharacter atEnd, v', by simp only [Reader.inside, read'], same⟩
      · intro outer' outer f e fails
        simp only [Reader.inside, result] at fails
        cases fails

theorem TracksInside.bind {α β : Type} {r r' : Reader α} {k k' : α → Reader β}
    {related : α → α → Prop} {relatedBehind : β → β → Prop} {inner : List Tree}
    (tracks : TracksInside r' r inner related)
    (later : ∀ v' v, related v' v →
      ∃ w' w, k' v' = pure w' ∧ k v = pure w ∧ relatedBehind w' w) :
    TracksInside (r' >>= k') (r >>= k) inner relatedBehind where
  reads := by
    intro outer' outer w e read
    obtain ⟨v, d, readFirst, readLater⟩ := bind_eq_ok_iff.1 read
    obtain ⟨rfl, inInner, v', readFirst', same⟩ := tracks.reads outer' outer v d readFirst
    obtain ⟨x', x, isPure', isPure, sameBehind⟩ := later v' v same
    rw [isPure] at readLater
    obtain ⟨rfl, rfl⟩ := EStateM.Result.ok.inj readLater
    refine ⟨rfl, inInner, x', ?_, sameBehind⟩
    rw [bind_of_ok readFirst', isPure']
    rfl
  fails := by
    intro outer' outer failure e fails
    rcases bind_eq_error_iff.1 fails with failsFirst | ⟨v, d, readFirst, failsLater⟩
    · obtain ⟨failure', e', failsFirst', same⟩ := tracks.fails outer' outer failure e failsFirst
      exact ⟨failure', e', bind_eq_error_iff.2 (.inl failsFirst'), same⟩
    · obtain ⟨-, -, v', -, same⟩ := tracks.reads outer' outer v d readFirst
      obtain ⟨_, _, -, isPure, -⟩ := later v' v same
      rw [isPure] at failsLater
      cases failsLater

/-- Readers that go on according to whether there is a group. -/
theorem Tracks.bind_group? {β : Type} {k k' : Option (Position × Cursor) → Reader β}
    {d : Delimiter} {related : β → β → Prop} (twin : Twin c c')
    (opened : ∀ opening closing inner opening' closing' inner',
      Twin (.ofTrees inner closing) (.ofTrees inner' closing') →
      Tree.weightAll inner < c.weight →
        TracksInside (k' (some (opening', .ofTrees inner' closing')))
          (k (some (opening, .ofTrees inner closing))) inner related)
    (other : Tracks (k' none) (k none) c' c fun v' v _ => related v' v) :
    Tracks (group? d >>= k') (group? d >>= k) c' c fun v' v _ => related v' v := by
  by_cases present : ∃ opening closing inner later, c.rest = .group d opening closing inner :: later
  · obtain ⟨opening, closing, inner, later, rest⟩ := present
    obtain ⟨opening', closing', inner', later', rest', sameInner, -⟩ :=
      Tree.exists_group_of_alike (rest ▸ twin.alike)
    have twinInner : Twin (.ofTrees inner closing) (.ofTrees inner' closing') := by
      refine ⟨sameInner, fun t member => twin.reflexive t ?_⟩
      rw [rest]
      exact List.mem_append_left _ member
    have lighter := weight_skip_one rest
    rw [Tree.weight] at lighter
    have tracks := opened opening closing inner opening' closing' inner' twinInner (by omega)
    have skipped := bind_of_ok (k := k) (group?_of_group rest)
    have skipped' := bind_of_ok (k := k') (group?_of_group rest')
    constructor
    · intro v e read
      rw [skipped] at read
      obtain ⟨rfl, inInner, v', read', same⟩ := tracks.reads (c'.skip 1) (c.skip 1) v e read
      exact ⟨v', _, skipped'.trans read', moves_skip_one rest inInner, same⟩
    · intro failure e fails
      rw [skipped] at fails
      obtain ⟨failure', e', fails', same⟩ := tracks.fails (c'.skip 1) (c.skip 1) failure e fails
      exact ⟨failure', e', skipped'.trans fails', same⟩
  · have noGroup : group? d c = .ok none c :=
      group?_of_other fun opening closing inner later rest =>
        present ⟨opening, closing, inner, later, rest⟩
    have noGroup' : group? d c' = .ok none c' := by
      refine group?_of_other fun opening' closing' inner' later' rest' => present ?_
      obtain ⟨opening, closing, inner, later, rest, -⟩ :=
        Tree.exists_group_of_alike (rest' ▸ twin.alike.symm)
      exact ⟨opening, closing, inner, later, rest⟩
    exact other.of_eq (bind_of_ok noGroup) (bind_of_ok noGroup')

theorem openGroup_bind {α : Type} (d : Delimiter) (context : String) (k : Cursor → Reader α) :
    openGroup d context >>= k = (do
      match ← group? d with
      | some (_, inner) => k inner
      | none => reject ((← get).groupError d context)) := by
  rw [openGroup, bind_assoc]
  congr 1
  funext found
  cases found <;> rfl

/-- Readers of a group that is required. -/
theorem Tracks.bind_openGroup {β : Type} {k k' : Cursor → Reader β} {d : Delimiter} {context : String}
    {related : β → β → Prop} (twin : Twin c c')
    (opened : ∀ closing inner closing' inner', Twin (.ofTrees inner closing) (.ofTrees inner' closing') →
      TracksInside (k' (.ofTrees inner' closing')) (k (.ofTrees inner closing)) inner related) :
    Tracks (openGroup d context >>= k') (openGroup d context >>= k) c' c fun v' v _ => related v' v := by
  rw [openGroup_bind, openGroup_bind]
  refine Tracks.bind_group? twin ?_ (tracks_get (tracks_reject ?_))
  · rintro opening closing inner opening' closing' inner' twinInner -
    exact opened closing inner closing' inner' twinInner
  · rw [groupError, groupError, isAbsent_eq_of_twin twin, found_eq_of_twin twin]
    rfl

end Twins

end Reader

end AttrGrammar
