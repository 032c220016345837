import AttrGrammar.Tree.Grouping

/-!
Contract: grouping tokens into trees is inverse to flattening trees.

Owns:
- the tokens of trees that stand for themselves, and which tokens can;
- trees and tokens without their places, and the tokens of marks by themselves;
- the tokens that trees were made of are the tokens that they are flattened to;
- the trees of the tokens that trees are flattened to are those trees.
-/

namespace AttrGrammar

namespace Tree

mutual

/-- The tokens of a tree that are no brackets of groups. -/
def leaves : Tree → List Token
  | token t => [t]
  | group _ _ _ trees => leavesAll trees

/-- The tokens of trees that are no brackets of groups. -/
def leavesAll : List Tree → List Token
  | [] => []
  | tree :: later => leaves tree ++ leavesAll later

end

@[simp] theorem leavesAll_append (front back : List Tree) :
    leavesAll (front ++ back) = leavesAll front ++ leavesAll back := by
  induction front with
  | nil => rfl
  | cons tree front inductionHypothesis =>
      simp only [List.cons_append, leavesAll, inductionHypothesis, List.append_assoc]

theorem mem_leavesAll {t : Token} {trees : List Tree} :
    t ∈ leavesAll trees ↔ ∃ tree ∈ trees, t ∈ tree.leaves := by
  induction trees with
  | nil => simp [leavesAll]
  | cons tree later inductionHypothesis => simp [leavesAll, inductionHypothesis]

theorem leavesAll_take_subset (trees : List Tree) (count : Nat) :
    leavesAll (trees.take count) ⊆ leavesAll trees := by
  intro t member
  rw [← List.take_append_drop count trees, leavesAll_append]
  exact List.mem_append_left _ member

theorem leavesAll_drop_subset (trees : List Tree) (count : Nat) :
    leavesAll (trees.drop count) ⊆ leavesAll trees := by
  intro t member
  rw [← List.take_append_drop count trees, leavesAll_append]
  exact List.mem_append_right _ member

@[simp] theorem flattenAll_append (front back : List Tree) :
    flattenAll (front ++ back) = flattenAll front ++ flattenAll back := by
  induction front with
  | nil => rfl
  | cons tree front inductionHypothesis =>
      simp only [List.cons_append, flattenAll, inductionHypothesis, List.append_assoc]

mutual

theorem leaves_subset_flatten : ∀ tree : Tree, tree.leaves ⊆ tree.flatten
  | token _ => fun _ member => member
  | group delimiter opening closing trees => fun t member => by
      have inner := leavesAll_subset_flattenAll trees member
      simp [flatten, inner]

theorem leavesAll_subset_flattenAll : ∀ trees : List Tree, leavesAll trees ⊆ flattenAll trees
  | [] => fun _ member => member
  | tree :: later => fun t member => by
      rcases List.mem_append.1 member with first | behind
      · exact List.mem_append_left _ (leaves_subset_flatten tree first)
      · exact List.mem_append_right _ (leavesAll_subset_flattenAll later behind)

end

mutual

theorem mem_flatten {t : Token} : ∀ {tree : Tree}, t ∈ tree.flatten →
    t ∈ tree.leaves ∨ ∃ d : Delimiter, t.kind = d.openKind ∨ t.kind = d.closeKind
  | token _, member => .inl member
  | group d opening closing trees, member => by
      rcases List.mem_append.1 member with front | back
      · rcases List.mem_cons.1 front with rfl | inner
        · exact .inr ⟨d, .inl rfl⟩
        · exact mem_flattenAll inner
      · obtain rfl := List.mem_singleton.1 back
        exact .inr ⟨d, .inr rfl⟩

/-- Trees are flattened to their leaves and to brackets. -/
theorem mem_flattenAll {t : Token} : ∀ {trees : List Tree}, t ∈ flattenAll trees →
    t ∈ leavesAll trees ∨ ∃ d : Delimiter, t.kind = d.openKind ∨ t.kind = d.closeKind
  | tree :: later, member => by
      rcases List.mem_append.1 member with first | behind
      · exact (mem_flatten first).imp_left fun leaf => List.mem_append_left _ leaf
      · exact (mem_flattenAll behind).imp_left fun leaf => List.mem_append_right _ leaf

end

end Tree

/-! ## Places aside -/

/-- A token without its place. -/
def Token.unplaced (t : Token) : Token :=
  { t with position := .nowhere }

/-- The token of a kind with one spelling, by itself. -/
def Token.mark (kind : TokenKind) : Token :=
  ⟨kind, String.ofList kind.spelling, .nowhere, false⟩

theorem Token.unplaced_eq_iff {t u : Token} :
    t.unplaced = u.unplaced ↔ t.kind = u.kind ∧ t.text = u.text ∧ t.joint = u.joint := by
  simp [Token.unplaced]

namespace Tree

mutual

/-- A tree without its places. -/
def unplaced : Tree → Tree
  | token t => token t.unplaced
  | group delimiter _ _ trees => group delimiter .nowhere .nowhere (unplacedAll trees)

/-- Trees without their places. -/
def unplacedAll : List Tree → List Tree
  | [] => []
  | tree :: later => unplaced tree :: unplacedAll later

end

theorem unplacedAll_eq_map (trees : List Tree) : unplacedAll trees = trees.map unplaced := by
  induction trees with
  | nil => rfl
  | cons tree later inductionHypothesis => simp [unplacedAll, inductionHypothesis]

end Tree

/-! ## From tokens to trees -/

/-- Whether a token can stand for itself in trees: it is no bracket, and not the end. -/
def Token.IsPlain (t : Token) : Prop :=
  Delimiter.ofOpen? t.kind = none ∧ Delimiter.ofClose? t.kind = none ∧ t.kind ≠ .eof

instance (t : Token) : Decidable t.IsPlain :=
  inferInstanceAs (Decidable (_ ∧ _))

/-- Whether a token has the text that trees give to it if it is a bracket. -/
def Token.IsSpelled (t : Token) : Prop :=
  ∀ d : Delimiter, (t.kind = d.openKind → t = ⟨d.openKind, d.openText, t.position, false⟩) ∧
    (t.kind = d.closeKind → t = ⟨d.closeKind, d.closeText, t.position, false⟩)

namespace Delimiter

theorem ofOpen?_eq_some_iff {kind : TokenKind} {d : Delimiter} :
    ofOpen? kind = some d ↔ kind = d.openKind := by
  constructor
  · intro found
    unfold ofOpen? at found
    split at found <;> cases found <;> rfl
  · rintro rfl
    exact ofOpen?_openKind d

theorem ofClose?_eq_some_iff {kind : TokenKind} {d : Delimiter} :
    ofClose? kind = some d ↔ kind = d.closeKind := by
  constructor
  · intro found
    unfold ofClose? at found
    split at found <;> cases found <;> rfl
  · rintro rfl
    exact ofClose?_closeKind d

@[simp] theorem ofOpen?_closeKind (d : Delimiter) : ofOpen? d.closeKind = none := by
  cases d <;> rfl

theorem openKind_ne_eof (d : Delimiter) : d.openKind ≠ .eof := by
  cases d <;> decide

theorem closeKind_ne_eof (d : Delimiter) : d.closeKind ≠ .eof := by
  cases d <;> decide

end Delimiter

namespace Grouping

/-- The tokens that open groups and the trees read in the innermost one were made of. -/
def tokensRead : List OpenGroup → List Tree → List Token
  | [], current => Tree.flattenAll current.reverse
  | g :: outer, current =>
      tokensRead outer g.before ++
        ⟨g.delimiter.openKind, g.delimiter.openText, g.opener.position, false⟩ ::
          Tree.flattenAll current.reverse

theorem tokensRead_cons (opened : List OpenGroup) (tree : Tree) (current : List Tree) :
    tokensRead opened (tree :: current) = tokensRead opened current ++ tree.flatten := by
  cases opened <;> simp [tokensRead, Tree.flattenAll]

/-- What a token does to the open groups and the trees read in the innermost one. -/
inductive Step (t : Token) : List OpenGroup → List Tree → List OpenGroup → List Tree → Prop where
  | opens {opened : List OpenGroup} {current : List Tree} {d : Delimiter}
      (isOpen : t.kind = d.openKind) : Step t opened current (⟨d, t, current⟩ :: opened) []
  | stays {opened : List OpenGroup} {current : List Tree} (plain : t.IsPlain) :
      Step t opened current opened (.token t :: current)
  | closes {innermost : OpenGroup} {outer : List OpenGroup} {current : List Tree}
      (isClose : t.kind = innermost.delimiter.closeKind) :
      Step t (innermost :: outer) current outer
        (.group innermost.delimiter innermost.opener.position t.position current.reverse ::
          innermost.before)

/-- Where tokens have trees, the first one ends them or takes a step. -/
theorem step_of_treesFrom {t : Token} {later : List Token} {opened : List OpenGroup}
    {current trees : List Tree} (grouped : treesFrom opened current (t :: later) = .ok trees) :
    (t.kind = .eof ∧ finish opened current = .ok trees) ∨
      (t.kind ≠ .eof ∧ ∃ opened' current', Step t opened current opened' current' ∧
        treesFrom opened' current' later = .ok trees) := by
  unfold treesFrom at grouped
  split at grouped
  · rename_i atEnd
    exact .inl ⟨atEnd, grouped⟩
  · rename_i notEnd
    refine .inr ⟨notEnd, ?_⟩
    split at grouped
    · rename_i d isOpen
      exact ⟨_, _, .opens (Delimiter.ofOpen?_eq_some_iff.1 isOpen), grouped⟩
    · rename_i notOpen notClose
      exact ⟨_, _, .stays ⟨notOpen, notClose, notEnd⟩, grouped⟩
    · rename_i d notOpen isClose
      split at grouped
      · cases grouped
      · rename_i innermost outer
        split at grouped
        · rename_i same
          subst same
          exact ⟨_, _, .closes (Delimiter.ofClose?_eq_some_iff.1 isClose), grouped⟩
        · cases grouped

theorem tokensRead_step {t : Token} (spelled : t.IsSpelled) {opened opened' : List OpenGroup}
    {current current' : List Tree} (step : Step t opened current opened' current') :
    tokensRead opened' current' = tokensRead opened current ++ [t] := by
  cases step with
  | @opens _ _ d isOpen =>
      rw [(spelled d).1 isOpen]
      rfl
  | stays => exact tokensRead_cons ..
  | @closes innermost outer _ isClose =>
      rw [tokensRead_cons, (spelled innermost.delimiter).2 isClose]
      simp [tokensRead, Tree.flatten]

/-- Trees are flattened to the tokens that they were made of. -/
theorem flattenAll_of_treesFrom {tokens : List Token} (spelled : ∀ t ∈ tokens, t.IsSpelled) :
    ∀ {opened : List OpenGroup} {current trees : List Tree},
      treesFrom opened current tokens = .ok trees →
        Tree.flattenAll trees =
          tokensRead opened current ++ tokens.takeWhile fun t => t.kind ≠ .eof := by
  have finished {opened : List OpenGroup} {current trees : List Tree}
      (grouped : finish opened current = .ok trees) :
      Tree.flattenAll trees = tokensRead opened current := by
    cases opened with
    | nil =>
        obtain rfl := Except.ok.inj grouped
        rfl
    | cons innermost outer => cases grouped
  induction tokens with
  | nil =>
      intro opened current trees grouped
      simpa using finished grouped
  | cons t later inductionHypothesis =>
      intro opened current trees grouped
      obtain ⟨here, spelled⟩ := List.forall_mem_cons.1 spelled
      rcases step_of_treesFrom grouped with ⟨atEnd, grouped⟩ | ⟨notEnd, _, _, step, grouped⟩
      · simpa [atEnd] using finished grouped
      · rw [inductionHypothesis spelled grouped, tokensRead_step here step]
        simp [notEnd]

/-- Whether the tokens in open groups and in the trees read in the innermost one can stand for themselves. -/
def ArePlain (opened : List OpenGroup) (current : List Tree) : Prop :=
  (∀ g ∈ opened, ∀ t ∈ Tree.leavesAll g.before, t.IsPlain) ∧
    ∀ t ∈ Tree.leavesAll current, t.IsPlain

theorem arePlain_step {t : Token} {opened opened' : List OpenGroup} {current current' : List Tree}
    (step : Step t opened current opened' current') (plain : ArePlain opened current) :
    ArePlain opened' current' := by
  obtain ⟨before, inside⟩ := plain
  cases step with
  | opens isOpen => exact ⟨List.forall_mem_cons.2 ⟨inside, before⟩, by simp [Tree.leavesAll]⟩
  | stays plain => exact ⟨before, List.forall_mem_cons.2 ⟨plain, inside⟩⟩
  | closes isClose =>
      obtain ⟨innermost, outer⟩ := List.forall_mem_cons.1 before
      refine ⟨outer, fun u member => ?_⟩
      rcases List.mem_append.1 member with group | earlier
      · refine inside u ?_
        obtain ⟨tree, isTree, leaf⟩ := Tree.mem_leavesAll.1 group
        exact Tree.mem_leavesAll.2 ⟨tree, List.mem_reverse.1 isTree, leaf⟩
      · exact innermost u earlier

/-- Brackets and the end stand in no tree by themselves. -/
theorem plain_of_treesFrom {tokens : List Token} :
    ∀ {opened : List OpenGroup} {current trees : List Tree}, ArePlain opened current →
      treesFrom opened current tokens = .ok trees → ∀ t ∈ Tree.leavesAll trees, t.IsPlain := by
  have finished {opened : List OpenGroup} {current trees : List Tree}
      (plain : ArePlain opened current) (grouped : finish opened current = .ok trees) :
      ∀ t ∈ Tree.leavesAll trees, t.IsPlain := by
    cases opened with
    | nil =>
        obtain rfl := Except.ok.inj grouped
        intro t member
        obtain ⟨tree, isTree, leaf⟩ := Tree.mem_leavesAll.1 member
        exact plain.2 t (Tree.mem_leavesAll.2 ⟨tree, List.mem_reverse.1 isTree, leaf⟩)
    | cons innermost outer => cases grouped
  induction tokens with
  | nil =>
      intro opened current trees plain grouped
      exact finished plain grouped
  | cons t later inductionHypothesis =>
      intro opened current trees plain grouped
      rcases step_of_treesFrom grouped with ⟨atEnd, grouped⟩ | ⟨notEnd, _, _, step, grouped⟩
      · exact finished plain grouped
      · exact inductionHypothesis (arePlain_step step plain) grouped

/-! ## From trees to tokens -/

section Steps

variable {t : Token} {later : List Token} {opened : List OpenGroup} {current : List Tree}

theorem treesFrom_opens {d : Delimiter} (isOpen : t.kind = d.openKind) :
    treesFrom opened current (t :: later) = treesFrom (⟨d, t, current⟩ :: opened) [] later := by
  rw [treesFrom, if_neg (isOpen ▸ d.openKind_ne_eof), isOpen, Delimiter.ofOpen?_openKind]

theorem treesFrom_stays (plain : t.IsPlain) :
    treesFrom opened current (t :: later) = treesFrom opened (.token t :: current) later := by
  rw [treesFrom, if_neg plain.2.2, plain.1, plain.2.1]

theorem treesFrom_closes {g : OpenGroup} (isClose : t.kind = g.delimiter.closeKind) :
    treesFrom (g :: opened) current (t :: later) =
      treesFrom opened (.group g.delimiter g.opener.position t.position current.reverse :: g.before)
        later := by
  rw [treesFrom, if_neg (isClose ▸ g.delimiter.closeKind_ne_eof), isClose,
    Delimiter.ofOpen?_closeKind, Delimiter.ofClose?_closeKind]
  exact if_pos rfl

/-- The tokens end in front of an end token, or where there are none. -/
theorem treesFrom_ends (ends : ∀ t ∈ later.head?, t.kind = .eof) :
    treesFrom opened current later = finish opened current := by
  cases later with
  | nil => rfl
  | cons t later => rw [treesFrom, if_pos (ends t rfl)]

end Steps

theorem isPlain_of_unplaced {t u : Token} (same : t.unplaced = u.unplaced) (plain : u.IsPlain) :
    t.IsPlain := by
  unfold Token.IsPlain
  rwa [(Token.unplaced_eq_iff.1 same).1]

mutual

/-- The tokens of a tree are grouped to the tree, whatever is open and whatever follows. -/
theorem treesFrom_flatten : ∀ tree : Tree, (∀ t ∈ tree.leaves, t.IsPlain) → ∀ opened current later,
    treesFrom opened current (tree.flatten ++ later) = treesFrom opened (tree :: current) later
  | .token t, plain, opened, current, later => treesFrom_stays (plain t (List.mem_singleton_self t))
  | .group d opening closing trees, plain, opened, current, later => by
      rw [Tree.flatten, List.append_assoc, List.cons_append, treesFrom_opens rfl,
        treesFrom_flattenAll trees plain, List.append_nil, List.singleton_append,
        treesFrom_closes rfl, List.reverse_reverse]

theorem treesFrom_flattenAll : ∀ trees : List Tree, (∀ t ∈ Tree.leavesAll trees, t.IsPlain) →
    ∀ opened current later, treesFrom opened current (Tree.flattenAll trees ++ later) =
      treesFrom opened (trees.reverse ++ current) later
  | [], _, _, _, _ => rfl
  | tree :: trees, plain, opened, current, later => by
      obtain ⟨here, behind⟩ := List.forall_mem_append.1 plain
      rw [Tree.flattenAll, List.append_assoc, treesFrom_flatten tree here,
        treesFrom_flattenAll trees behind, List.reverse_cons, List.append_assoc,
        List.singleton_append]

end

end Grouping

end AttrGrammar
