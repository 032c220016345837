import AttrGrammar.Proofs.Trees.Flatten
import AttrGrammar.Error
import AttrGrammar.Expr.Terminal

/-!
Contract: trees that differ in their places only.

Owns:
- what a sequence of trees tells of another one that is alike;
- the leaves, the tokens, the print, the weight and the terminals of trees do not depend on places;
- trees whose tokens are given ones, in place of tokens like them;
- the grouping of tokens, which does not depend on places;
- failures that differ in their places only.
-/

namespace AttrGrammar

namespace Token

section Unplaced

variable {t u : Token} (alike : t.unplaced = u.unplaced)
include alike

theorem kind_eq_of_alike : t.kind = u.kind :=
  (unplaced_eq_iff.1 alike).1

theorem text_eq_of_alike : t.text = u.text :=
  (unplaced_eq_iff.1 alike).2.1

theorem isWord_eq_of_alike (text : String) : t.isWord text = u.isWord text := by
  rw [isWord, isWord, kind_eq_of_alike alike, text_eq_of_alike alike]

/-- A token is the one that it is like, at its own place. -/
theorem at_position_of_alike : { u with position := t.position } = t := by
  obtain ⟨sameKind, sameText, sameJoint⟩ := unplaced_eq_iff.1 alike
  rw [← sameKind, ← sameText, ← sameJoint]

end Unplaced

end Token

namespace Tree

@[simp] theorem unplacedAll_length (trees : List Tree) :
    (unplacedAll trees).length = trees.length := by
  rw [unplacedAll_eq_map, List.length_map]

theorem unplacedAll_take (trees : List Tree) (count : Nat) :
    unplacedAll (trees.take count) = (unplacedAll trees).take count := by
  rw [unplacedAll_eq_map, unplacedAll_eq_map, List.map_take]

theorem unplacedAll_drop (trees : List Tree) (count : Nat) :
    unplacedAll (trees.drop count) = (unplacedAll trees).drop count := by
  rw [unplacedAll_eq_map, unplacedAll_eq_map, List.map_drop]

theorem unplacedAll_append (front back : List Tree) :
    unplacedAll (front ++ back) = unplacedAll front ++ unplacedAll back := by
  rw [unplacedAll_eq_map, unplacedAll_eq_map, unplacedAll_eq_map, List.map_append]

theorem unplacedAll_reverse (trees : List Tree) :
    unplacedAll trees.reverse = (unplacedAll trees).reverse := by
  rw [unplacedAll_eq_map, unplacedAll_eq_map, List.map_reverse]

/-! ## What is alike -/

section Shapes

variable {trees later : List Tree}

theorem eq_nil_of_alike (alike : unplacedAll trees = unplacedAll []) : trees = [] := by
  rw [unplacedAll_eq_map] at alike
  exact List.map_eq_nil_iff.1 alike

theorem exists_of_alike_cons {tree : Tree}
    (alike : unplacedAll trees = unplacedAll (tree :: later)) :
    ∃ tree' later', trees = tree' :: later' ∧ tree'.unplaced = tree.unplaced ∧
      unplacedAll later' = unplacedAll later := by
  cases trees with
  | nil => cases alike
  | cons tree' later' =>
      obtain ⟨sameTree, sameLater⟩ := List.cons.inj alike
      exact ⟨tree', later', rfl, sameTree, sameLater⟩

theorem exists_token_of_alike {t : Token}
    (alike : unplacedAll trees = unplacedAll (.token t :: later)) :
    ∃ u later', trees = .token u :: later' ∧ u.unplaced = t.unplaced ∧
      unplacedAll later' = unplacedAll later := by
  obtain ⟨tree, later', rfl, sameTree, sameLater⟩ := exists_of_alike_cons alike
  cases tree with
  | group => cases sameTree
  | token u => exact ⟨u, later', rfl, Tree.token.inj sameTree, sameLater⟩

theorem exists_group_of_alike {d : Delimiter} {opening closing : Position} {inner : List Tree}
    (alike : unplacedAll trees = unplacedAll (.group d opening closing inner :: later)) :
    ∃ opening' closing' inner' later', trees = .group d opening' closing' inner' :: later' ∧
      unplacedAll inner' = unplacedAll inner ∧ unplacedAll later' = unplacedAll later := by
  obtain ⟨tree, later', rfl, sameTree, sameLater⟩ := exists_of_alike_cons alike
  cases tree with
  | token => cases sameTree
  | group d' opening' closing' inner' =>
      obtain ⟨rfl, -, -, sameInner⟩ := Tree.group.inj sameTree
      exact ⟨opening', closing', inner', later', rfl, sameInner, sameLater⟩

end Shapes

/-! ## What does not depend on places -/

mutual

theorem leaves_unplaced : ∀ tree : Tree, tree.unplaced.leaves = tree.leaves.map Token.unplaced
  | token _ => rfl
  | group _ _ _ trees => leavesAll_unplacedAll trees

theorem leavesAll_unplacedAll :
    ∀ trees : List Tree, leavesAll (unplacedAll trees) = (leavesAll trees).map Token.unplaced
  | [] => rfl
  | tree :: later => by
      rw [unplacedAll, leavesAll, leavesAll, List.map_append, leaves_unplaced tree,
        leavesAll_unplacedAll later]

end

mutual

theorem flatten_unplaced : ∀ tree : Tree,
    tree.unplaced.flatten = tree.flatten.map Token.unplaced
  | token _ => rfl
  | group _ _ _ trees => by
      simp [unplaced, flatten, flattenAll_unplacedAll trees, Token.unplaced]

theorem flattenAll_unplacedAll : ∀ trees : List Tree,
    flattenAll (unplacedAll trees) = (flattenAll trees).map Token.unplaced
  | [] => rfl
  | tree :: later => by
      rw [unplacedAll, flattenAll, flattenAll, List.map_append, flatten_unplaced tree,
        flattenAll_unplacedAll later]

end

mutual

/-- Tokens like those of a tree are the tokens of a tree like it. -/
theorem exists_flatten_of_alike : ∀ (tree : Tree) (ts : List Token),
    ts.map Token.unplaced = tree.flatten.map Token.unplaced →
      ∃ tree' : Tree, tree'.unplaced = tree.unplaced ∧ tree'.flatten = ts
  | token t, ts, alike => by
      obtain ⟨u, rfl, sameToken⟩ := List.map_eq_singleton_iff.1 alike
      exact ⟨token u, congrArg token sameToken, rfl⟩
  | group d opening closing trees, ts, alike => by
      simp only [flatten, List.cons_append, List.map_cons, List.map_append, List.map_nil] at alike
      obtain ⟨first, ts, rfl, sameFirst, alike⟩ := List.map_eq_cons_iff.1 alike
      obtain ⟨inner, last, rfl, sameInner, alike⟩ := List.map_eq_append_iff.1 alike
      obtain ⟨last, rfl, sameLast⟩ := List.map_eq_singleton_iff.1 alike
      obtain ⟨trees', sameTrees, rfl⟩ := exists_flattenAll_of_alike trees inner sameInner
      refine ⟨group d first.position last.position trees', by simp [unplaced, sameTrees], ?_⟩
      conv => rhs; rw [← Token.at_position_of_alike sameFirst, ← Token.at_position_of_alike sameLast]
      rfl

theorem exists_flattenAll_of_alike : ∀ (trees : List Tree) (ts : List Token),
    ts.map Token.unplaced = (flattenAll trees).map Token.unplaced →
      ∃ trees' : List Tree, unplacedAll trees' = unplacedAll trees ∧ flattenAll trees' = ts
  | [], ts, alike => by
      obtain rfl := List.map_eq_nil_iff.1 alike
      exact ⟨[], rfl, rfl⟩
  | tree :: later, ts, alike => by
      simp only [flattenAll, List.map_append] at alike
      obtain ⟨front, back, rfl, sameFront, sameBack⟩ := List.map_eq_append_iff.1 alike
      obtain ⟨tree', sameTree, rfl⟩ := exists_flatten_of_alike tree front sameFront
      obtain ⟨later', sameLater, rfl⟩ := exists_flattenAll_of_alike later back sameBack
      exact ⟨tree' :: later', by simp [unplacedAll, sameTree, sameLater], rfl⟩

end

theorem printAll_cons (tree : Tree) (later : List Tree) :
    printAll (tree :: later) =
      print tree ++ (if later = [] ∨ tree.isJoint then "" else " ") ++ printAll later := by
  cases later with
  | nil => simp [printAll]
  | cons next later => simp [printAll]

mutual

theorem print_unplaced : ∀ tree : Tree, tree.unplaced.print = tree.print
  | token _ => rfl
  | group _ _ _ trees => by rw [unplaced, print, print, printAll_unplacedAll trees]

theorem printAll_unplacedAll : ∀ trees : List Tree, printAll (unplacedAll trees) = printAll trees
  | [] => rfl
  | tree :: later => by
      have joint : tree.unplaced.isJoint = tree.isJoint := by cases tree <;> rfl
      have last : unplacedAll later = [] ↔ later = [] := by
        rw [unplacedAll_eq_map, List.map_eq_nil_iff]
      rw [unplacedAll, printAll_cons, printAll_cons, print_unplaced tree, joint,
        printAll_unplacedAll later]
      simp only [last]

end

mutual

theorem weight_unplaced : ∀ tree : Tree, tree.unplaced.weight = tree.weight
  | token _ => rfl
  | group _ _ _ trees => by rw [unplaced, weight, weight, weightAll_unplacedAll trees]

theorem weightAll_unplacedAll : ∀ trees : List Tree,
    weightAll (unplacedAll trees) = weightAll trees
  | [] => rfl
  | tree :: later => by
      rw [unplacedAll, weightAll, weightAll, weight_unplaced tree, weightAll_unplacedAll later]

end

theorem weightAll_append (front back : List Tree) :
    weightAll (front ++ back) = weightAll front + weightAll back := by
  induction front with
  | nil => rw [List.nil_append, weightAll, Nat.zero_add]
  | cons tree later inductionHypothesis =>
      rw [List.cons_append, weightAll, weightAll, inductionHypothesis, Nat.add_assoc]

theorem weightAll_drop_le (trees : List Tree) (count : Nat) :
    weightAll (trees.drop count) ≤ weightAll trees := by
  have both := weightAll_append (trees.take count) (trees.drop count)
  rw [List.take_append_drop] at both
  omega

section Alike

variable {trees trees' : List Tree} (alike : unplacedAll trees = unplacedAll trees')
include alike

/-- A property of tokens that does not depend on places holds for the leaves of both sequences of trees. -/
theorem leaves_of_alike {holds : Token → Prop}
    (stable : ∀ t u : Token, t.unplaced = u.unplaced → holds u → holds t)
    (leaves : ∀ t ∈ leavesAll trees', holds t) : ∀ t ∈ leavesAll trees, holds t := by
  intro t member
  have same := congrArg leavesAll alike
  rw [leavesAll_unplacedAll, leavesAll_unplacedAll] at same
  have image : t.unplaced ∈ (leavesAll trees').map Token.unplaced :=
    same ▸ List.mem_map_of_mem member
  obtain ⟨u, memberU, sameToken⟩ := List.mem_map.1 image
  exact stable t u sameToken.symm (leaves u memberU)

theorem printAll_eq_of_alike : printAll trees = printAll trees' := by
  rw [← printAll_unplacedAll, alike, printAll_unplacedAll]

theorem weightAll_eq_of_alike : weightAll trees = weightAll trees' := by
  rw [← weightAll_unplacedAll, alike, weightAll_unplacedAll]

theorem length_eq_of_alike : trees.length = trees'.length := by
  rw [← unplacedAll_length, alike, unplacedAll_length]

end Alike

end Tree

/-! ## Grouping -/

/-- Tokens whose brackets do not balance, without the place of the bracket that shows it. -/
def TreeError.unplaced (e : TreeError) : TreeError :=
  { e with position := .nowhere }

namespace Grouping

/-- An open group without places. -/
def OpenGroup.unplaced (g : OpenGroup) : OpenGroup :=
  ⟨g.delimiter, g.opener.unplaced, Tree.unplacedAll g.before⟩

/-- Trees or their error without places. -/
def unplaced (outcome : Except TreeError (List Tree)) : Except TreeError (List Tree) :=
  (outcome.map Tree.unplacedAll).mapError TreeError.unplaced

theorem finish_unplaced (opened : List OpenGroup) (current : List Tree) :
    finish (opened.map OpenGroup.unplaced) (Tree.unplacedAll current) = unplaced (finish opened current) := by
  cases opened with
  | nil =>
      rw [List.map_nil, finish, ← Tree.unplacedAll_reverse]
      rfl
  | cons innermost outer => rfl

/-- Tokens without places have the trees of the tokens, without places. -/
theorem treesFrom_unplaced (tokens : List Token) (opened : List OpenGroup) (current : List Tree) :
    treesFrom (opened.map OpenGroup.unplaced) (Tree.unplacedAll current) (tokens.map Token.unplaced) =
      unplaced (treesFrom opened current tokens) := by
  induction tokens generalizing opened current with
  | nil => exact finish_unplaced opened current
  | cons t later inductionHypothesis =>
      have kind : t.unplaced.kind = t.kind := rfl
      rw [List.map_cons, treesFrom, treesFrom, kind]
      by_cases isEnd : t.kind = .eof
      · rw [if_pos isEnd, if_pos isEnd]
        exact finish_unplaced opened current
      rw [if_neg isEnd, if_neg isEnd]
      cases Delimiter.ofOpen? t.kind with
      | some delimiter => exact inductionHypothesis (⟨delimiter, t, current⟩ :: opened) []
      | none =>
          cases Delimiter.ofClose? t.kind with
          | none => exact inductionHypothesis opened (.token t :: current)
          | some delimiter =>
              cases opened with
              | nil => rfl
              | cons innermost outer =>
                  rw [List.map_cons]
                  dsimp only
                  by_cases isMatch : innermost.delimiter = delimiter
                  · rw [if_pos isMatch]
                    have closed := inductionHypothesis outer
                      (.group delimiter innermost.opener.position t.position current.reverse ::
                        innermost.before)
                    rw [Tree.unplacedAll, Tree.unplaced, Tree.unplacedAll_reverse] at closed
                    rw [← closed, OpenGroup.unplaced, if_pos isMatch]
                    rfl
                  · rw [if_neg isMatch, OpenGroup.unplaced, if_neg isMatch]
                    rfl

end Grouping

/-- Tokens that differ in their places only are grouped alike. -/
theorem unplaced_groupTokens {tokens' tokens : List Token}
    (alike : tokens'.map Token.unplaced = tokens.map Token.unplaced) :
    Grouping.unplaced (groupTokens tokens') = Grouping.unplaced (groupTokens tokens) := by
  rw [groupTokens, groupTokens, ← Grouping.treesFrom_unplaced, alike, Grouping.treesFrom_unplaced]

/-! ## Terminals -/

namespace Terminal

/-- A terminal without its place. -/
def unplaced (t : Terminal) : Terminal :=
  { t with position := .nowhere }

theorem unplaced_eq_iff {t u : Terminal} :
    t.unplaced = u.unplaced ↔ t.symbol = u.symbol ∧ t.text = u.text := by
  simp [unplaced]

theorem ofTokens_unplaced (ts : List Token) :
    ofTokens (ts.map Token.unplaced) = (ofTokens ts).map unplaced := by
  fun_induction ofTokens ts with
  | case1 t u later isShift inductionHypothesis =>
      have isShift' : (t.unplaced.kind = .rangle && t.unplaced.joint &&
        u.unplaced.kind = .rangle : Bool) := isShift
      rw [List.map_cons, List.map_cons, ofTokens, if_pos isShift', inductionHypothesis]
      rfl
  | case2 t u later notShift inductionHypothesis =>
      have notShift' : ¬(t.unplaced.kind = .rangle && t.unplaced.joint &&
        u.unplaced.kind = .rangle : Bool) := notShift
      rw [List.map_cons, List.map_cons, ofTokens, if_neg notShift', ← List.map_cons,
        inductionHypothesis]
      rfl
  | case3 t => rfl
  | case4 => rfl

theorem ofTrees_unplacedAll (trees : List Tree) :
    ofTrees (Tree.unplacedAll trees) = (ofTrees trees).map unplaced := by
  rw [ofTrees, Tree.flattenAll_unplacedAll, ofTokens_unplaced, ofTrees]

end Terminal

/-! ## Failures -/

/-- An error without its place. -/
def ParseError.unplaced (e : ParseError) : ParseError :=
  { e with position := .nowhere }

theorem ParseError.unplaced_eq_iff {e e' : ParseError} :
    e.unplaced = e'.unplaced ↔ e.kind = e'.kind ∧ e.problem = e'.problem := by
  simp [unplaced]

/-- A failure without the place of its error. -/
def Failure.unplaced : Failure → Failure
  | rejected e => rejected e.unplaced
  | unusable m => unusable m
  | tooLarge => tooLarge

theorem Failure.unplaced_ofLiteral (position position' : Position) (fault : LiteralFault) :
    (ofLiteral position fault).unplaced = (ofLiteral position' fault).unplaced := by
  cases fault <;> rfl

end AttrGrammar
