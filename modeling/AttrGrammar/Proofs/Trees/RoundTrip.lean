import AttrGrammar.Proofs.Printing.Source

/-!
Contract: flat tokens and token trees are the same data, places included.

Owns:
- the trees of the tokens that trees are flattened to;
- the sources that have given trees: their tokens are those of the trees and the end.
-/

namespace AttrGrammar

open Lexer

/-- What trees are flattened to is grouped to the same trees, if nothing but an end follows. -/
theorem groupTokens_flattenAll {trees : List Tree} (plain : ∀ t ∈ Tree.leavesAll trees, t.IsPlain)
    {later : List Token} (ends : ∀ t ∈ later.head?, t.kind = .eof) :
    groupTokens (Tree.flattenAll trees ++ later) = .ok trees := by
  rw [groupTokens, Grouping.treesFrom_flattenAll trees plain, List.append_nil, Grouping.treesFrom_ends ends]
  exact congrArg Except.ok trees.reverse_reverse

theorem treesOf_eq_ok_iff_lexed {source : String} {trees : List Tree} {finish : Position} :
    treesOf source = .ok (trees, finish) ↔
      Lexed .start source.toList (Tree.flattenAll trees ++ [Token.atEnd finish]) ∧
        ∀ t ∈ Tree.leavesAll trees, t.IsPlain := by
  constructor
  · intro read
    obtain ⟨lexed, -, plain⟩ := flattenAll_of_treesOf read
    exact ⟨lexed, plain⟩
  · rintro ⟨lexed, plain⟩
    obtain ⟨ts, same, -⟩ := lexed.tokens
    have atEnd : Token.atEnd finish = Token.atEnd (Position.start.after source.toList) :=
      List.singleton_inj.1 (List.append_inj_right' same rfl)
    refine treesOf_eq_ok_iff.2 ⟨congrArg Token.position atEnd, _, lexed, ?_⟩
    exact groupTokens_flattenAll plain (by simp [Token.atEnd])

theorem tokenize_of_treesOf {source : String} {trees : List Tree} {finish : Position}
    (isRead : treesOf source = .ok (trees, finish)) :
    tokenize source = .ok (Tree.flattenAll trees ++ [Token.atEnd finish]) :=
  tokensFrom_eq_ok_iff.2 (treesOf_eq_ok_iff_lexed.1 isRead).1

/-- A source has some trees, ending at a place, exactly if it has the tokens that they are flattened to, with the end
at the place behind them, and no bracket or end stands in them by itself. Such trees are always those that the tokens
they are flattened to are grouped to. -/
theorem treesOf_iff_flattenAll :
    (∀ (source : String) (trees : List Tree) (finish : Position),
      treesOf source = .ok (trees, finish) ↔
        tokenize source = .ok (Tree.flattenAll trees ++ [Token.atEnd finish]) ∧
          ∀ t ∈ Tree.leavesAll trees, t.IsPlain) ∧
    ∀ trees : List Tree, (∀ t ∈ Tree.leavesAll trees, t.IsPlain) →
      groupTokens (Tree.flattenAll trees) = .ok trees := by
  constructor
  · intro source trees finish
    rw [treesOf_eq_ok_iff_lexed, tokenize, tokensFrom_eq_ok_iff]
  · intro trees plain
    have grouped := @groupTokens_flattenAll trees plain [] nofun
    rwa [List.append_nil] at grouped

/-- The trees of `f([a],)`. -/
def nestedGroups : List Tree :=
  [.token ⟨.ident, "f", ⟨1, 1⟩, false⟩,
    .group .paren ⟨1, 2⟩ ⟨1, 7⟩
      [.group .bracket ⟨1, 3⟩ ⟨1, 5⟩ [.token ⟨.ident, "a", ⟨1, 4⟩, false⟩],
        .token ⟨.comma, ",", ⟨1, 6⟩, false⟩]]

/-- A group within a group. -/
theorem treesOf_iff_flattenAll_nested :
    treesOf "f([a],)" = .ok (nestedGroups, ⟨1, 8⟩) ∧
      (∀ t ∈ Tree.leavesAll nestedGroups, t.IsPlain) ∧
        groupTokens (Tree.flattenAll nestedGroups) = .ok nestedGroups := by
  have plain : ∀ t ∈ Tree.leavesAll nestedGroups, t.IsPlain := by decide
  have lexed : Lexed .start "f([a],)".toList (Tree.flattenAll nestedGroups ++ [Token.atEnd ⟨1, 8⟩]) := by
    refine @Lexed.token _ [] 'f' ['(', '[', 'a', ']', ',', ')'] .ident 0 _ rfl (by rfl) ?_
    refine @Lexed.token _ [] '(' ['[', 'a', ']', ',', ')'] .lparen 0 _ rfl rfl ?_
    refine @Lexed.token _ [] '[' ['a', ']', ',', ')'] .lbracket 0 _ rfl rfl ?_
    refine @Lexed.token _ [] 'a' [']', ',', ')'] .ident 0 _ rfl (by rfl) ?_
    refine @Lexed.token _ [] ']' [',', ')'] .rbracket 0 _ rfl rfl ?_
    refine @Lexed.token _ [] ',' [')'] .comma 0 _ rfl rfl ?_
    exact @Lexed.token _ [] ')' [] .rparen 0 _ rfl rfl (.finish rfl)
  refine ⟨?_, plain, treesOf_iff_flattenAll.2 nestedGroups plain⟩
  exact (treesOf_iff_flattenAll.1 _ _ _).2 ⟨tokensFrom_eq_ok_iff.2 lexed, plain⟩

end AttrGrammar
