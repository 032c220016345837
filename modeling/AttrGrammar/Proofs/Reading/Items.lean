import AttrGrammar.Grammar
import AttrGrammar.Proofs.Expression.Extent
import AttrGrammar.Proofs.Reading.Words

/-!
Contract: lists of items that are separated by commas, and lists of expressions among them.

Owns:
- how items and commas make up trees;
- a reader that keeps to the trees of each item reads the items of a list, and consumes the list;
- the list of expressions whose trees are those of the items.

Does not own: where a single expression ends.
-/

namespace AttrGrammar

/-- How items make up trees: a comma stands between neighbours, and perhaps behind the last one. -/
inductive Separated : List (List Tree) → List Tree → Prop where
  | nil : Separated [] []
  | last (item : List Tree) : Separated [item] item
  | cons {items : List (List Tree)} {trees : List Tree} (item : List Tree) {comma : Token}
      (isComma : comma.kind = .comma) (later : Separated items trees) :
      Separated (item :: items) (item ++ .token comma :: trees)

theorem separated_cons {item trees : List Tree} {items : List (List Tree)}
    (separated : Separated (item :: items) trees) : (items = [] ∧ trees = item) ∨
      ∃ comma later, comma.kind = .comma ∧ trees = item ++ .token comma :: later ∧
        Separated items later := by
  cases separated with
  | last => exact .inl ⟨rfl, rfl⟩
  | @cons _ later _ comma isComma separated => exact .inr ⟨comma, later, isComma, rfl, separated⟩

theorem Separated.leaves_subset {items : List (List Tree)} {trees : List Tree}
    (separated : Separated items trees) {item : List Tree} (member : item ∈ items) :
    Tree.leavesAll item ⊆ Tree.leavesAll trees := by
  induction separated with
  | nil => cases member
  | last only =>
      obtain rfl := List.mem_singleton.1 member
      exact List.Subset.refl _
  | @cons _ trees first comma _ _ inductionHypothesis =>
      rw [Tree.leavesAll_append]
      rcases List.mem_cons.1 member with rfl | later
      · exact List.subset_append_left _ _
      · have behind : Tree.leavesAll trees ⊆ Tree.leavesAll (.token comma :: trees) :=
          List.subset_append_right _ _
        exact List.Subset.trans (List.Subset.trans (inductionHypothesis later) behind)
          (List.subset_append_right _ _)

namespace Reader

open Cursor

variable {α : Type} {r : Reader α} {c d : Cursor}

/-- Whether a reader reads given trees as a value where an item of a list ends behind them. -/
def ReadsItem (r : Reader α) (item : List Tree) (v : α) : Prop :=
  item ≠ [] ∧ ∀ (c : Cursor) (rest : List Tree), c.rest = item ++ rest → Expr.Stops rest →
    r c = .ok v (c.skip item.length)

theorem itemsUpTo_nil (count : Nat) (rest : c.rest = []) : itemsUpTo r count c = .ok [] c := by
  cases count with
  | zero => rfl
  | succ count =>
      have isEmpty : c.isEmpty := List.isEmpty_iff.2 rest
      show (if c.isEmpty then _ else _ : Reader (List α)) c = _
      rw [if_pos isEmpty]
      rfl

theorem itemsUpTo_of_error {count : Nat} {failure : Failure} (notEmpty : c.rest ≠ [])
    (fails : r c = .error failure d) : itemsUpTo r (count + 1) c = .error failure d := by
  have notEmpty : ¬c.isEmpty := fun isEmpty => notEmpty (List.isEmpty_iff.1 isEmpty)
  show (if c.isEmpty then _ else _ : Reader (List α)) c = _
  rw [if_neg notEmpty]
  exact bind_eq_error_iff.2 (.inl fails)

theorem itemsUpTo_succ {count : Nat} {v : α} (notEmpty : c.rest ≠ []) (first : r c = .ok v d) :
    itemsUpTo r (count + 1) c =
      (if d.isEmpty then pure [v] else do
        let _ ← expect .comma " between items"
        pure (v :: (← itemsUpTo r count)) : Reader (List α)) d := by
  have notEmpty : ¬c.isEmpty := fun isEmpty => notEmpty (List.isEmpty_iff.1 isEmpty)
  show (if c.isEmpty then _ else _ : Reader (List α)) c = _
  rw [if_neg notEmpty]
  exact bind_of_ok first

theorem itemsUpTo_last {count : Nat} {v : α} (notEmpty : c.rest ≠ []) (first : r c = .ok v d)
    (atEnd : d.rest = []) : itemsUpTo r (count + 1) c = .ok [v] d := by
  have isEmpty : d.isEmpty := List.isEmpty_iff.2 atEnd
  rw [itemsUpTo_succ notEmpty first, if_pos isEmpty]
  rfl

theorem itemsUpTo_comma {count : Nat} {v : α} {vs : List α} {comma : Token} {later : List Tree}
    {e : Cursor} (notEmpty : c.rest ≠ []) (first : r c = .ok v d)
    (rest : d.rest = .token comma :: later) (isComma : comma.kind = .comma)
    (remaining : itemsUpTo r count (d.skip 1) = .ok vs e) :
    itemsUpTo r (count + 1) c = .ok (v :: vs) e := by
  have notAtEnd : ¬d.isEmpty := by simp [Cursor.isEmpty, rest]
  rw [itemsUpTo_succ notEmpty first, if_neg notAtEnd, ← isComma,
    bind_of_ok (expect_of_kind rest), bind_of_ok remaining]
  rfl

/-- The items of a list are read one by one, up to the end. -/
theorem itemsUpTo_of_separated {entries : List (List Tree × α)}
    (reads : ∀ entry ∈ entries, ReadsItem r entry.1 entry.2) :
    ∀ {c : Cursor} {count : Nat}, Separated (entries.map Prod.fst) c.rest →
      c.rest.length ≤ count →
        itemsUpTo r count c = .ok (entries.map Prod.snd) (c.skip c.rest.length) := by
  induction entries with
  | nil =>
      intro c count separated enough
      have rest : c.rest = [] := by
        generalize c.rest = trees at separated
        cases separated
        rfl
      rw [rest, List.length_nil, skip_zero]
      exact itemsUpTo_nil count rest
  | cons entry entries inductionHypothesis =>
      intro c count separated enough
      obtain ⟨item, v⟩ := entry
      obtain ⟨⟨notNil, readsHere⟩, readsLater⟩ := List.forall_mem_cons.1 reads
      have notEmpty : c.rest ≠ [] := by
        rcases separated_cons separated with ⟨-, rest⟩ | ⟨comma, later, -, rest, -⟩
        · rwa [rest]
        · simp [rest]
      cases count with
      | zero => exact absurd (List.length_eq_zero_iff.1 (Nat.le_zero.1 enough)) notEmpty
      | succ count =>
          rcases separated_cons separated with
            ⟨noMore, rest⟩ | ⟨comma, later, isComma, rest, separated⟩
          · obtain rfl := List.map_eq_nil_iff.1 noMore
            have first := readsHere c [] (by simpa using rest) trivial
            rw [← rest] at first
            exact itemsUpTo_last notEmpty first (by simp [Cursor.skip])
          · have first := readsHere c (.token comma :: later) rest (decide_eq_true isComma)
            have atComma : (c.skip item.length).rest = .token comma :: later := by
              simp [Cursor.skip, rest]
            have behindComma := rest_skip_one atComma
            have length : c.rest.length = item.length + (1 + later.length) := by
              rw [rest, List.length_append, List.length_cons, Nat.add_comm later.length 1]
            refine itemsUpTo_comma notEmpty first atComma isComma ?_
            rw [inductionHypothesis readsLater, behindComma, skip_skip, skip_skip, length]
            · rw [behindComma]
              exact separated
            · rw [behindComma]
              omega

/-- A list is read to the values of its items, and it is consumed. -/
theorem terminated_of_separated {entries : List (List Tree × α)}
    (reads : ∀ entry ∈ entries, ReadsItem r entry.1 entry.2)
    (separated : Separated (entries.map Prod.fst) c.rest) :
    terminated r c = .ok (entries.map Prod.snd) (c.skip c.rest.length) :=
  itemsUpTo_of_separated reads separated (Nat.le_refl _)

end Reader

/-! ## Lists of expressions -/

namespace Expr

/-- Trees that are read as an expression are read from a list as that expression. -/
theorem readsItem_payload {e : Spelled (Expr Literal)} {finish : Position}
    (plain : ∀ t ∈ Tree.leavesAll e.trees, t.IsPlain)
    (accepted : ofTrees e.trees finish = .ok e.node) :
    Reader.ReadsItem (Grammar.read (.payload .expr)) e.trees (.payload (.expr e)) := by
  refine ⟨ne_nil_of_ofTrees accepted, fun c rest shape stops => ?_⟩
  have extent := extent_of_ofTrees plain accepted stops
  rw [← shape] at extent
  have notEmpty : e.trees.length ≠ 0 := mt List.length_eq_zero_iff.1 (ne_nil_of_ofTrees accepted)
  have isRead : Expr.read c = .ok e (c.skip e.trees.length) := by
    rw [read_eq_ok_iff, extent]
    refine ⟨notEmpty, rfl, ?_, ofTrees_of_finish accepted _⟩
    rw [shape, List.take_left']
    rfl
  have isPayload : Payload.expr.read c = .ok (.expr e) (c.skip e.trees.length) := by
    rw [Payload.read]
    exact Reader.bind_of_ok isRead
  rw [Grammar.read]
  exact Reader.bind_of_ok isPayload

/-- Items that are expressions by themselves have the nodes of a list of expressions. -/
theorem exists_nodes {items : List (List Tree)}
    (accepted : ∀ item ∈ items, ∃ finish e, ofTrees item finish = .ok e) :
    ∃ nodes : List (Spelled (Expr Literal)), nodes.map Spelled.trees = items ∧
      ∀ e ∈ nodes, ∀ finish, ofTrees e.trees finish = .ok e.node := by
  induction items with
  | nil => exact ⟨[], rfl, nofun⟩
  | cons item items inductionHypothesis =>
      obtain ⟨⟨finish, node, read⟩, accepted⟩ := List.forall_mem_cons.1 accepted
      obtain ⟨nodes, sameTrees, areNodes⟩ := inductionHypothesis accepted
      refine ⟨⟨node, item⟩ :: nodes, ?_, List.forall_mem_cons.2 ⟨ofTrees_of_finish read, areNodes⟩⟩
      rw [List.map_cons, sameTrees]

end Expr

namespace Grammar

theorem read_nodes {nodes : List (Spelled (Expr Literal))} {c : Cursor}
    (separated : Separated (nodes.map Spelled.trees) c.rest)
    (plain : ∀ e ∈ nodes, ∀ t ∈ Tree.leavesAll e.trees, t.IsPlain)
    (areNodes : ∀ e ∈ nodes, ∀ finish, Expr.ofTrees e.trees finish = .ok e.node) :
    (Grammar.terminated (.payload .expr)).read c =
      .ok (.terminated (nodes.map fun e => .payload (.expr e))) (c.skip c.rest.length) := by
  let entry (e : Spelled (Expr Literal)) : List Tree × Parsed := (e.trees, .payload (.expr e))
  have reads : ∀ item ∈ nodes.map entry, Reader.ReadsItem (read (.payload .expr)) item.1 item.2 := by
    intro item member
    obtain ⟨e, isNode, rfl⟩ := List.mem_map.1 member
    exact Expr.readsItem_payload (plain e isNode) (areNodes e isNode c.finish)
  have sameItems : (nodes.map entry).map Prod.fst = nodes.map Spelled.trees := List.map_map
  have isRead := Reader.terminated_of_separated reads (sameItems ▸ separated)
  rw [List.map_map] at isRead
  rw [read]
  exact Reader.bind_of_ok isRead

/-- Where the trees at a cursor are items with commas between them, and each item is an expression by itself, the
list of expressions is read and consumed. It has one node for each item, in their order, with the trees of the item
and with the expression that these are read as. -/
theorem read_exprList {items : List (List Tree)} {c : Cursor} (separated : Separated items c.rest)
    (plain : ∀ item ∈ items, ∀ t ∈ Tree.leavesAll item, t.IsPlain)
    (accepted : ∀ item ∈ items, ∃ finish e, Expr.ofTrees item finish = .ok e) :
    ∃ nodes : List (Spelled (Expr Literal)),
      (Grammar.terminated (.payload .expr)).read c =
        .ok (.terminated (nodes.map fun e => .payload (.expr e))) (c.skip c.rest.length) ∧
      nodes.map Spelled.trees = items ∧
      ∀ e ∈ nodes, ∀ finish, Expr.ofTrees e.trees finish = .ok e.node := by
  obtain ⟨nodes, rfl, areNodes⟩ := Expr.exists_nodes accepted
  refine ⟨nodes, read_nodes separated ?_ areNodes, rfl, areNodes⟩
  intro e isNode
  exact plain e.trees (List.mem_map_of_mem isNode)

/-- Of the commas of `|a, b| a | b, f(x)?,` the first one separates parameters, and the last one ends the list. -/
theorem read_exprList_closure :
    let closure : List Tree :=
      [.token ⟨.pipe, "|", ⟨1, 1⟩, false⟩, .token (.word "a" ⟨1, 2⟩),
        .token ⟨.comma, ",", ⟨1, 3⟩, false⟩, .token (.word "b" ⟨1, 5⟩),
        .token ⟨.pipe, "|", ⟨1, 6⟩, false⟩, .token (.word "a" ⟨1, 8⟩),
        .token ⟨.pipe, "|", ⟨1, 10⟩, false⟩, .token (.word "b" ⟨1, 12⟩)]
    let call : List Tree :=
      [.token (.word "f" ⟨1, 15⟩), .group .paren ⟨1, 16⟩ ⟨1, 18⟩ [.token (.word "x" ⟨1, 17⟩)],
        .token ⟨.question, "?", ⟨1, 19⟩, false⟩]
    let c : Cursor := .ofTrees (closure ++ .token ⟨.comma, ",", ⟨1, 13⟩, false⟩ ::
      (call ++ [.token ⟨.comma, ",", ⟨1, 20⟩, false⟩])) ⟨1, 21⟩
    ∃ nodes : List (Spelled (Expr Literal)),
      (Grammar.terminated (.payload .expr)).read c =
        .ok (.terminated (nodes.map fun e => .payload (.expr e))) (c.skip c.rest.length) ∧
      nodes.map Spelled.trees = [closure, call] ∧
      ∀ e ∈ nodes, ∀ finish, Expr.ofTrees e.trees finish = .ok e.node := by
  intro closure call c
  refine read_exprList (.cons closure rfl (.cons call rfl .nil)) ?_ ?_
  · rw [List.forall_mem_cons, List.forall_mem_singleton]
    refine ⟨?_, ?_⟩
    · simp [closure, Tree.leavesAll, Tree.leaves, Token.word, Token.IsPlain, Delimiter.ofOpen?,
        Delimiter.ofClose?]
    · simp [call, Tree.leavesAll, Tree.leaves, Token.word, Token.IsPlain, Delimiter.ofOpen?,
        Delimiter.ofClose?]
  · rw [List.forall_mem_cons, List.forall_mem_singleton]
    exact ⟨⟨⟨1, 13⟩, _, rfl⟩, ⟨⟨1, 20⟩, _, rfl⟩⟩

end Grammar

end AttrGrammar
