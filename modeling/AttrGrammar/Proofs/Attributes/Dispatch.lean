import AttrGrammar.Proofs.Attributes.Extension
import AttrGrammar.Proofs.Attributes.Sets
import AttrGrammar.Proofs.Attributes.Starts
import AttrGrammar.Proofs.Attributes.Walks

/-!
Contract: a set reads each attribute by the node with its keyword, however the set came about.

Owns:
- the keywords of an extended set in order, and what is found in it by a keyword;
- that a node reads behind its keyword, and yields attributes of its keyword and its shape;
- stocks of sets, which are made of nodes or by extending a set of the stock, and what holds of every set in them.

Nodes that a set is extended with can share keywords among themselves: the last one counts, at the place of the first.
-/

namespace AttrGrammar

open Cursor Reader

/-! ## Extended sets -/

namespace AttrSet

section Extend

variable {γ : Type} {kept nodes : List (Node γ)}

theorem keywords_foldl_put (kept nodes : List (Node γ)) :
    (nodes.foldl (fun kept n => put n kept) kept).map Node.keyword =
      kept.map Node.keyword ++
        ((nodes.map Node.keyword).filter fun keyword => keyword ∉ kept.map Node.keyword).eraseDups := by
  induction nodes generalizing kept with
  | nil => exact (List.append_nil _).symm
  | cons n later inductionHypothesis =>
      rw [List.foldl_cons, inductionHypothesis, keywords_put, List.map_cons]
      split
      · rename_i isKept
        rw [List.filter_cons_of_neg (by simpa using isKept)]
      · rename_i isNew
        rw [List.filter_cons_of_pos (by simpa using isNew), List.eraseDups_cons, List.append_assoc,
          List.singleton_append, List.filter_filter]
        congr 3
        refine List.filter_congr fun keyword _ => ?_
        by_cases isSame : keyword = n.keyword <;> simp [isSame]

theorem find?_put (n : Node γ) (kept : List (Node γ)) (keyword : String) :
    ((put n kept).find? fun m => m.keyword = keyword) =
      if n.keyword = keyword then some n else kept.find? fun m => m.keyword = keyword := by
  induction kept with
  | nil =>
      rw [put, List.find?_cons]
      by_cases isKeyword : n.keyword = keyword <;> simp [isKeyword]
  | cons first later inductionHypothesis =>
      rw [put]
      by_cases isFirst : first.keyword = n.keyword
      · rw [if_pos isFirst]
        by_cases isKeyword : n.keyword = keyword <;> simp [isFirst, isKeyword]
      · rw [if_neg isFirst, List.find?_cons, List.find?_cons, inductionHypothesis]
        by_cases isKeyword : n.keyword = keyword
        · simp [isKeyword ▸ isFirst, isKeyword]
        · simp [isKeyword]

theorem find?_foldl_put (kept nodes : List (Node γ)) (keyword : String) :
    ((nodes.foldl (fun kept n => put n kept) kept).find? fun m => m.keyword = keyword) =
      (nodes.filter fun n => n.keyword = keyword).getLast?.or (kept.find? fun m => m.keyword = keyword) := by
  induction nodes generalizing kept with
  | nil => rfl
  | cons n later inductionHypothesis =>
      rw [List.foldl_cons, inductionHypothesis, find?_put]
      by_cases isKeyword : n.keyword = keyword
      · rw [if_pos isKeyword, List.filter_cons_of_pos (by simpa using isKeyword), List.getLast?_cons]
        cases (later.filter fun n => n.keyword = keyword).getLast? <;> rfl
      · rw [if_neg isKeyword, List.filter_cons_of_neg (by simpa using isKeyword)]

/-- What a set is that extends another one by some nodes. -/
structure Extends (extended s : AttrSet γ) (name : String) (nodes : List (Node γ)) : Prop where
  isNamed : extended.name = name
  keywords_eq : extended.keywords =
    s.keywords ++ ((nodes.map Node.keyword).filter fun keyword => keyword ∉ s.keywords).eraseDups
  find?_eq : ∀ keyword, extended.find? keyword =
    (nodes.filter fun n => n.keyword = keyword).getLast?.or (s.find? keyword)
  isMade : ofNodes name extended.nodes = .ok extended
  extend_again : ∀ name' later, extended.extend name' later = s.extend name' (nodes ++ later)

theorem extends_extend {s : AttrSet γ} (distinct : DistinctKeywords s.nodes) (name : String)
    (nodes : List (Node γ)) : (s.extend name nodes).Extends s name nodes where
  isNamed := rfl
  keywords_eq := keywords_foldl_put s.nodes nodes
  find?_eq := find?_foldl_put s.nodes nodes
  isMade := ofNodes_eq_ok_iff.2 ⟨distinctKeywords_extend distinct name nodes, rfl⟩
  extend_again := fun name' _ => congrArg (AttrSet.mk name') List.foldl_append.symm

/-- No set can be made of nodes exactly if two of them share a keyword. -/
theorem exists_ofNodes_eq_error_iff {name : String} : (∃ e, ofNodes name nodes = .error e) ↔
    ∃ i j : Nat, i < j ∧ ∃ m n : Node γ, nodes[i]? = some m ∧ nodes[j]? = some n ∧ m.keyword = n.keyword := by
  have notMade : (∃ e, ofNodes name nodes = .error e) ↔ ¬DistinctKeywords nodes := by
    cases made : ofNodes name nodes with
    | error e =>
        refine iff_of_true ⟨e, rfl⟩ fun distinct => ?_
        cases made.symm.trans (ofNodes_eq_ok_iff.2 ⟨distinct, rfl⟩)
    | ok s => exact iff_of_false (by simp) (not_not.2 (ofNodes_eq_ok_iff.1 made).1)
  rw [notMade, DistinctKeywords, List.nodup_iff_getElem?_ne_getElem?]
  constructor
  · intro repeated
    push Not at repeated
    obtain ⟨i, j, before, inNodes, same⟩ := repeated
    rw [List.length_map] at inNodes
    rw [List.getElem?_map, List.getElem?_map, List.getElem?_eq_getElem inNodes,
      List.getElem?_eq_getElem (Nat.lt_trans before inNodes)] at same
    exact ⟨i, j, before, _, _, List.getElem?_eq_getElem _, List.getElem?_eq_getElem _, Option.some.inj same⟩
  · rintro ⟨i, j, before, m, n, isFirst, isSecond, same⟩ allOther
    obtain ⟨inNodes, -⟩ := List.getElem?_eq_some_iff.1 isSecond
    refine allOther i j before (by rwa [List.length_map]) ?_
    rw [List.getElem?_map, List.getElem?_map, isFirst, isSecond, Option.map_some, Option.map_some, same]

end Extend

end AttrSet

/-! ## Nodes -/

/-- Whether an attribute holds what belongs to a keyword in a shape. -/
def Content.IsOf {γ α : Type} : Content α → Shape γ → Prop
  | .void, .void | .value _, .value _ | .list _, .list _ | .enclosed _ _, .enclosed _ _ => True
  | _, _ => False

/-- Whether an attribute is one of a node, with its keyword at a place. -/
structure Attribute.IsOf {γ α : Type} (a : Attribute α) (n : Node γ) (position : Position) : Prop where
  keyword_eq : a.keyword = n.keyword
  position_eq : a.position = position
  content : a.content.IsOf n.shape

namespace Reader

section Ends

variable {α β : Type} {p : β → Prop}

/-- Whether a reader walks forward, and yields nothing but what a condition holds of. -/
structure Ends (p : β → Prop) (r : Reader β) : Prop where
  walks : Walks r
  yields : Yields p r

theorem ends_bind {r : Reader α} {k : α → Reader β} (walks : Walks r) (later : ∀ v, Ends p (k v)) :
    Ends p (r >>= k) where
  walks := walks.bind fun v => (later v).walks
  yields := yields_bind fun v => (later v).yields

theorem ends_bind_pure {r : Reader α} {f : α → β} (walks : Walks r) (holds : ∀ v, p (f v)) :
    Ends p (r >>= fun v => pure (f v)) :=
  ⟨walks.bind_pure f, yields_bind_pure holds⟩

end Ends

end Reader

namespace Grammar

/-- A node reads its keyword, and behind it what belongs to this. -/
theorem exists_readShape (n : Node Grammar) : ∃ k : Position → Reader (Attribute Parsed),
    readShape n.keyword n.shape = (Attribute.readKeyword n.keyword >>= k) ∧
      ∀ position, Ends (fun a => a.IsOf n position) (k position) := by
  obtain ⟨keyword, shape⟩ := n
  cases shape with
  | void =>
      exact ⟨fun position => pure ⟨keyword, position, .void⟩, by rw [readShape]; rfl,
        fun position => ⟨walks_pure _, yields_pure ⟨rfl, rfl, trivial⟩⟩⟩
  | value payload =>
      refine ⟨_, by rw [readShape]; rfl, fun position => ends_bind (walks_group? _) fun parens => ?_⟩
      split
      · exact ends_bind_pure (walks_inside _ _) fun _ => ⟨rfl, rfl, trivial⟩
      refine ends_bind (walks_token? _) fun equals => ?_
      split
      · exact ends_bind_pure (walks_read payload) fun _ => ⟨rfl, rfl, trivial⟩
      · exact ⟨Attribute.walks_failPayload _ _, Attribute.yields_failPayload _⟩
  | list item =>
      refine ⟨_, by rw [readShape]; rfl, fun position => ends_bind (walks_group? _) fun parens => ?_⟩
      split
      · exact ends_bind_pure (walks_inside _ _) fun _ => ⟨rfl, rfl, trivial⟩
      · exact ⟨Attribute.walks_failPayload _ _, Attribute.yields_failPayload _⟩
  | enclosed parenItem braceItem =>
      refine ⟨_, by rw [readShape]; rfl, fun position => ends_bind (walks_group? _) fun parens => ?_⟩
      split
      · exact ends_bind_pure (walks_inside _ _) fun _ => ⟨rfl, rfl, trivial⟩
      refine ends_bind (walks_group? _) fun braces => ?_
      split
      · exact ends_bind_pure (walks_inside _ _) fun _ => ⟨rfl, rfl, trivial⟩
      · exact ⟨walks_reject_of_get (fun _ _ => rfl) fun _ _ => rfl, yields_bind fun _ => yields_throw _⟩

section Nodes

variable {n : Node Grammar} {c d : Cursor} {t : Token} {later : List Tree}

/-- A node that is read at its keyword yields an attribute of it. -/
theorem readNode_of_ok {v : Parsed} (rest : c.rest = .token t :: later) (isRead : (node n).read c = .ok v d) :
    ∃ a, v = .attr a ∧ a.IsOf n t.position := by
  obtain ⟨k, reads, ends⟩ := exists_readShape n
  obtain ⟨keyword, shape⟩ := n
  rw [read, readNode, reads] at isRead
  obtain ⟨a, isShape, rfl⟩ := bind_pure_eq_ok_iff.1 isRead
  obtain ⟨position, e, isKeyword, isLater⟩ := bind_eq_ok_iff.1 isShape
  obtain ⟨word, later', rest', -, rfl, -⟩ := Attribute.readKeyword_eq_ok_iff.1 isKeyword
  obtain rfl := Tree.token.inj (List.cons.inj (rest.symm.trans rest')).1
  exact ⟨a, rfl, (ends t.position).yields e a d isLater⟩

/-- A node that is not read at its keyword fails behind it. -/
theorem readNode_of_error {failure : Failure} (rest : c.rest = .token t :: later) (isWord : t.isWord n.keyword)
    (fails : (node n).read c = .error failure d) : ∃ count, d = (c.skip 1).skip count := by
  obtain ⟨k, reads, ends⟩ := exists_readShape n
  obtain ⟨keyword, shape⟩ := n
  rw [read, readNode, reads, bind_assoc, bind_of_ok (Attribute.readKeyword_of_word rest isWord)] at fails
  obtain ⟨count, -, moved, -⟩ := ((ends t.position).walks.bind_pure _ (c.skip 1) c.finish).fails failure d fails
  exact ⟨count, moved⟩

end Nodes

end Grammar

/-! ## Sets -/

namespace AttrSet

/-- Whether a set chooses by keywords among its nodes. -/
structure Dispatches (s : AttrSet Grammar) : Prop where
  /-- No two nodes share a keyword. -/
  distinct : s.keywords.Nodup
  /-- Each node is filed under its keyword, and nothing else is. -/
  filed : ∀ keyword n, s.find? keyword = some n ↔ n ∈ s.nodes ∧ n.keyword = keyword
  /-- An identifier of the set is read by the node with this keyword. What it yields is an attribute of the node with
  this keyword, and if it fails, then behind the keyword. -/
  known : ∀ c t later, c.rest = .token t :: later → t.kind = .ident → t.text ∈ s.keywords →
    ∃ n ∈ s.nodes, n.keyword = t.text ∧ (Grammar.attrs s).read c = (Grammar.node n).read c ∧
      (∀ v d, (Grammar.attrs s).read c = .ok v d → ∃ a, v = .attr a ∧ a.IsOf n t.position) ∧
      ∀ failure d, (Grammar.attrs s).read c = .error failure d → ∃ count, d = (c.skip 1).skip count
  /-- At all other trees, no node reads. -/
  unknown : ∀ c, (∀ t later, c.rest = .token t :: later → t.kind = .ident → t.text ∉ s.keywords) →
    (Grammar.attrs s).read c =
      .error (.rejected (c.error .keywordMismatch (.unknownAttribute s.name s.keywords c.found))) c

theorem find?_eq_some_iff {γ : Type} {s : AttrSet γ} (distinct : DistinctKeywords s.nodes) {keyword : String}
    {n : Node γ} : s.find? keyword = some n ↔ n ∈ s.nodes ∧ n.keyword = keyword := by
  constructor
  · intro found
    exact ⟨List.mem_of_find?_eq_some found, by simpa using List.find?_some found⟩
  · rintro ⟨member, rfl⟩
    exact find?_eq_some_of_mem distinct member

theorem dispatches_of_distinct {s : AttrSet Grammar} (distinct : DistinctKeywords s.nodes) : s.Dispatches where
  distinct := distinct
  filed := fun _ _ => find?_eq_some_iff distinct
  known := by
    intro c t later rest isIdent isKnown
    obtain ⟨n, member, sameKeyword⟩ := List.mem_map.1 isKnown
    have isWord : t.isWord n.keyword := by simp [Token.isWord, isIdent, sameKeyword]
    have reads : (Grammar.attrs s).read c = (Grammar.node n).read c := by
      rw [Grammar.read_set]
      refine readByKeyword_of_known rest isIdent ?_
      rw [find?_eq_some_iff distinct |>.2 ⟨member, sameKeyword⟩, Option.map_some]
    refine ⟨n, member, sameKeyword, reads, fun v d isRead => ?_, fun failure d fails => ?_⟩
    · exact Grammar.readNode_of_ok rest (reads.symm.trans isRead)
    · exact Grammar.readNode_of_error rest isWord (reads.symm.trans fails)
  unknown := by
    intro c others
    rw [Grammar.read_set]
    refine readByKeyword_of_unknown fun t later rest isIdent => ?_
    rw [find?, List.find?_eq_none.2, Option.map_none]
    intro n member isKeyword
    exact others t later rest isIdent (List.mem_map.2 ⟨n, member, by simpa using isKeyword⟩)

end AttrSet

/-! ## Stocks -/

/-- How one more set is made, of nodes or by extending the set with a number. -/
inductive Making (γ : Type) where
  | ofNodes (name : String) (nodes : List (Node γ))
  | extend (place : Nat) (name : String) (nodes : List (Node γ))

/-- Sets, in the order in which they were made. -/
abbrev Stock (γ : Type) :=
  List (AttrSet γ)

namespace Stock

variable {γ : Type}

/-- What making one more set adds to a stock: nothing if two nodes share a keyword, or if there is no set to extend. -/
def step (stock : Stock γ) : Making γ → Stock γ
  | .ofNodes name nodes =>
      match AttrSet.ofNodes name nodes with
      | .ok s => stock ++ [s]
      | .error _ => stock
  | .extend place name nodes =>
      match stock[place]? with
      | some s => stock ++ [s.extend name nodes]
      | none => stock

def run (stock : Stock γ) (makings : List (Making γ)) : Stock γ :=
  makings.foldl step stock

/-- Making one more set leaves the others as they are. -/
theorem prefix_step (stock : Stock γ) (making : Making γ) : stock <+: stock.step making := by
  cases making with
  | ofNodes name nodes =>
      rw [step]
      split
      · exact List.prefix_append stock _
      · exact List.prefix_refl stock
  | extend place name nodes =>
      rw [step]
      split
      · exact List.prefix_append stock _
      · exact List.prefix_refl stock

theorem prefix_run (stock : Stock γ) (makings : List (Making γ)) : stock <+: stock.run makings := by
  induction makings generalizing stock with
  | nil => exact List.prefix_refl stock
  | cons making later inductionHypothesis => exact (prefix_step stock making).trans (inductionHypothesis _)

/-- Whether in no set of a stock two nodes share a keyword. -/
def AreDistinct (stock : Stock γ) : Prop :=
  ∀ s ∈ stock, AttrSet.DistinctKeywords s.nodes

theorem AreDistinct.step {stock : Stock γ} (distinct : stock.AreDistinct) (making : Making γ) :
    (stock.step making).AreDistinct := by
  cases making with
  | ofNodes name nodes =>
      rw [Stock.step]
      split
      · rename_i s made
        refine List.forall_mem_append.2 ⟨distinct, List.forall_mem_singleton.2 ?_⟩
        obtain ⟨distinctNodes, rfl⟩ := AttrSet.ofNodes_eq_ok_iff.1 made
        exact distinctNodes
      · exact distinct
  | extend place name nodes =>
      rw [Stock.step]
      split
      · rename_i s isSet
        refine List.forall_mem_append.2 ⟨distinct, List.forall_mem_singleton.2 ?_⟩
        exact AttrSet.distinctKeywords_extend (distinct s (List.mem_of_getElem? isSet)) name nodes
      · exact distinct

theorem AreDistinct.run {stock : Stock γ} (distinct : stock.AreDistinct) (makings : List (Making γ)) :
    (stock.run makings).AreDistinct := by
  induction makings generalizing stock with
  | nil => exact distinct
  | cons making later inductionHypothesis => exact inductionHypothesis (distinct.step making)

end Stock

/-- Of all sets that are made, of nodes or by extending sets that were made before: they stay as they are whatever is
made later, they choose by distinct keywords among their nodes, and extending them yields such a set again, with new
keywords behind theirs and the latest node for each keyword. The nodes that no set can be made of are those of which two
share a keyword. -/
theorem AttrSet.dispatches_of_run (makings : List (Making Grammar)) :
    (∀ later, Stock.run [] makings <+: Stock.run [] (makings ++ later)) ∧
    (∀ s ∈ Stock.run [] makings, s.Dispatches ∧
      ∀ name nodes, (s.extend name nodes).Extends s name nodes ∧ (s.extend name nodes).Dispatches) ∧
    ∀ name (nodes : List (Node Grammar)), (∃ e, ofNodes name nodes = .error e) ↔
      ∃ i j : Nat, i < j ∧ ∃ m n : Node Grammar,
        nodes[i]? = some m ∧ nodes[j]? = some n ∧ m.keyword = n.keyword := by
  refine ⟨fun later => ?_, fun s member => ?_, fun name nodes => exists_ofNodes_eq_error_iff⟩
  · rw [Stock.run, Stock.run, List.foldl_append]
    exact Stock.prefix_run _ later
  · have nothing : Stock.AreDistinct ([] : Stock Grammar) := List.forall_mem_nil _
    have distinct := nothing.run makings s member
    exact ⟨dispatches_of_distinct distinct, fun name nodes =>
      ⟨extends_extend distinct name nodes, dispatches_of_distinct (distinctKeywords_extend distinct name nodes)⟩⟩

/-- A set of `big` and `little`, and one that extends it by a `big` with a value and by `pad` twice. -/
def redefineBig : List (Making Grammar) :=
  [.ofNodes "order" [⟨"big", .void⟩, ⟨"little", .void⟩],
    .extend 0 "wide" [⟨"pad", .void⟩, ⟨"big", .value (.payload .expr)⟩, ⟨"pad", .value (.payload .lit)⟩]]

/-- What `redefineBig` extends `order` to. -/
def wide : AttrSet Grammar :=
  ⟨"wide", [⟨"big", .value (.payload .expr)⟩, ⟨"little", .void⟩, ⟨"pad", .value (.payload .lit)⟩]⟩

/-- A node is redefined in its place, and of two new nodes with one keyword the last is kept. -/
theorem dispatches_of_run_redefineBig :
    Stock.run [] redefineBig = [⟨"order", [⟨"big", .void⟩, ⟨"little", .void⟩]⟩, wide] ∧
      wide ∈ Stock.run [] redefineBig ∧ wide.Dispatches ∧ (wide.extend "same" []).Dispatches := by
  have member : wide ∈ Stock.run [] redefineBig := List.mem_cons_of_mem _ List.mem_cons_self
  have holds := (AttrSet.dispatches_of_run redefineBig).2.1 wide member
  exact ⟨rfl, member, holds.1, (holds.2 "same" []).2⟩

end AttrGrammar
