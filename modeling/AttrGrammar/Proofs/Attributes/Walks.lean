import AttrGrammar.Grammar
import AttrGrammar.Proofs.Attributes.Locality
import AttrGrammar.Proofs.Reading.Outcomes
import AttrGrammar.Proofs.Reading.Walks

/-!
Contract: the readers of all grammars walk forward over their trees.

Owns:
- that the readers of payloads, keywords, attributes of the four shapes and sets walk;
- that the readers of all grammars do, also of those that cannot be used;
- what a grammar yields for trees, wherever these end.
-/

namespace AttrGrammar

open Cursor Reader

/-! ## Payloads -/

namespace Payload

theorem walks_typedName : Walks typedName :=
  walks_ident.bind fun _ => (walks_expect _ _ _).bind fun _ => TypeExpr.walks_read.bind_pure _

theorem walks_exprBehind (kind : TokenKind) : Walks (exprBehind kind) := by
  refine (walks_token? kind).bind fun found => ?_
  split
  · exact Expr.walks_read.bind_pure _
  · exact walks_pure none

theorem walks_read (p : Payload) : Walks p.read := by
  cases p with
  | lit => exact walks_literal.bind_pure _
  | expr => exact Expr.walks_read.bind_pure _
  | type => exact TypeExpr.walks_read.bind_pure _
  | ident => exact walks_ident.bind_pure _
  | identPatType => exact walks_typedName.bind_pure _
  | identTypeMaybeDefault => exact walks_typedName.bind fun _ => (walks_exprBehind _).bind_pure _
  | fieldValue => exact walks_ident.bind fun _ => (walks_exprBehind _).bind_pure _

end Payload

/-! ## Attributes -/

namespace Attribute

section Shapes

variable {α : Type} (keyword : String)

/-- The place of a keyword is never the end, since there is no keyword there. -/
theorem walks_readKeyword : Walks (readKeyword keyword) := by
  intro c finish
  by_cases present : ∃ word later, c.rest = .token word :: later ∧ word.isWord keyword
  · obtain ⟨word, later, rest, isWord⟩ := present
    exact walksAt_of_ok 1 (readKeyword_of_word rest isWord)
      (readKeyword_of_word (c := c.endingAt finish) rest isWord)
  · have absent : ∀ word later, c.rest = .token word :: later → word.isWord keyword = false :=
      fun word later rest => Bool.eq_false_iff.2 fun isWord => present ⟨word, later, rest, isWord⟩
    exact (walks_fail _ _ c finish).of_eq (readKeyword_of_other absent)
      (readKeyword_of_other (c := c.endingAt finish) absent)

theorem walks_failPayload (form : PayloadForm) : Walks (failPayload form keyword : Reader α) :=
  walks_get (fun _ _ => rfl) fun _ => walks_fail _ _

theorem walks_readVoid : Walks (readVoid keyword : Reader (Attribute α)) :=
  (walks_readKeyword keyword).bind_pure _

theorem walks_readValue {payload : Reader α} (walks : Walks payload) : Walks (readValue keyword payload) := by
  refine (walks_readKeyword keyword).bind fun position => (walks_group? _).bind fun found => ?_
  split
  · exact (walks_inside _ _).bind_pure _
  refine (walks_token? _).bind fun equals => ?_
  split
  · exact walks.bind_pure _
  · exact walks_failPayload keyword _

theorem walks_readList (items : Reader (List α)) : Walks (readList keyword items) := by
  refine (walks_readKeyword keyword).bind fun position => (walks_group? _).bind fun found => ?_
  split
  · exact (walks_inside _ _).bind_pure _
  · exact walks_failPayload keyword _

theorem walks_readEnclosed (parenItems braceItems : Reader (List α)) :
    Walks (readEnclosed keyword parenItems braceItems) := by
  refine (walks_readKeyword keyword).bind fun position => (walks_group? _).bind fun parens => ?_
  split
  · exact (walks_inside _ _).bind_pure _
  refine (walks_group? _).bind fun braces => ?_
  split
  · exact (walks_inside _ _).bind_pure _
  · exact walks_reject_of_get (fun _ _ => rfl) fun _ _ => rfl

end Shapes

theorem walks_read {γ α : Type} {readItem : γ → Reader α} (walks : ∀ item, Walks (readItem item))
    (n : Node γ) : Walks (read readItem n) := by
  obtain ⟨keyword, shape⟩ := n
  cases shape with
  | void => exact walks_readVoid keyword
  | value payload => exact walks_readValue keyword (walks payload)
  | list item => exact walks_readList keyword _
  | enclosed parenItem braceItem => exact walks_readEnclosed keyword _ _

end Attribute

theorem walks_readByKeyword {α : Type} {set : String} {known : List String}
    {readerOf : String → Option (Reader α)} (walks : ∀ keyword, ∀ r ∈ readerOf keyword, Walks r) :
    Walks (readByKeyword set known readerOf) := by
  refine walks_get (fun _ _ => rfl) fun c => ?_
  dsimp only
  split
  · rename_i t later rest
    split
    · cases present : readerOf t.text with
      | none => exact walks_fail _ _
      | some r => exact walks t.text r present
    · exact walks_fail _ _
  · exact walks_fail _ _

theorem AttrSet.walks_read (s : AttrSet Payload) : Walks s.read := by
  apply walks_readByKeyword
  intro keyword r isReader
  obtain ⟨n, -, rfl⟩ := Option.map_eq_some_iff.1 isReader
  exact Attribute.walks_read Payload.walks_read n

/-! ## Grammars -/

namespace Grammar

theorem walks_readItems (item : Grammar) {r : Reader Parsed} (walks : Walks r) : Walks (readItems item r) := by
  unfold readItems
  split
  · exact walks_throw _
  · exact walks.terminated

mutual

theorem walks_read : ∀ g : Grammar, Walks g.read
  | payload p => by
      rw [read]
      exact p.walks_read.bind_pure _
  | keyword ident => by
      rw [read]
      exact (Attribute.walks_readKeyword ident).bind_pure _
  | node n => by
      rw [read]
      exact walks_readNode n
  | attrList item => by
      rw [read]
      exact (walks_openGroup _ _).bind fun inner => (walks_inside inner _).bind_pure _
  | terminated item => by
      rw [read]
      exact (walks_readItems item (walks_read item)).bind_pure _
  | attrs s => by
      rw [read]
      exact walks_readSet s
  | builtin b => by
      rw [read]
      exact b.set.walks_read.bind_pure _
  | bare form => by
      rw [read]
      exact walks_throw _
  | foreign d => by
      rw [read]
      exact walks_throw _

theorem walks_readNode : ∀ n : Node Grammar, Walks (readNode n)
  | ⟨ident, shape⟩ => by
      rw [readNode]
      exact (walks_readShape ident shape).bind_pure _

theorem walks_readShape (ident : String) : ∀ shape : Shape Grammar, Walks (readShape ident shape)
  | .void => by
      rw [readShape]
      exact Attribute.walks_readVoid ident
  | .value content => by
      rw [readShape]
      exact Attribute.walks_readValue ident (walks_read content)
  | .list _ => by
      rw [readShape]
      exact Attribute.walks_readList ident _
  | .enclosed _ _ => by
      rw [readShape]
      exact Attribute.walks_readEnclosed ident _ _

theorem walks_readSet : ∀ s : AttrSet Grammar, Walks (readSet s)
  | ⟨_, nodes⟩ => by
      rw [readSet]
      exact walks_readByKeyword (walks_readerOf? nodes)

theorem walks_readerOf? : ∀ (nodes : List (Node Grammar)) (wanted : String),
    ∀ r ∈ readerOf? nodes wanted, Walks r
  | [], _, r, isReader => by
      rw [readerOf?] at isReader
      cases isReader
  | n :: later, wanted, r, isReader => by
      rw [readerOf?] at isReader
      split at isReader
      · obtain rfl := Option.some.inj isReader
        exact walks_readNode n
      · exact walks_readerOf? later wanted r isReader

end

/-- Where trees end is no more than the place of failures at their end. -/
theorem parseTrees_of_ok {g : Grammar} {trees : List Tree} {finish : Position} {node : Parsed}
    (parsed : g.parseTrees trees finish = .ok node) (finish' : Position) : g.parseTrees trees finish' = .ok node := by
  rw [parseTrees_eq, outcome_eq_ok_iff] at parsed ⊢
  obtain ⟨d, isRead⟩ := parsed
  obtain ⟨-, -, isRead'⟩ := ((walks_read g).whole (.ofTrees trees finish) finish').reads node d isRead
  exact ⟨_, isRead'⟩

theorem parseTrees_of_error {g : Grammar} {trees : List Tree} {finish : Position} {failure : Failure}
    (fails : g.parseTrees trees finish = .error failure) (finish' : Position) :
    ∃ failure', g.parseTrees trees finish' = .error failure' ∧ failure'.SameButEnd finish' finish failure := by
  rw [parseTrees_eq] at fails
  obtain ⟨d, isFailure⟩ := exists_of_outcome_eq_error fails
  obtain ⟨-, failure', -, isFailure', same⟩ :=
    ((walks_read g).whole (.ofTrees trees finish) finish').fails failure d isFailure
  have fails' : whole g.read (.ofTrees trees finish') = .error failure' (d.endingAt finish') := isFailure'
  exact ⟨failure', by rw [parseTrees_eq, outcome, fails'], same⟩

end Grammar

end AttrGrammar
