import AttrGrammar.Grammar
import AttrGrammar.Proofs.Reading.Failures
import AttrGrammar.Proofs.Reading.Outcomes

/-!
Contract: where the readers of attributes fail, and with what.

Owns:
- that the readers of payloads, attributes and sets fail only as may be, and stay among known tokens;
- the misuses in a grammar, and that the readers of all grammars fail as may be if these misuses may;
- the failures of reading whole sequences of trees.
-/

namespace AttrGrammar

open Cursor Reader

variable {b : Blame}

/-! ## Payloads -/

namespace Payload

theorem keeps_typedName : Keeps b typedName :=
  keeps_ident.bind fun _ _ => keeps_expect.bind fun _ _ => TypeExpr.keeps_read.bind_pure _

theorem keeps_exprBehind {kind : TokenKind} : Keeps b (exprBehind kind) := by
  refine keeps_token?.bind fun found _ => ?_
  split
  · exact Expr.keeps_read.bind_pure _
  · exact keeps_pure trivial

theorem keeps_read (p : Payload) : Keeps b p.read := by
  cases p with
  | lit => exact keeps_literal.bind_pure _
  | expr => exact Expr.keeps_read.bind_pure _
  | type => exact TypeExpr.keeps_read.bind_pure _
  | ident => exact keeps_ident.bind_pure _
  | identPatType => exact keeps_typedName.bind_pure _
  | identTypeMaybeDefault => exact keeps_typedName.bind fun _ _ => keeps_exprBehind.bind_pure _
  | fieldValue => exact keeps_ident.bind fun _ _ => keeps_exprBehind.bind_pure _

end Payload

/-! ## Attributes -/

namespace Attribute

section Shapes

variable {α : Type} {keyword : String}

theorem keeps_readKeyword : Keeps b (readKeyword keyword) := by
  refine keeps_get.bind fun c _ => keeps_word?.bind fun found _ => ?_
  split
  · exact keeps_pure trivial
  · exact keeps_fail

theorem keeps_failPayload {form : PayloadForm} : Keeps b (failPayload form keyword : Reader α) :=
  keeps_get.bind fun _ _ => keeps_fail

theorem keeps_readVoid : Keeps b (readVoid keyword : Reader (Attribute α)) :=
  keeps_readKeyword.bind_pure _

theorem keeps_readValue {payload : Reader α} (keeps : Keeps b payload) :
    Keeps b (readValue keyword payload) := by
  refine keeps_readKeyword.bind fun position _ => keeps_group?.bind fun found within => ?_
  split
  · exact (keeps.whole.inside (within _ rfl)).bind_pure _
  refine keeps_token?.bind fun equals _ => ?_
  split
  · exact keeps.bind_pure _
  · exact keeps_failPayload

theorem keeps_readList {items : Reader (List α)} (keeps : Keeps b items) :
    Keeps b (readList keyword items) := by
  refine keeps_readKeyword.bind fun position _ => keeps_group?.bind fun found within => ?_
  split
  · exact (keeps.inside (within _ rfl)).bind_pure _
  · exact keeps_failPayload

theorem keeps_readEnclosed {parenItems braceItems : Reader (List α)} (keepsParen : Keeps b parenItems)
    (keepsBrace : Keeps b braceItems) : Keeps b (readEnclosed keyword parenItems braceItems) := by
  refine keeps_readKeyword.bind fun position _ => keeps_group?.bind fun parens within => ?_
  split
  · exact (keepsParen.inside (within _ rfl)).bind_pure _
  refine keeps_group?.bind fun braces within => ?_
  split
  · exact (keepsBrace.inside (within _ rfl)).bind_pure _
  · exact keeps_get.bind fun c within => keeps_error within _ _

end Shapes

theorem keeps_read {γ α : Type} {readItem : γ → Reader α} (keeps : ∀ item, Keeps b (readItem item))
    (n : Node γ) : Keeps b (read readItem n) := by
  obtain ⟨keyword, shape⟩ := n
  cases shape with
  | void => exact keeps_readVoid
  | value payload => exact keeps_readValue (keeps payload)
  | list item => exact keeps_readList (keeps item).terminated
  | enclosed parenItem braceItem =>
      exact keeps_readEnclosed (keeps parenItem).terminated (keeps braceItem).terminated

end Attribute

theorem keeps_readByKeyword {α : Type} {set : String} {known : List String}
    {readerOf : String → Option (Reader α)}
    (keeps : ∀ keyword, ∀ r ∈ readerOf keyword, Keeps b r) : Keeps b (readByKeyword set known readerOf) := by
  refine keeps_get.bind fun c _ => ?_
  dsimp only
  split
  · rename_i t later rest
    split
    · cases present : readerOf t.text with
      | none => exact keeps_fail
      | some r => exact keeps t.text r present
    · exact keeps_fail
  · exact keeps_fail

theorem AttrSet.keeps_read (s : AttrSet Payload) : Keeps b s.read := by
  apply keeps_readByKeyword
  intro keyword r isReader
  obtain ⟨n, -, rfl⟩ := Option.map_eq_some_iff.1 isReader
  exact Attribute.keeps_read Payload.keeps_read n

/-! ## Grammars -/

namespace Grammar

mutual

/-- The misuses in a grammar, which is specialised if there are none: forms without keyword and payloads, and values
that are no grammars. -/
def misuses : Grammar → List Misuse
  | payload _ => []
  | keyword _ => []
  | node n => nodeMisuses n
  | attrList item => misuses item
  | terminated item => misuses item
  | attrs s => setMisuses s
  | builtin _ => []
  | bare form => [form.misuse]
  | foreign d => [.notGrammar d.shown]

def nodeMisuses : Node Grammar → List Misuse
  | ⟨_, shape⟩ => shapeMisuses shape

def shapeMisuses : Shape Grammar → List Misuse
  | .void => []
  | .value content => misuses content
  | .list item => misuses item
  | .enclosed parenItem braceItem => misuses parenItem ++ misuses braceItem

def setMisuses : AttrSet Grammar → List Misuse
  | ⟨_, nodes⟩ => nodesMisuses nodes

/-- The misuses in the nodes of a set. -/
def nodesMisuses : List (Node Grammar) → List Misuse
  | [] => []
  | n :: later => nodeMisuses n ++ nodesMisuses later

end

theorem keeps_readItems {item : Grammar} (unusable : ∀ m ∈ item.misuses, b.failure (.unusable m))
    {r : Reader Parsed} (keeps : Keeps b r) : Keeps b (readItems item r) := by
  unfold readItems
  split
  · rename_i m isMisuse
    refine keeps_throw (unusable m ?_)
    cases item with
    | foreign d =>
        obtain rfl := Option.some.inj isMisuse
        rw [misuses]
        exact List.mem_singleton_self _
    | _ => cases isMisuse
  · exact keeps.terminated

mutual

/-- The readers of grammars fail as may be, if the misuses in them may. -/
theorem keeps_read_of_misuses : ∀ g : Grammar, (∀ m ∈ g.misuses, b.failure (.unusable m)) →
    Keeps b g.read
  | payload p, _ => by
      rw [read]
      exact p.keeps_read.bind_pure _
  | keyword ident, _ => by
      rw [read]
      exact Attribute.keeps_readKeyword.bind_pure _
  | node n, unusable => by
      rw [misuses] at unusable
      rw [read]
      exact keeps_readNode n unusable
  | attrList item, unusable => by
      rw [misuses] at unusable
      rw [read]
      refine keeps_openGroup.bind fun inner within => ?_
      exact ((keeps_readItems unusable (keeps_read_of_misuses item unusable)).inside within).bind_pure _
  | terminated item, unusable => by
      rw [misuses] at unusable
      rw [read]
      exact (keeps_readItems unusable (keeps_read_of_misuses item unusable)).bind_pure _
  | attrs s, unusable => by
      rw [misuses] at unusable
      rw [read]
      exact keeps_readSet s unusable
  | builtin set, _ => by
      rw [read]
      exact set.set.keeps_read.bind_pure _
  | bare form, unusable => by
      rw [misuses] at unusable
      rw [read]
      exact keeps_throw (unusable _ (List.mem_singleton_self _))
  | foreign d, unusable => by
      rw [misuses] at unusable
      rw [read]
      exact keeps_throw (unusable _ (List.mem_singleton_self _))

theorem keeps_readNode : ∀ n : Node Grammar, (∀ m ∈ nodeMisuses n, b.failure (.unusable m)) →
    Keeps b (readNode n)
  | ⟨ident, shape⟩, unusable => by
      rw [nodeMisuses] at unusable
      rw [readNode]
      exact (keeps_readShape ident shape unusable).bind_pure _

theorem keeps_readShape (ident : String) : ∀ shape : Shape Grammar,
    (∀ m ∈ shapeMisuses shape, b.failure (.unusable m)) → Keeps b (readShape ident shape)
  | .void, _ => by
      rw [readShape]
      exact Attribute.keeps_readVoid
  | .value content, unusable => by
      rw [shapeMisuses] at unusable
      rw [readShape]
      exact Attribute.keeps_readValue (keeps_read_of_misuses content unusable)
  | .list item, unusable => by
      rw [shapeMisuses] at unusable
      rw [readShape]
      exact Attribute.keeps_readList (keeps_readItems unusable (keeps_read_of_misuses item unusable))
  | .enclosed parenItem braceItem, unusable => by
      rw [shapeMisuses] at unusable
      obtain ⟨inParens, inBraces⟩ := List.forall_mem_append.1 unusable
      rw [readShape]
      exact Attribute.keeps_readEnclosed
        (keeps_readItems inParens (keeps_read_of_misuses parenItem inParens))
        (keeps_readItems inBraces (keeps_read_of_misuses braceItem inBraces))

theorem keeps_readSet : ∀ s : AttrSet Grammar, (∀ m ∈ setMisuses s, b.failure (.unusable m)) →
    Keeps b (readSet s)
  | ⟨set, nodes⟩, unusable => by
      rw [setMisuses] at unusable
      rw [readSet]
      exact keeps_readByKeyword (keeps_readerOf? nodes unusable)

theorem keeps_readerOf? : ∀ nodes : List (Node Grammar),
    (∀ m ∈ nodesMisuses nodes, b.failure (.unusable m)) →
      ∀ (wanted : String), ∀ r ∈ readerOf? nodes wanted, Keeps b r
  | [], _, _, r, isReader => by
      rw [readerOf?] at isReader
      cases isReader
  | n :: later, unusable, wanted, r, isReader => by
      rw [nodesMisuses] at unusable
      obtain ⟨inFirst, inLater⟩ := List.forall_mem_append.1 unusable
      rw [readerOf?] at isReader
      split at isReader
      · obtain rfl := Option.some.inj isReader
        exact keeps_readNode n inFirst
      · exact keeps_readerOf? later inLater wanted r isReader

end

theorem keeps_read (unusable : ∀ m, b.failure (.unusable m)) (g : Grammar) : Keeps b g.read :=
  keeps_read_of_misuses g fun m _ => unusable m

/-! ## Whole inputs -/

section Whole

variable {g : Grammar} {trees : List Tree} {finish : Position}

/-- Readers that fail as may be do so on all trees of an input. -/
theorem failure_of_parseTrees (keeps : Keeps b g.read) (known : ∀ t ∈ Tree.flattenAll trees, b.token t)
    (knownFinish : b.place finish) {failure : Failure}
    (fails : g.parseTrees trees finish = .error failure) : b.failure failure := by
  rw [parseTrees_eq] at fails
  obtain ⟨d, result⟩ := exists_of_outcome_eq_error fails
  have kept := keeps.whole (.ofTrees trees finish) ⟨known, knownFinish⟩
  rwa [result] at kept

end Whole

end Grammar

end AttrGrammar
