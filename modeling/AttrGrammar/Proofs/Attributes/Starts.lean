import AttrGrammar.Grammar
import AttrGrammar.Proofs.Attributes.Locality

/-!
Contract: the attributes of a set are read from their keywords on.

Owns:
- what readers yield in the end, and readers that start at a token;
- that attributes of the four shapes, and those of a set, start at a word that is their keyword, and have its place.
-/

namespace AttrGrammar

open Cursor Reader

/-! ## What readers yield -/

namespace Reader

variable {α β : Type}

/-- Whether a reader yields nothing but what a condition holds of. -/
def Yields (p : β → Prop) (r : Reader β) : Prop :=
  ∀ c v d, r c = .ok v d → p v

/-- Whether a reader starts at a token, of which and of what it yields a condition holds. -/
def StartsAt (p : Token → β → Prop) (r : Reader β) : Prop :=
  ∀ c v d, r c = .ok v d → ∃ t later, c.rest = .token t :: later ∧ p t v

variable {p : β → Prop}

theorem yields_pure {v : β} (holds : p v) : Yields p (pure v) := by
  intro c w d isRead
  obtain ⟨rfl, -⟩ := EStateM.Result.ok.inj isRead
  exact holds

theorem yields_throw (failure : Failure) : Yields p (throw failure : Reader β) := by
  intro c v d isRead
  cases isRead

/-- What is yielded in the end is up to the last reader. -/
theorem yields_bind {r : Reader α} {k : α → Reader β} (later : ∀ v, Yields p (k v)) :
    Yields p (r >>= k) := by
  intro c w d isRead
  obtain ⟨v, e, -, isLater⟩ := bind_eq_ok_iff.1 isRead
  exact later v e w d isLater

theorem yields_bind_pure {r : Reader α} {f : α → β} (holds : ∀ v, p (f v)) :
    Yields p (r >>= fun v => pure (f v)) :=
  yields_bind fun v => yields_pure (holds v)

theorem StartsAt.bind_pure {q : Token → α → Prop} {r : Reader α} (starts : StartsAt q r) {f : α → β}
    {p : Token → β → Prop} (holds : ∀ t v, q t v → p t (f v)) : StartsAt p (r >>= fun v => pure (f v)) := by
  intro c w d isRead
  obtain ⟨v, isFirst, rfl⟩ := bind_pure_eq_ok_iff.1 isRead
  obtain ⟨t, later, rest, isStart⟩ := starts c v d isFirst
  exact ⟨t, later, rest, holds t v isStart⟩

end Reader

/-! ## Attributes -/

/-- Whether a token is the keyword of an attribute. -/
structure Token.IsKeywordOf {α : Type} (t : Token) (a : Attribute α) : Prop where
  isIdent : t.kind = .ident
  text_eq : t.text = a.keyword
  position_eq : t.position = a.position

namespace Attribute

section Shapes

variable {α : Type} {keyword : String}

/-- Whether an attribute has a keyword that stands at a place. -/
def StandsAt (keyword : String) (position : Position) (a : Attribute α) : Prop :=
  a.keyword = keyword ∧ a.position = position

theorem startsAt_readKeyword_bind {k : Position → Reader (Attribute α)}
    (stands : ∀ position, Yields (StandsAt keyword position) (k position)) :
    StartsAt Token.IsKeywordOf (readKeyword keyword >>= k) := by
  intro c a d isRead
  obtain ⟨position, e, isKeyword, isLater⟩ := bind_eq_ok_iff.1 isRead
  obtain ⟨t, later, rest, isWord, rfl, rfl⟩ := readKeyword_eq_ok_iff.1 isKeyword
  obtain ⟨sameKeyword, samePosition⟩ := stands t.position _ a d isLater
  rw [Token.isWord, Bool.and_eq_true, decide_eq_true_iff, decide_eq_true_iff] at isWord
  exact ⟨t, later, rest, isWord.1, isWord.2.trans sameKeyword.symm, samePosition.symm⟩

theorem yields_failPayload {p : Attribute α → Prop} (form : PayloadForm) :
    Yields p (failPayload form keyword) :=
  yields_bind fun _ => yields_bind fun _ => yields_throw _

theorem startsAt_readVoid : StartsAt Token.IsKeywordOf (readVoid keyword : Reader (Attribute α)) :=
  startsAt_readKeyword_bind fun _ => yields_pure ⟨rfl, rfl⟩

theorem startsAt_readValue (payload : Reader α) : StartsAt Token.IsKeywordOf (readValue keyword payload) := by
  refine startsAt_readKeyword_bind fun position => yields_bind fun parens => ?_
  split
  · exact yields_bind_pure fun _ => ⟨rfl, rfl⟩
  refine yields_bind fun equals => ?_
  split
  · exact yields_bind_pure fun _ => ⟨rfl, rfl⟩
  · exact yields_failPayload _

theorem startsAt_readList (items : Reader (List α)) : StartsAt Token.IsKeywordOf (readList keyword items) := by
  refine startsAt_readKeyword_bind fun position => yields_bind fun parens => ?_
  split
  · exact yields_bind_pure fun _ => ⟨rfl, rfl⟩
  · exact yields_failPayload _

theorem startsAt_readEnclosed (parenItems braceItems : Reader (List α)) :
    StartsAt Token.IsKeywordOf (readEnclosed keyword parenItems braceItems) := by
  refine startsAt_readKeyword_bind fun position => yields_bind fun parens => ?_
  split
  · exact yields_bind_pure fun _ => ⟨rfl, rfl⟩
  refine yields_bind fun braces => ?_
  split
  · exact yields_bind_pure fun _ => ⟨rfl, rfl⟩
  · exact yields_bind fun _ => yields_throw _

end Shapes

theorem startsAt_read {γ α : Type} (readItem : γ → Reader α) (n : Node γ) :
    StartsAt Token.IsKeywordOf (read readItem n) := by
  obtain ⟨keyword, shape⟩ := n
  cases shape with
  | void => exact startsAt_readVoid
  | value payload => exact startsAt_readValue _
  | list item => exact startsAt_readList _
  | enclosed parenItem braceItem => exact startsAt_readEnclosed _ _

end Attribute

theorem startsAt_readByKeyword {α : Type} {p : Token → α → Prop} {set : String} {known : List String}
    {readerOf : String → Option (Reader α)} (starts : ∀ keyword, ∀ r ∈ readerOf keyword, StartsAt p r) :
    StartsAt p (readByKeyword set known readerOf) := by
  intro c v d isRead
  obtain ⟨t, later, r, rest, isIdent, isReader, isRead⟩ := readByKeyword_eq_ok isRead
  exact starts t.text r isReader c v d isRead

/-- Whether a token is the keyword of a result, which is an attribute then. -/
def Token.StartsParsed (t : Token) (v : Parsed) : Prop :=
  ∃ a, v = .attr a ∧ t.IsKeywordOf a

namespace Grammar

theorem startsAt_readShape (ident : String) (shape : Shape Grammar) :
    StartsAt Token.IsKeywordOf (readShape ident shape) := by
  cases shape with
  | void =>
      rw [readShape]
      exact Attribute.startsAt_readVoid
  | value content =>
      rw [readShape]
      exact Attribute.startsAt_readValue _
  | list item =>
      rw [readShape]
      exact Attribute.startsAt_readList _
  | enclosed parenItem braceItem =>
      rw [readShape]
      exact Attribute.startsAt_readEnclosed _ _

theorem startsAt_readNode (n : Node Grammar) : StartsAt Token.StartsParsed (readNode n) := by
  obtain ⟨ident, shape⟩ := n
  rw [readNode]
  exact (startsAt_readShape ident shape).bind_pure fun t a isKeyword => ⟨a, rfl, isKeyword⟩

theorem startsAt_readerOf? (nodes : List (Node Grammar)) (keyword : String) :
    ∀ r ∈ readerOf? nodes keyword, StartsAt Token.StartsParsed r := by
  intro r isReader
  induction nodes with
  | nil =>
      rw [readerOf?] at isReader
      cases isReader
  | cons n later inductionHypothesis =>
      rw [readerOf?] at isReader
      split at isReader
      · obtain rfl := Option.some.inj isReader
        exact startsAt_readNode n
      · exact inductionHypothesis isReader

/-- Whether a grammar is that of one attribute of a set. -/
def IsSet : Grammar → Prop
  | attrs _ | builtin _ => True
  | _ => False

/-- The attributes of a set start at their keywords. -/
theorem IsSet.startsAt_read {g : Grammar} (isSet : g.IsSet) : StartsAt Token.StartsParsed g.read := by
  cases g with
  | attrs s =>
      obtain ⟨set, nodes⟩ := s
      rw [read, readSet]
      exact startsAt_readByKeyword (startsAt_readerOf? nodes)
  | builtin b =>
      have starts : StartsAt Token.IsKeywordOf b.set.read := by
        refine startsAt_readByKeyword fun keyword r isReader => ?_
        obtain ⟨n, -, rfl⟩ := Option.map_eq_some_iff.1 isReader
        exact Attribute.startsAt_read Payload.read n
      rw [read]
      exact starts.bind_pure fun t a isKeyword => ⟨_, rfl, isKeyword.1, isKeyword.2, isKeyword.3⟩
  | _ => cases isSet

theorem IsSet.readItems_eq {g : Grammar} (isSet : g.IsSet) (r : Reader Parsed) :
    readItems g r = Reader.terminated r := by
  cases g with
  | attrs s => rfl
  | builtin b => rfl
  | _ => cases isSet

end Grammar

end AttrGrammar
