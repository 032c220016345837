import AttrGrammar.Proofs.Printing.Emission
import Mathlib.Data.List.Forall2

/-!
Contract: attributes are read alike from trees that differ in their places only.

Owns:
- lists up to the end and the four shapes of attributes, for readers of what they hold that track themselves;
- the texts that a result and the results in it are re-emitted as;
- that the readers of all grammars track themselves on twins.

Does not own: what is read from whole inputs.
-/

namespace AttrGrammar

open Cursor Reader

/-! ## Lists -/

/-- Whether a reader tracks itself on all twins. -/
def Reader.Placeless {α : Type} (r : Reader α) (related : α → α → Cursor → Prop) : Prop :=
  ∀ c c' : Cursor, Twin c c' → Tracks r r c' c related

section Lists

variable {α : Type} {r : Reader α} {related : α → α → Prop}

/-- Items are read alike and to the end, if no more of them are allowed than there are trees. -/
theorem Reader.Placeless.itemsUpTo (placeless : Placeless r fun v' v _ => related v' v) (count : Nat) :
    ∀ {c c' : Cursor}, Twin c c' → c.rest.length ≤ count →
      Tracks (itemsUpTo r count) (itemsUpTo r count) c' c
        fun vs' vs d => List.Forall₂ related vs' vs ∧ d.rest = [] := by
  induction count with
  | zero =>
      intro c c' twin enough
      exact tracks_pure ⟨.nil, List.length_eq_zero_iff.1 (Nat.le_zero.1 enough)⟩
  | succ count inductionHypothesis =>
      intro c c' twin enough
      refine tracks_get ?_
      rw [isEmpty_eq_of_twin twin]
      cases isEmpty : c.isEmpty with
      | true => exact tracks_pure ⟨.nil, List.isEmpty_iff.1 isEmpty⟩
      | false =>
          refine (placeless c c' twin).bind_of_moves twin ?_
          rintro first' first d' d twinD movesFirst sameFirst
          refine tracks_get ?_
          rw [isEmpty_eq_of_twin twinD]
          cases isEmptyD : d.isEmpty with
          | true => exact tracks_pure ⟨.cons sameFirst .nil, List.isEmpty_iff.1 isEmptyD⟩
          | false =>
              refine (tracks_expect twinD (by decide) _ _).bind_of_moves twinD ?_
              rintro - - e' e twinE movesComma ⟨-, lighter⟩
              have fewer := movesComma.length_lt lighter
              have atMost := movesFirst.length_le
              refine (inductionHypothesis twinE (by omega)).bind twinE ?_
              rintro later' later f' f - - ⟨sameLater, atEnd⟩
              exact tracks_pure ⟨.cons sameFirst sameLater, atEnd⟩

theorem Reader.Placeless.terminated (placeless : Placeless r fun v' v _ => related v' v) :
    Placeless (terminated r) fun vs' vs d => List.Forall₂ related vs' vs ∧ d.rest = [] := by
  intro c c' twin
  refine tracks_get ?_
  rw [Tree.length_eq_of_alike twin.alike]
  exact placeless.itemsUpTo c.rest.length twin (Nat.le_refl _)

end Lists

/-! ## Attributes -/

/-- Whether what belongs to keywords is of one form, with values that are related. -/
def Content.Alike {α : Type} (related : α → α → Prop) : Content α → Content α → Prop
  | .void, .void => True
  | .value v', .value v => related v' v
  | .list vs', .list vs => List.Forall₂ related vs' vs
  | .enclosed enclosure' vs', .enclosed enclosure vs =>
      enclosure' = enclosure ∧ List.Forall₂ related vs' vs
  | _, _ => False

namespace Attribute

/-- Whether attributes differ in the places of their keywords only, given when their values do. -/
def Alike {α : Type} (related : α → α → Prop) (a' a : Attribute α) : Prop :=
  a'.keyword = a.keyword ∧ a'.content.Alike related a.content

section Shapes

variable {α : Type} {related : α → α → Prop} {c c' : Cursor}

theorem tracks_readKeyword (twin : Twin c c') (keyword : String) :
    Tracks (readKeyword keyword) (readKeyword keyword) c' c fun _ _ _ => True := by
  refine tracks_get ((tracks_word? twin keyword).bind twin ?_)
  rintro isWord _ d' d twinD - rfl
  cases isWord with
  | true => exact tracks_pure trivial
  | false => exact tracks_fail twinD _ _

theorem tracks_failPayload (twin : Twin c c') {related : α → α → Cursor → Prop} (form : PayloadForm)
    (keyword : String) : Tracks (failPayload form keyword) (failPayload form keyword) c' c related := by
  refine tracks_get ?_
  rw [isAbsent_eq_of_twin twin]
  exact tracks_fail twin _ _

theorem placeless_readVoid (keyword : String) :
    Placeless (readVoid keyword) fun a' a _ => Alike related a' a := by
  intro c c' twin
  refine (tracks_readKeyword twin keyword).bind twin ?_
  rintro position' position d' d - - -
  exact tracks_pure ⟨rfl, trivial⟩

theorem placeless_readValue {payload : Reader α} (keyword : String)
    (placeless : Placeless payload fun v' v _ => related v' v) :
    Placeless (readValue keyword payload) fun a' a _ => Alike related a' a := by
  intro c c' twin
  refine (tracks_readKeyword twin keyword).bind twin ?_
  rintro position' position d' d twinD - -
  refine Tracks.bind_group? twinD ?_ ?_
  · rintro opening closing inner opening' closing' inner' twinInner -
    refine ((placeless _ _ twinInner).whole twinInner).inside.bind ?_
    rintro v' v same
    exact ⟨_, _, rfl, rfl, rfl, same⟩
  refine (tracks_token? twinD (by decide)).bind twinD ?_
  rintro _ _ e' e twinE - (⟨t', t, rfl, rfl, -, -⟩ | ⟨rfl, rfl⟩)
  · refine (placeless e e' twinE).bind twinE ?_
    rintro v' v f' f - - same
    exact tracks_pure ⟨rfl, same⟩
  · exact tracks_failPayload twinE _ _

theorem placeless_readList {items : Reader (List α)} (keyword : String)
    (placeless : Placeless items fun vs' vs d => List.Forall₂ related vs' vs ∧ d.rest = []) :
    Placeless (readList keyword items) fun a' a _ => Alike related a' a := by
  intro c c' twin
  refine (tracks_readKeyword twin keyword).bind twin ?_
  rintro position' position d' d twinD - -
  refine Tracks.bind_group? twinD ?_ (tracks_failPayload twinD _ _)
  rintro opening closing inner opening' closing' inner' twinInner -
  refine (placeless _ _ twinInner).inside.bind ?_
  rintro vs' vs same
  exact ⟨_, _, rfl, rfl, rfl, same⟩

theorem placeless_readEnclosed {parenItems braceItems : Reader (List α)} (keyword : String)
    (inParens : Placeless parenItems fun vs' vs d => List.Forall₂ related vs' vs ∧ d.rest = [])
    (inBraces : Placeless braceItems fun vs' vs d => List.Forall₂ related vs' vs ∧ d.rest = []) :
    Placeless (readEnclosed keyword parenItems braceItems) fun a' a _ => Alike related a' a := by
  intro c c' twin
  refine (tracks_readKeyword twin keyword).bind twin ?_
  rintro position' position d' d twinD - -
  refine Tracks.bind_group? twinD ?_ ?_
  · rintro opening closing inner opening' closing' inner' twinInner -
    refine (inParens _ _ twinInner).inside.bind ?_
    rintro vs' vs same
    exact ⟨_, _, rfl, rfl, rfl, rfl, same⟩
  refine Tracks.bind_group? twinD ?_ ?_
  · rintro opening closing inner opening' closing' inner' twinInner -
    refine (inBraces _ _ twinInner).inside.bind ?_
    rintro vs' vs same
    exact ⟨_, _, rfl, rfl, rfl, rfl, same⟩
  · refine tracks_get (tracks_reject ?_)
    rw [lookaheadError, lookaheadError, isAbsent_eq_of_twin twinD, found_eq_of_twin twinD]
    rfl

end Shapes

theorem placeless_read {γ α : Type} {related : α → α → Prop} {readItem : γ → Reader α}
    (placeless : ∀ item, Placeless (readItem item) fun v' v _ => related v' v) (n : Node γ) :
    Placeless (read readItem n) fun a' a _ => Alike related a' a := by
  obtain ⟨keyword, shape⟩ := n
  cases shape with
  | void => exact placeless_readVoid keyword
  | value payload => exact placeless_readValue keyword (placeless payload)
  | list item => exact placeless_readList keyword (placeless item).terminated
  | enclosed parenItem braceItem =>
      exact placeless_readEnclosed keyword (placeless parenItem).terminated
        (placeless braceItem).terminated

end Attribute

theorem placeless_readByKeyword {α : Type} {related : α → α → Prop} {set : String}
    {known : List String} {readerOf : String → Option (Reader α)}
    (placeless : ∀ keyword, ∀ r ∈ readerOf keyword, Placeless r fun v' v _ => related v' v) :
    Placeless (readByKeyword set known readerOf) fun v' v _ => related v' v := by
  intro c c' twin
  have unknown : Tracks (fail .keywordMismatch (.unknownAttribute set known))
      (fail .keywordMismatch (.unknownAttribute set known)) c' c fun v' v _ => related v' v :=
    tracks_fail twin _ _
  have alike := twin.alike
  refine tracks_get ?_
  dsimp only
  rcases rest : c.rest with - | ⟨t | ⟨delimiter, opening, closing, inner⟩, later⟩
  · rw [rest] at alike
    rw [Tree.eq_nil_of_alike alike]
    exact unknown
  · rw [rest] at alike
    obtain ⟨t', later', rest', sameToken, -⟩ := Tree.exists_token_of_alike alike
    rw [rest']
    dsimp only
    rw [Token.kind_eq_of_alike sameToken, Token.text_eq_of_alike sameToken]
    split
    · cases present : readerOf t.text with
      | none => exact unknown
      | some r => exact placeless t.text r present c c' twin
    · exact unknown
  · rw [rest] at alike
    obtain ⟨_, _, _, _, rest', -, -⟩ := Tree.exists_group_of_alike alike
    rw [rest']
    exact unknown

theorem AttrSet.placeless_read (s : AttrSet Payload) :
    Placeless s.read fun a' a _ => Attribute.Alike PayloadValue.Alike a' a := by
  apply placeless_readByKeyword
  intro keyword r isReader
  obtain ⟨n, -, rfl⟩ := Option.map_eq_some_iff.1 isReader
  exact Attribute.placeless_read (fun p c c' twin => p.tracks_read twin) n

/-! ## Results -/

namespace Parsed

/-- The text that a result is re-emitted as, if it is spliced at all. -/
def text? (v : Parsed) : Option String :=
  v.splice?.map Tree.printAll

mutual

/-- The texts that the results in a result are re-emitted as. -/
def partTexts : Parsed → List (Option String)
  | payload _ => []
  | keyword .. => []
  | attr ⟨_, _, content⟩ => contentTexts content
  | attrList items => textsAll items
  | terminated items => textsAll items

def contentTexts : Content Parsed → List (Option String)
  | .void => []
  | .value v => text? v :: partTexts v
  | .list items => textsAll items
  | .enclosed _ items => textsAll items

def textsAll : List Parsed → List (Option String)
  | [] => []
  | v :: later => text? v :: partTexts v ++ textsAll later

end

/-- The texts that a result and all results in it are re-emitted as. -/
def texts (v : Parsed) : List (Option String) :=
  v.text? :: v.partTexts

/-- Whether results are equal, and re-emitted as the same texts. -/
def Alike (v' v : Parsed) : Prop :=
  v'.same v ∧ v'.texts = v.texts

theorem Alike.text?_eq {v' v : Parsed} (alike : v'.Alike v) : v'.text? = v.text? :=
  (List.cons.inj alike.2).1

theorem alike_payload {p' p : PayloadValue} (alike : p'.Alike p) : Alike (.payload p') (.payload p) := by
  obtain ⟨same, sameSplice⟩ := alike
  refine ⟨by rwa [Parsed.same], ?_⟩
  have sameText := congrArg (Option.map Tree.printAll) sameSplice
  rw [Option.map_map, Option.map_map,
    show Tree.printAll ∘ Tree.unplacedAll = Tree.printAll from funext Tree.printAll_unplacedAll]
    at sameText
  rw [texts, texts, text?, text?, splice?, splice?, sameText, partTexts, partTexts]

theorem alike_keyword (ident : String) (position' position : Position) :
    Alike (.keyword ident position') (.keyword ident position) :=
  ⟨by simp [Parsed.same], by simp [texts, text?, splice?, partTexts, Tree.printAll, Tree.print, Token.word]⟩

theorem alike_all {vs' vs : List Parsed} (alike : List.Forall₂ Alike vs' vs) :
    sameAll vs' vs ∧ textsAll vs' = textsAll vs := by
  induction alike with
  | nil => exact ⟨by rw [sameAll], rfl⟩
  | cons first later inductionHypothesis =>
      obtain ⟨same, sameTexts⟩ := first
      obtain ⟨sameLater, sameTextsLater⟩ := inductionHypothesis
      refine ⟨by rw [sameAll, same, sameLater, Bool.and_self], ?_⟩
      rw [textsAll, textsAll, sameTextsLater]
      exact congrArg (· ++ _) sameTexts

theorem alike_attrList {vs' vs : List Parsed} (alike : List.Forall₂ Alike vs' vs) :
    Alike (.attrList vs') (.attrList vs) := by
  obtain ⟨same, sameTexts⟩ := alike_all alike
  exact ⟨by rwa [Parsed.same], by simp [texts, text?, splice?, partTexts, sameTexts]⟩

theorem alike_terminated {vs' vs : List Parsed} (alike : List.Forall₂ Alike vs' vs) :
    Alike (.terminated vs') (.terminated vs) := by
  obtain ⟨same, sameTexts⟩ := alike_all alike
  exact ⟨by rwa [Parsed.same], by simp [texts, text?, splice?, partTexts, sameTexts]⟩

theorem alike_attr {a' a : Attribute Parsed} (alike : Attribute.Alike Alike a' a) :
    Alike (.attr a') (.attr a) := by
  obtain ⟨keyword', position', content'⟩ := a'
  obtain ⟨keyword, position, content⟩ := a
  obtain ⟨sameKeyword, sameContent⟩ := alike
  obtain rfl : keyword' = keyword := sameKeyword
  cases content' <;> cases content <;> try exact absurd sameContent id
  · exact ⟨by simp [Parsed.same, Parsed.sameContent], rfl⟩
  · rename_i v' v
    have alike : Alike v' v := sameContent
    obtain ⟨same, sameTexts⟩ := alike
    have sameText : v'.splice?.map Tree.printAll = v.splice?.map Tree.printAll :=
      Alike.text?_eq ⟨same, sameTexts⟩
    refine ⟨by simpa [Parsed.same, Parsed.sameContent] using same, ?_⟩
    simp only [texts, text?, splice?, partTexts, contentTexts] at sameTexts ⊢
    rw [sameTexts, sameText]
  · obtain ⟨same, sameTexts⟩ := alike_all sameContent
    exact ⟨by simpa [Parsed.same, Parsed.sameContent] using same,
      by simp [texts, text?, splice?, partTexts, contentTexts, sameTexts]⟩
  · obtain ⟨sameEnclosure, sameItems⟩ := sameContent
    obtain ⟨same, sameTexts⟩ := alike_all sameItems
    exact ⟨by simp [Parsed.same, Parsed.sameContent, sameEnclosure, same],
      by simp [texts, text?, splice?, partTexts, contentTexts, sameTexts]⟩

end Parsed

/-- Attributes over results that are related are so themselves. -/
theorem Attribute.Alike.map {α β : Type} {related : α → α → Prop} {relatedTo : β → β → Prop}
    {f : α → β} (same : ∀ v' v, related v' v → relatedTo (f v') (f v)) {a' a : Attribute α}
    (alike : a'.Alike related a) : (a'.map f).Alike relatedTo (a.map f) := by
  obtain ⟨keyword', position', content'⟩ := a'
  obtain ⟨keyword, position, content⟩ := a
  obtain ⟨sameKeyword, sameContent⟩ := alike
  refine ⟨sameKeyword, ?_⟩
  have all {vs' vs : List α} (alike : List.Forall₂ related vs' vs) :
      List.Forall₂ relatedTo (vs'.map f) (vs.map f) :=
    List.forall₂_map_left_iff.2 (List.forall₂_map_right_iff.2 (alike.imp same))
  cases content' <;> cases content <;> try exact absurd sameContent id
  · trivial
  · exact same _ _ sameContent
  · exact all sameContent
  · exact ⟨sameContent.1, all sameContent.2⟩

/-! ## Grammars -/

namespace Grammar

theorem placeless_readItems (item : Grammar) {r : Reader Parsed}
    (placeless : Placeless r fun v' v _ => v'.Alike v) :
    Placeless (readItems item r) fun vs' vs d => List.Forall₂ Parsed.Alike vs' vs ∧ d.rest = [] := by
  unfold readItems
  split
  · exact fun c c' _ => tracks_of_error rfl rfl rfl
  · exact placeless.terminated

mutual

/-- Whatever the grammar, results are read alike on twins. -/
theorem placeless_read : ∀ g : Grammar, Placeless g.read fun v' v _ => v'.Alike v
  | payload p => by
      intro c c' twin
      rw [read]
      refine (p.tracks_read twin).bind twin ?_
      rintro v' v d' d - - alike
      exact tracks_pure (Parsed.alike_payload alike)
  | keyword ident => by
      intro c c' twin
      rw [read]
      refine (Attribute.tracks_readKeyword twin ident).bind twin ?_
      rintro position' position d' d - - -
      exact tracks_pure (Parsed.alike_keyword ident position' position)
  | node n => by
      rw [read]
      exact placeless_readNode n
  | attrList item => by
      intro c c' twin
      rw [read]
      refine Tracks.bind_openGroup twin fun closing inner closing' inner' twinInner => ?_
      refine (placeless_readItems item (placeless_read item) _ _ twinInner).inside.bind ?_
      rintro vs' vs alike
      exact ⟨_, _, rfl, rfl, Parsed.alike_attrList alike⟩
  | terminated item => by
      intro c c' twin
      rw [read]
      refine (placeless_readItems item (placeless_read item) c c' twin).bind twin ?_
      rintro vs' vs d' d - - ⟨alike, -⟩
      exact tracks_pure (Parsed.alike_terminated alike)
  | attrs s => by
      rw [read]
      exact placeless_readSet s
  | builtin b => by
      intro c c' twin
      rw [read]
      refine (b.set.placeless_read c c' twin).bind twin ?_
      rintro a' a d' d - - alike
      exact tracks_pure (Parsed.alike_attr (alike.map (f := Parsed.payload) fun _ _ => Parsed.alike_payload))
  | bare form => by
      rw [read]
      exact fun c c' _ => tracks_of_error rfl rfl rfl
  | foreign d => by
      rw [read]
      exact fun c c' _ => tracks_of_error rfl rfl rfl

theorem placeless_readNode : ∀ n : Node Grammar, Placeless (readNode n) fun v' v _ => v'.Alike v
  | ⟨ident, shape⟩ => by
      intro c c' twin
      rw [readNode]
      refine (placeless_readShape ident shape c c' twin).bind twin ?_
      rintro a' a d' d - - alike
      exact tracks_pure (Parsed.alike_attr alike)

theorem placeless_readShape (ident : String) : ∀ shape : Shape Grammar,
    Placeless (readShape ident shape) fun a' a _ => Attribute.Alike Parsed.Alike a' a
  | .void => by
      rw [readShape]
      exact Attribute.placeless_readVoid ident
  | .value content => by
      rw [readShape]
      exact Attribute.placeless_readValue ident (placeless_read content)
  | .list item => by
      rw [readShape]
      exact Attribute.placeless_readList ident (placeless_readItems item (placeless_read item))
  | .enclosed parenItem braceItem => by
      rw [readShape]
      exact Attribute.placeless_readEnclosed ident
        (placeless_readItems parenItem (placeless_read parenItem))
        (placeless_readItems braceItem (placeless_read braceItem))

theorem placeless_readSet : ∀ s : AttrSet Grammar, Placeless (readSet s) fun v' v _ => v'.Alike v
  | ⟨set, nodes⟩ => by
      rw [readSet]
      exact placeless_readByKeyword (placeless_readerOf? nodes)

theorem placeless_readerOf? : ∀ (nodes : List (Node Grammar)) (wanted : String),
    ∀ r ∈ readerOf? nodes wanted, Placeless r fun v' v _ => v'.Alike v
  | [], _, r, isReader => by
      rw [readerOf?] at isReader
      cases isReader
  | n :: later, wanted, r, isReader => by
      rw [readerOf?] at isReader
      split at isReader
      · obtain rfl := Option.some.inj isReader
        exact placeless_readNode n
      · exact placeless_readerOf? later wanted r isReader

end

end Grammar

end AttrGrammar
