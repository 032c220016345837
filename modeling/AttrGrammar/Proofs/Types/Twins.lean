import AttrGrammar.Proofs.Reading.Types
import AttrGrammar.Proofs.Types.Soundness

/-!
Contract: types are read alike from trees that differ in their places only.

Owns:
- the comparison of twins, by equality up to places;
- characters among the trees of a derivation have values;
- that the reader of types tracks itself on twins.
-/

namespace AttrGrammar

open Cursor Reader

/-! ## Characters -/

/-- Whether all characters among trees have values. -/
def Tree.HaveCharacters (trees : List Tree) : Prop :=
  ∀ t ∈ leavesAll trees, t.HasCharacter

namespace Tree

@[simp] theorem haveCharacters_nil : HaveCharacters [] := by
  simp [HaveCharacters, leavesAll]

@[simp] theorem haveCharacters_token {t : Token} {later : List Tree} :
    HaveCharacters (.token t :: later) ↔ t.HasCharacter ∧ HaveCharacters later := by
  simp [HaveCharacters, leavesAll, leaves]

@[simp] theorem haveCharacters_group {d : Delimiter} {opening closing : Position} {inner later : List Tree} :
    HaveCharacters (.group d opening closing inner :: later) ↔ HaveCharacters inner ∧ HaveCharacters later := by
  simp [HaveCharacters, leavesAll, leaves, or_imp, forall_and]

@[simp] theorem haveCharacters_append {front back : List Tree} :
    HaveCharacters (front ++ back) ↔ HaveCharacters front ∧ HaveCharacters back := by
  simp [HaveCharacters, or_imp, forall_and]

end Tree

open AttrGrammar.Tree

theorem hasCharacter_of_kind {t : Token} {kind : TokenKind} (isKind : t.kind = kind) (notChar : kind ≠ .char) :
    t.HasCharacter :=
  fun isChar => absurd (isKind.symm.trans isChar) notChar

theorem WordOf.hasCharacter {word : String} (t : WordOf word) : t.1.HasCharacter :=
  hasCharacter_of_kind (Token.isWord_iff.1 t.2).1 (by decide)

theorem haveCharacters_optional {holds : Token → Prop} (known : ∀ t, holds t → t.HasCharacter)
    (t : Option (Subtype holds)) : HaveCharacters (optionalTrees t) := by
  cases t with
  | none => exact haveCharacters_nil
  | some t => exact haveCharacters_token.2 ⟨known t.1 t.2, haveCharacters_nil⟩

namespace TypeExpr

theorem PointerMode.hasCharacter (mode : PointerMode) : mode.token.HasCharacter := by
  cases mode with
  | writes word => exact WordOf.hasCharacter word
  | reads word => exact WordOf.hasCharacter word

mutual

/-- The trees of a derivation have characters with values: of its leaves, only literals can be characters. -/
theorem Derivation.haveCharacters : ∀ d : Derivation, HaveCharacters d.trees
  | .reference amp lifetime mutability target => by
      simp only [Derivation.trees, haveCharacters_token, haveCharacters_append]
      refine ⟨hasCharacter_of_kind amp.2 (by decide), ?_, ?_, target.haveCharacters⟩
      · exact haveCharacters_optional (fun t isKind => hasCharacter_of_kind isKind (by decide)) lifetime
      · exact haveCharacters_optional (fun t isWord => WordOf.hasCharacter ⟨t, isWord⟩) mutability
  | .pointer star mode target => by
      simp only [Derivation.trees, haveCharacters_token]
      exact ⟨hasCharacter_of_kind star.2 (by decide), mode.hasCharacter, target.haveCharacters⟩
  | .unit .. => by simp [Derivation.trees]
  | .parens _ _ inner => by simpa [Derivation.trees] using inner.haveCharacters
  | .tuple _ _ first comma later => by
      simp only [Derivation.trees, haveCharacters_group, haveCharacters_append, haveCharacters_token]
      exact ⟨⟨first.haveCharacters, hasCharacter_of_kind comma.2 (by decide), later.haveCharacters⟩, by simp⟩
  | .slice _ _ element => by simpa [Derivation.trees] using element.haveCharacters
  | .array _ _ element semi trees length isLength => by
      simp only [Derivation.trees, haveCharacters_group, haveCharacters_append, haveCharacters_token]
      have inLength : HaveCharacters trees := Expr.hasCharacter_of_ofTrees (isLength_iff_extent.1 isLength).2.2
      exact ⟨⟨element.haveCharacters, hasCharacter_of_kind semi.2 (by decide), inLength⟩, by simp⟩
  | .infer word => by simpa [Derivation.trees] using WordOf.hasCharacter word
  | .path root name _ generics later => by
      simp only [Derivation.trees, haveCharacters_token, haveCharacters_append]
      refine ⟨?_, hasCharacter_of_kind name.2 (by decide), generics.haveCharacters, later.haveCharacters⟩
      exact haveCharacters_optional (fun t isKind => hasCharacter_of_kind isKind (by decide)) root

theorem Elements.haveCharacters : ∀ elements : Elements, HaveCharacters elements.trees
  | .done => haveCharacters_nil
  | .last element => element.haveCharacters
  | .next element comma later => by
      simp only [Elements.trees, haveCharacters_append, haveCharacters_token]
      exact ⟨element.haveCharacters, hasCharacter_of_kind comma.2 (by decide), later.haveCharacters⟩

theorem Segments.haveCharacters : ∀ segments : Segments, HaveCharacters segments.trees
  | .done => haveCharacters_nil
  | .next sep name generics later => by
      simp only [Segments.trees, haveCharacters_append, haveCharacters_token]
      exact ⟨hasCharacter_of_kind sep.2 (by decide), hasCharacter_of_kind name.2 (by decide),
        generics.haveCharacters, later.haveCharacters⟩

theorem Generics.haveCharacters : ∀ generics : Generics, HaveCharacters generics.trees
  | .absent => haveCharacters_nil
  | .present left args => haveCharacters_token.2 ⟨hasCharacter_of_kind left.2 (by decide), args.haveCharacters⟩

theorem Arguments.haveCharacters : ∀ args : Arguments, HaveCharacters args.trees
  | .done right => haveCharacters_token.2 ⟨hasCharacter_of_kind right.2 (by decide), haveCharacters_nil⟩
  | .last arg right => by
      simp only [Arguments.trees, haveCharacters_append, haveCharacters_token]
      exact ⟨arg.haveCharacters, hasCharacter_of_kind right.2 (by decide), haveCharacters_nil⟩
  | .next arg comma later => by
      simp only [Arguments.trees, haveCharacters_append, haveCharacters_token]
      exact ⟨arg.haveCharacters, hasCharacter_of_kind comma.2 (by decide), later.haveCharacters⟩

theorem Argument.haveCharacters : ∀ arg : Argument, HaveCharacters arg.trees
  | .lifetime t => haveCharacters_token.2 ⟨hasCharacter_of_kind t.2 (by decide), haveCharacters_nil⟩
  | .literal _ _ value isValue =>
      haveCharacters_token.2 ⟨fun isChar => ⟨value, isChar ▸ isValue⟩, haveCharacters_nil⟩
  | .type d => d.haveCharacters

end

end TypeExpr

/-! ## Twins -/

/-- Values by a notion of equality for which not all are equal to themselves. -/
def Likeness.same {α : Type} (same : α → α → Bool) : Likeness α where
  holds a' a := same a' a ∧ same a a
  self related := ⟨related.2, related.2⟩

namespace Comparison

/-- Trees compared but for their places. -/
def twins : Comparison where
  place := .any _
  literal := .same Literal.same
  expr := .same fun e' e => Expr.same Literal.same e'.node e.node
  Base c := ∀ t ∈ Tree.leavesAll c.rest, t.IsReflexive
  Shown _ _ c c' := Tree.unplacedAll c'.rest = Tree.unplacedAll c.rest
  Level c c' := Tree.unplacedAll c'.rest = Tree.unplacedAll c.rest
  Fails _ _ failure failure' _ _ := failure'.unplaced = failure.unplaced

section Twins

variable {α : Type} {same : α → α → Bool} {view : View} {r r' : Reader α} {c c' : Cursor}

/-- Readers follow themselves where the trees ahead are alike if they track themselves there. -/
theorem follows_of_tracks {related : α → α → Cursor → Prop} (base : twins.Base c)
    (isSame : ∀ v' v d, related v' v d → same v' v)
    (tracks : ∀ e : Cursor, Twin c e → Tracks r r e c related) : twins.Follows view r r c' c (.same same) where
  reads := by
    intro v d read
    obtain ⟨v'', d'', again, ⟨count, rfl, -, -⟩, self⟩ := (tracks c ⟨rfl, base⟩).reads v d read
    obtain ⟨rfl, -⟩ := EStateM.Result.ok.inj (read.symm.trans again)
    have isSelf := isSame _ _ _ self
    refine ⟨min count c.rest.length, Nat.min_le_right _ _, (c.skip_min count).symm, ⟨isSelf, isSelf⟩, fun alike => ?_⟩
    obtain ⟨v', d', read', ⟨other, sameMove, rfl, -⟩, related⟩ := (tracks c' ⟨alike, base⟩).reads v _ read
    refine ⟨v', ?_, isSame _ _ _ related, isSelf⟩
    rw [← c.skip_min count, ← c.skip_min other] at sameMove
    rw [skip_inj (Nat.min_le_right _ _) (Nat.min_le_right _ _) sameMove, ← Tree.length_eq_of_alike alike, skip_min]
    exact read'
  fails := by
    intro failure d fails alike
    obtain ⟨failure', d', fails', sameFailure⟩ := (tracks c' ⟨alike, base⟩).fails failure d fails
    exact ⟨failure', d', fails', sameFailure⟩

theorem alike_skip (alike : Tree.unplacedAll c'.rest = Tree.unplacedAll c.rest) (count : Nat) :
    Tree.unplacedAll (c'.skip count).rest = Tree.unplacedAll (c.skip count).rest := by
  simp only [skip, Tree.unplacedAll_drop, alike]

theorem frontsAlike_of_alike {trees trees' : List Tree} (alike : Tree.unplacedAll trees' = Tree.unplacedAll trees) :
    twins.FrontsAlike trees trees' := by
  rcases trees with - | ⟨t | ⟨d, opening, closing, inner⟩, later⟩
  · rw [Tree.eq_nil_of_alike alike]
    exact .nil
  · obtain ⟨t', later', rfl, sameToken, -⟩ := Tree.exists_token_of_alike alike
    exact .token ⟨Token.kind_eq_of_alike sameToken, Token.text_eq_of_alike sameToken, trivial⟩
  · obtain ⟨_, _, _, _, rfl, -, -⟩ := Tree.exists_group_of_alike alike
    exact .group trivial

end Twins

instance : twins.IsLawful where
  place_refl _ := trivial
  literal_self := by
    intro c t later l base rest decoded
    have isSelf := base t (rest ▸ List.mem_cons_self) l decoded
    exact ⟨isSelf, isSelf⟩
  base_skip base count := fun t member => base t (Tree.leavesAll_drop_subset _ count member)
  base_inner := by
    intro c d opening closing inner later base rest t member
    refine base t ?_
    rw [rest]
    exact List.mem_append_left _ member
  shown_of_le alike _ := alike
  shown_skip alike := alike_skip alike _
  shown_of_level alike _ := alike
  level_skip := alike_skip
  level_inner := by
    intro view c c' d opening opening' closing closing' inner inner' later later' alike rest rest'
    have trees : Tree.unplacedAll c'.rest = Tree.unplacedAll c.rest := alike
    rw [rest] at trees
    obtain ⟨_, _, _, _, here, sameInner, -⟩ := Tree.exists_group_of_alike trees
    obtain ⟨same, -⟩ := List.cons.inj (here.symm.trans rest')
    obtain ⟨-, -, -, rfl⟩ := Tree.group.inj same
    exact sameInner
  fronts_of_shown alike := .inl (frontsAlike_of_alike alike)
  fronts_of_one alike := frontsAlike_of_alike alike
  fronts_of_all alike := frontsAlike_of_alike alike
  fails_here := by
    intro c c' kind problem base alike
    rw [found_eq_of_twin ⟨alike, base⟩]
    rfl
  fails_literal := by
    intro c c' t t' later later' fault _ _ _ _ _
    exact Failure.unplaced_ofLiteral _ _ fault
  fails_behind := id
  fails_inside := id
  expr_follows base :=
    follows_of_tracks base (fun _ _ _ related => related.1.1) fun _ twin => (Expr.tracks_read twin).whole twin

end Comparison

namespace TypeExpr

open Comparison

/-! ## Types -/

section Same

attribute [local simp] same sameAll sameSegments sameArgs

theorem sameAll_of_forall₂ {as' as : List TypeExpr} (related : (Likeness.same same).list.holds as' as) :
    sameAll as' as ∧ sameAll as as := by
  induction related with
  | nil => simp
  | cons head _ inductionHypothesis => simp [head.1, head.2, inductionHypothesis]

/-- Equality of lists of segments is that of the segments. -/
theorem sameSegments_of_forall₂ {segments' segments : List PathSegment}
    (related : (Likeness.same fun a b => sameSegments [a] [b]).list.holds segments' segments) :
    sameSegments segments' segments ∧ sameSegments segments segments := by
  induction related with
  | nil => simp
  | @cons a' a later' later head _ inductionHypothesis =>
      obtain ⟨first, self⟩ := head
      cases a'
      cases a
      simp_all

/-- Equality of lists of generic arguments is that of the arguments. -/
theorem sameArgs_of_forall₂ {args' args : List GenericArg}
    (related : (Likeness.same fun a b => sameArgs [a] [b]).list.holds args' args) :
    sameArgs args' args ∧ sameArgs args args := by
  induction related with
  | nil => simp
  | @cons a' a later' later head _ inductionHypothesis =>
      obtain ⟨first, self⟩ := head
      cases a' <;> cases a <;> simp_all

/-- Types are compared by equality up to places. -/
def sameTypes : TypeLikeness twins where
  type := .same same
  segment := .same fun a b => sameSegments [a] [b]
  arg := .same fun a b => sameArgs [a] [b]
  reference target _ := by simp [Likeness.same, target.1, target.2]
  pointer target _ := by simp [Likeness.same, target.1, target.2]
  tuple elements _ := by simp [Likeness.same, sameAll_of_forall₂ elements]
  slice element _ := by simp [Likeness.same, element.1, element.2]
  array element length _ := by simp [Likeness.same, element.1, element.2, length.1, length.2]
  infer _ := by simp [Likeness.same]
  path names _ := by simp [Likeness.same, sameSegments_of_forall₂ names]
  named generics := by simp [Likeness.same, sameArgs_of_forall₂ generics]
  lifetimeArg name := by simp [Likeness.same]
  literalArg value _ := by simp [Likeness.same, value.1, value.2]
  typeArg target := by simp [Likeness.same, target.1, target.2]

end Same

variable {c c' d : Cursor} {t : Spelled TypeExpr}

/-- Types with their trees are read alike on twins. -/
theorem tracks_read (twin : Twin c c') : Tracks read read c' c fun t' t _ => t'.Alike same t := by
  have sameBound : depthBound c' = depthBound c := by
    rw [depthBound, depthBound, Tree.weightAll_eq_of_alike twin.alike]
  have follows : FollowsAt sameTypes (depthBound c) (depthBound c) := follows_readAt _ _
  have here : twins.Follows .all (readAt (depthBound c)) (readAt (depthBound c)) c' c (.same same) :=
    follows twin.reflexive (Nat.le_refl _) (Nat.le_refl _)
  constructor
  · intro t d isRead
    obtain ⟨isNode, trees⟩ := read_eq_ok_iff.1 isRead
    obtain ⟨derivation, -, inTrees⟩ := exists_of_readAt (Nat.le_refl _) isNode
    obtain ⟨count, within, rfl, -, again⟩ := here.reads t.node d isNode
    obtain ⟨node', isNode', isSame, -⟩ := again twin.alike
    refine ⟨⟨node', (c'.skip count).since c'.index⟩, _, read_eq_ok_iff.2 ⟨sameBound ▸ isNode', rfl⟩,
      ⟨count, rfl, rfl, ?_⟩, isSame, ?_⟩
    · have taken : c.rest.take count = derivation.trees := by
        rw [← since_skip, inTrees.moved, since_skip, inTrees.rest, List.take_left]
      rw [taken]
      exact derivation.haveCharacters
    · rw [trees, since_skip, since_skip, Tree.unplacedAll_take, Tree.unplacedAll_take, twin.alike]
  · intro failure d fails
    obtain ⟨failure', d', fails', isSame⟩ := here.fails failure d (read_eq_error_iff.1 fails) twin.alike
    exact ⟨failure', d', read_eq_error_iff.2 (sameBound ▸ fails'), isSame⟩

/-- The trees of a type that is all that is left are all trees. -/
theorem trees_of_read (isRead : read c = .ok t d) (atEnd : d.rest = []) : t.trees = c.rest := by
  obtain ⟨isNode, trees⟩ := read_eq_ok_iff.1 isRead
  obtain ⟨derivation, -, inTrees⟩ := exists_of_readAt (Nat.le_refl _) isNode
  rw [trees, inTrees.moved, since_skip, inTrees.rest, List.take_left, atEnd, List.append_nil]

end TypeExpr

end AttrGrammar
