import AttrGrammar.Proofs.Types.Alternatives
import AttrGrammar.Proofs.Types.Surplus

/-!
Contract: what readers of types answer, by the grammar of types.

Owns:
- for the readers of types and of their parts, with calls of sufficient depth: what they yield is what a derivation of
  the trees denotes that they consume, and what they reject is malformed or, at its first tree, a surplus.

The induction is on the depth of the calls. The weight of what is left bounds the depth that is needed, so that no
call is cut off. This is the only traversal of these readers that goes by the grammar.
-/

namespace AttrGrammar

namespace TypeExpr

open Cursor Reader

/-! ## Parts -/

section Parts

variable {c : Cursor} {places : Position → Prop}

theorem meets_readPointerMode :
    Meets (fun isMutable e => ∃ mode : PointerMode, mode.isMutable = isMutable ∧ c.Takes [.token mode.token] e) places
      readPointerMode c := by
  refine (rejectsWithin_word? "mut").meets.bind fun isMut d isRead => ?_
  obtain ⟨t, rfl, isWord, takes⟩ | ⟨rfl, rfl, -⟩ := word?_eq_ok isRead
  · exact meets_pure ⟨.writes ⟨t, isWord⟩, rfl, takes⟩
  · refine (rejectsWithin_word? "const").meets.bind fun isConst e isRead => ?_
    obtain ⟨t, rfl, isWord, takes⟩ | ⟨rfl, rfl, -⟩ := word?_eq_ok isRead
    · exact meets_pure ⟨.reads ⟨t, isWord⟩, rfl, takes⟩
    · exact meets_fail _

end Parts

/-! ## Alternatives -/

section Alternatives

variable {depth : Nat} {c d : Cursor} {opening closing : Position} {inner later : List Tree}

/-- Whether a reader yields what a derivation of the type at a cursor denotes, and rejects that type as malformed, or
for its surplus. It may start behind what is in front of the type. -/
def MeetsType (c : Cursor) (r : Reader TypeExpr) (d : Cursor) : Prop :=
  Meets (fun t e => ∃ d : Derivation, d.type = t ∧ c.Takes d.trees e) (Surplus c) r d

/-- Whether the reader of types does so with calls of a depth, where that is sufficient. -/
def MeetsAt (depth : Nat) : Prop :=
  ∀ {c : Cursor}, 3 * c.weight + 3 ≤ depth → MeetsType c (readAt depth) c

theorem meets_readReference (meets : MeetsAt depth) {amp : Token} (isAmp : amp.kind = .amp)
    (inAmp : c.Takes [.token amp] d) (enough : 3 * d.weight + 3 ≤ depth) :
    MeetsType c (readReference depth amp.position) d := by
  refine (rejectsWithin_token? .lifetime).meets.bind fun _ e isLifetime => ?_
  obtain ⟨lifetime, rfl, inLifetime, -⟩ := optional_of_token? isLifetime
  refine (rejectsWithin_word? "mut").meets.bind fun _ f isMut => ?_
  obtain ⟨mutability, rfl, inMut⟩ := optional_of_word? isMut
  have inFront := inLifetime.trans inMut
  have lighter := inFront.weight_le
  have target := meets (c := f) (by omega)
  refine (target.mono fun p => .reference ⟨amp, isAmp⟩ lifetime mutability (inAmp.cons inFront)).bind ?_
  rintro _ g ⟨target, rfl, inTarget⟩
  refine meets_pure ⟨.reference ⟨amp, isAmp⟩ lifetime mutability target, ?_,
    inAmp.cons (inLifetime.trans (inMut.trans inTarget))⟩
  rw [Derivation.type, Option.map_map]
  rfl

theorem meets_readPointer (meets : MeetsAt depth) {star : Token} (isStar : star.kind = .star)
    (inStar : c.Takes [.token star] d) (enough : 3 * d.weight + 3 ≤ depth) :
    MeetsType c (readPointer depth star.position) d := by
  refine meets_readPointerMode.bind ?_
  rintro _ e ⟨mode, rfl, inMode⟩
  have lighter := inMode.weight_le
  have target := meets (c := e) (by omega)
  refine (target.mono fun p => .pointer ⟨star, isStar⟩ mode (inStar.cons inMode)).bind ?_
  rintro _ f ⟨target, rfl, inTarget⟩
  exact meets_pure ⟨.pointer ⟨star, isStar⟩ mode target, rfl, inStar.cons (inMode.cons inTarget)⟩

/-- What stands in brackets is a slice or an array, or rejected for the surplus of its element, or for its own. -/
theorem meets_readBracketed (meets : MeetsAt depth) (rest : c.rest = .group .bracket opening closing inner :: later)
    (enough : 3 * (ofTrees inner closing).weight + 3 ≤ depth) :
    Meets (fun t _ => ∃ d : Derivation, d.type = t ∧ d.trees = [.group .bracket opening closing inner]) (Surplus c)
      (readBracketed depth opening) (ofTrees inner closing) := by
  refine ((meets enough).mono fun p => Surplus.brackets rest).rejects.meets.bind fun t d isElement => ?_
  obtain ⟨element, rfl, inElement⟩ := (meets enough).reads t d isElement
  obtain ⟨s, isRead⟩ := read_of_readAt enough isElement
  refine (rejectsWithin_token? .semi).meets.bind fun _ e isSemi => ?_
  obtain ⟨semi, rfl, isKind, inSemi⟩ | ⟨rfl, rfl, other⟩ := token?_eq_ok isSemi
  · have length : RejectsWithin (Surplus c) (whole Expr.read) e := by
      refine Expr.rejectsWithin_read.whole fun length f isLength tree behind left => ?_
      exact .behindLength ⟨semi, isKind⟩ rest isRead inSemi f isLength left
    refine length.meets.bind fun length f isLength => meets_pure ?_
    obtain ⟨holds, -, inLength⟩ := Expr.whole_read_eq_ok_iff.1 isLength
    have sameFinish : e.finish = closing := inSemi.finish_eq.trans inElement.finish_eq
    rw [sameFinish] at holds
    obtain rfl := (inElement.trans (inSemi.cons inLength)).all (whole_eq_ok_iff.1 isLength).2
    exact ⟨.array opening closing element ⟨semi, isKind⟩ e.rest length.node (isLength_iff_extent.2 holds), rfl, rfl⟩
  · have ends : RejectsWithin (Surplus c) expectEnd e := by
      refine rejectsWithin_expectEnd fun tree behind left => .behindElement rest isRead left ?_
      cases tree with
      | token t => exact decide_eq_false (other t behind left)
      | group => rfl
    refine ends.meets.bind fun _ f ended => meets_pure ?_
    obtain ⟨atEnd, rfl⟩ := expectEnd_eq_ok_iff.1 ended
    obtain rfl := inElement.all atEnd
    exact ⟨.slice opening closing element, rfl, rfl⟩

/-- Whether segments that are read with calls of a depth have derivations, and are rejected as malformed or for the
surplus of an argument. -/
def SegmentsMeetAt (depth : Nat) : Prop :=
  ∀ {c : Cursor}, 3 * c.weight + 2 ≤ depth →
    Meets (fun segments e => ∃ (name : TokenOf .ident) (generics : Generics) (later : Segments),
        .mk name.1.text generics.args :: later.segments = segments ∧
          c.Takes (.token name.1 :: (generics.trees ++ later.trees)) e)
      (fun p => ∃ e, PathArgumentAt c e ∧ Surplus e p) (readSegments depth) c

/-- What is read as a placeholder or a path is one. -/
theorem meets_readNamed (meets : SegmentsMeetAt depth) (enough : 3 * c.weight + 2 ≤ depth) :
    MeetsType c (readNamed depth c.position) c := by
  refine (rejectsWithin_word? "_").meets.bind fun _ d isPlaceholder => ?_
  obtain ⟨word, rfl, isWord, inWord⟩ | ⟨rfl, rfl, noPlaceholder⟩ := word?_eq_ok isPlaceholder
  · exact meets_pure ⟨.infer ⟨word, isWord⟩, by rw [Derivation.type, inWord.position_eq]; rfl, inWord⟩
  refine (rejectsWithin_of_ok (pathNext_eq d)).meets.bind fun isPath f isNext => ?_
  cases isPath with
  | false => exact meets_fail _
  | true =>
      obtain ⟨rfl, front, later, rest, isPath⟩ := pathNext_eq_true_iff.1 isNext
      refine (rejectsWithin_token? .pathSep).meets.bind fun _ g isRoot => ?_
      obtain ⟨root, rfl, inRoot, noRoot⟩ := optional_of_token? isRoot
      have lighter := inRoot.weight_le
      -- Where there is no root, the token in front is the first name.
      have starts (noRootHere : root = none) (t : Token) (later' : List Tree) (rest' : g.rest = .token t :: later') :
          StartsPath t.text := by
        subst noRootHere
        obtain rfl := inRoot.eq_of_nil
        obtain rfl := Tree.token.inj (List.cons.inj (rest.symm.trans rest')).1
        obtain ⟨isIdent, starts⟩ | isSep := isPath
        · refine ⟨fun isPlaceholder => ?_, startsPath_iff.1 starts⟩
          exact Bool.eq_false_iff.1 (noPlaceholder _ _ rest) (Token.isWord_iff.2 ⟨isIdent, isPlaceholder⟩)
        · exact absurd isSep (noRoot rfl _ _ rest)
      have inArgument (p : Position) : (∃ e, PathArgumentAt g e ∧ Surplus e p) → Surplus f p := by
        rintro ⟨e, argument, surplus⟩
        exact .path root inRoot starts argument surplus
      refine ((meets (c := g) (by omega)).mono inArgument).bind ?_
      rintro _ e ⟨name, generics, later, rfl, inNames⟩
      have inPath := inRoot.trans inNames
      refine meets_pure ⟨.path root name (fun noRootHere => starts noRootHere _ _ inNames.rest) generics later, ?_,
        inPath⟩
      rw [Derivation.type, Option.isSome_map]
      cases root with
      | none =>
          have here : f.position = name.1.position := inPath.position_eq
          rw [here]
          rfl
      | some sep =>
          have here : f.position = sep.1.position := inPath.position_eq
          rw [here]
          rfl

end Alternatives

/-! ## All types -/

mutual

/-- What is read as a type has a derivation, and what is rejected is malformed or has a surplus. -/
theorem meets_readAt : ∀ depth : Nat, MeetsAt depth
  | 0, _, enough => by omega
  | depth + 1, c, enough => by
      rcases rest : c.rest with - | ⟨u | ⟨_ | _ | _, opening, closing, inner⟩, later⟩
      · have here : readAt (depth + 1) c = fail .malformedItem (.noItem .type) c := by rw [readAt_succ, rest]
        exact (meets_fail _).of_eq here
      · have inFront : c.Takes [.token u] (c.skip 1) := takes_skip rest
        have lighter := inFront.weight_token
        have here : readAt (depth + 1) c = _ := readAt_token inFront
        split_ifs at here with isAmp isStar
        · exact (meets_readReference (meets_readAt depth) isAmp inFront (by omega)).of_eq here
        · exact (meets_readPointer (meets_readAt depth) isStar inFront (by omega)).of_eq here
        · have start : c.position = u.position := inFront.position_eq
          exact (meets_readNamed (meets_readSegments depth) (by omega)).of_eq (start ▸ here)
      · have inFront : c.Takes [.group .paren opening closing inner] (c.skip 1) := takes_skip rest
        have lighter := inFront.weight_group
        have read := (meets_readElements depth (c := ofTrees inner closing) (by omega)).inside (c := c.skip 1)
        have inTuple (p : Position) : (∃ d, ItemAt TypeExpr.read (ofTrees inner closing) d ∧ Surplus d p) →
            Surplus c p := by
          rintro ⟨d, item, surplus⟩
          exact .tuple rest item surplus
        have inParens : MeetsType c (readParens depth opening (ofTrees inner closing)) (c.skip 1) := by
          refine (read.mono inTuple).bind ?_
          rintro ⟨_, _⟩ d ⟨⟨elements, rfl, rfl, inElements⟩, rfl⟩
          obtain rfl : elements.trees = inner := inElements
          exact meets_pure ⟨elements.derivation opening closing, (elements.parenthesised_types opening closing).symm,
            (elements.trees_derivation opening closing).symm ▸ inFront⟩
        exact inParens.of_eq (readAt_paren inFront)
      · have here : readAt (depth + 1) c = fail .malformedItem (.noItem .type) c := by rw [readAt_succ, rest]
        exact (meets_fail _).of_eq here
      · have inFront : c.Takes [.group .bracket opening closing inner] (c.skip 1) := takes_skip rest
        have lighter := inFront.weight_group
        have inBrackets := (meets_readBracketed (meets_readAt depth) rest (by omega)).inside (c := c.skip 1)
        refine Meets.of_eq ⟨?_, inBrackets.rejects⟩ (readAt_bracket inFront)
        intro t e isRead
        obtain ⟨⟨d, isType, trees⟩, rfl⟩ := inBrackets.reads t e isRead
        exact ⟨d, isType, trees ▸ inFront⟩

/-- What is read between parentheses is elements, up to the end, and rejected for the surplus of one of them. -/
theorem meets_readElements : ∀ (depth : Nat) {c : Cursor}, 3 * c.weight + 4 ≤ depth →
    Meets (fun read _ => ∃ elements : Elements, elements.types = read.1 ∧ elements.commaLast = read.2 ∧
        elements.trees = c.rest)
      (fun p => ∃ e, ItemAt read c e ∧ Surplus e p) (readElements depth) c
  | 0, _, enough => by omega
  | depth + 1, c, enough => by
      unfold readElements
      refine meets_get ?_
      split_ifs with isEmpty
      · exact meets_pure ⟨.done, rfl, rfl, (List.isEmpty_iff.1 isEmpty).symm⟩
      have first := meets_readAt depth (c := c) (by omega)
      refine (first.mono fun p surplus => ⟨c, .first c, surplus⟩).rejects.meets.bind fun t d isElement => ?_
      obtain ⟨element, rfl, inElement⟩ := first.reads t d isElement
      obtain ⟨s, isRead⟩ := read_of_readAt (by omega) isElement
      refine meets_get ?_
      split_ifs with atEnd
      · refine meets_pure ⟨.last element, rfl, rfl, ?_⟩
        rw [inElement.rest, List.isEmpty_iff.1 atEnd, List.append_nil]
        rfl
      refine (rejectsWithin_expect .comma _).meets.bind fun comma f isComma => ?_
      obtain ⟨isKind, inComma⟩ := expect_eq_ok_iff.1 isComma
      have lighter := inElement.weight_le
      have lighterBehind := inComma.weight_token
      refine ((meets_readElements depth (c := f) (by omega)).mono ?_).bind ?_
      · rintro p ⟨e, item, surplus⟩
        exact ⟨e, .behind isRead inComma.rest isKind (inComma.moved ▸ item), surplus⟩
      rintro ⟨_, _⟩ g ⟨later, rfl, rfl, trees⟩
      refine meets_pure ⟨.next element ⟨comma, isKind⟩ later, rfl, rfl, ?_⟩
      rw [inElement.rest, inComma.rest, ← trees]
      rfl

/-- What is read as the segments of a path has derivations. -/
theorem meets_readSegments : ∀ depth : Nat, SegmentsMeetAt depth
  | 0, _, enough => by omega
  | depth + 1, c, enough => by
      rw [readSegments_succ]
      refine (rejectsWithin_expect .ident _).meets.bind fun name d isName => ?_
      obtain ⟨isKind, inName⟩ := expect_eq_ok_iff.1 isName
      have lighter := inName.weight_token
      refine ((meets_readGenerics depth (c := d) (by omega)).mono ?_).bind ?_
      · rintro p ⟨left, e, f, inLeft, argument, surplus⟩
        exact ⟨f, .inside ⟨name, isKind⟩ left (inName.cons inLeft) argument, surplus⟩
      rintro _ f ⟨generics, rfl, inGenerics⟩
      have lighterGenerics := inGenerics.weight_le
      refine (rejectsWithin_token? .pathSep).meets.bind fun _ g isSep => ?_
      obtain ⟨sep, rfl, isSepKind, inSep⟩ | ⟨rfl, rfl, -⟩ := token?_eq_ok isSep
      · have lighterSep := inSep.weight_token
        refine ((meets_readSegments depth (c := g) (by omega)).mono ?_).bind ?_
        · rintro p ⟨e, argument, surplus⟩
          exact ⟨e, .behind ⟨name, isKind⟩ generics ⟨sep, isSepKind⟩ (inName.cons (inGenerics.trans inSep)) argument,
            surplus⟩
        rintro _ h ⟨name', generics', later, rfl, inLater⟩
        exact meets_pure ⟨⟨name, isKind⟩, generics, .next ⟨sep, isSepKind⟩ name' generics' later, rfl,
          inName.cons (inGenerics.trans (inSep.cons inLater))⟩
      · exact meets_pure ⟨⟨name, isKind⟩, generics, .done, rfl, inName.cons (inGenerics.trans (.refl g))⟩

/-- What is read as the generic arguments of a segment has a derivation, also if there are none. -/
theorem meets_readGenerics : ∀ (depth : Nat) {c : Cursor}, 3 * c.weight + 2 ≤ depth →
    Meets (fun args e => ∃ generics : Generics, generics.args = args ∧ c.Takes generics.trees e)
      (fun p => ∃ (left : TokenOf .langle) (d e : Cursor), c.Takes [.token left.1] d ∧ ArgumentAt d e ∧ Surplus e p)
      (readGenerics depth) c
  | depth, c, enough => by
      refine (rejectsWithin_token? .langle).meets.bind fun _ d isLeft => ?_
      obtain ⟨left, rfl, isKind, inLeft⟩ | ⟨rfl, rfl, -⟩ := token?_eq_ok isLeft
      · have lighter := inLeft.weight_token
        have args := meets_readArgs depth (c := d) (by omega)
        refine Meets.mono ⟨?_, args.rejects⟩ ?_
        · intro _ e isRead
          obtain ⟨args, rfl, inArgs⟩ := args.reads _ e isRead
          exact ⟨.present ⟨left, isKind⟩ args, rfl, inLeft.cons inArgs⟩
        · rintro p ⟨e, argument, surplus⟩
          exact ⟨⟨left, isKind⟩, d, e, inLeft, argument, surplus⟩
      · exact meets_pure ⟨.absent, rfl, .refl d⟩

/-- What is read as generic arguments has a derivation, the closing `>` included. -/
theorem meets_readArgs : ∀ (depth : Nat) {c : Cursor}, 3 * c.weight + 5 ≤ depth →
    Meets (fun args e => ∃ d : Arguments, d.args = args ∧ c.Takes d.trees e)
      (fun p => ∃ e, ArgumentAt c e ∧ Surplus e p) (readArgs depth) c
  | 0, _, enough => by omega
  | depth + 1, c, enough => by
      unfold readArgs
      refine (rejectsWithin_token? .rangle).meets.bind fun _ d isRight => ?_
      obtain ⟨right, rfl, isKind, inRight⟩ | ⟨rfl, rfl, -⟩ := token?_eq_ok isRight
      · exact meets_pure ⟨.done ⟨right, isKind⟩, rfl, inRight⟩
      refine ((meets_readArg depth (c := d) (by omega)).mono fun p surplus => ⟨d, .first d, surplus⟩).bind ?_
      rintro _ f ⟨first, rfl, inFirst⟩
      have lighter := inFirst.weight_le
      refine (rejectsWithin_token? .comma).meets.bind fun _ g isComma => ?_
      obtain ⟨comma, rfl, isKind, inComma⟩ | ⟨rfl, rfl, -⟩ := token?_eq_ok isComma
      · have lighterBehind := inComma.weight_token
        refine ((meets_readArgs depth (c := g) (by omega)).mono ?_).bind ?_
        · rintro p ⟨e, argument, surplus⟩
          exact ⟨e, .behind first ⟨comma, isKind⟩ (inFirst.trans inComma) argument, surplus⟩
        rintro _ h ⟨later, rfl, inLater⟩
        exact meets_pure ⟨.next first ⟨comma, isKind⟩ later, rfl, inFirst.trans (inComma.cons inLater)⟩
      · refine (rejectsWithin_expect .rangle _).meets.bind fun right h isRight => ?_
        obtain ⟨isKind, inRight⟩ := expect_eq_ok_iff.1 isRight
        exact meets_pure ⟨.last first ⟨right, isKind⟩, rfl, inFirst.trans inRight⟩

/-- What is read as a generic argument has a derivation. -/
theorem meets_readArg : ∀ (depth : Nat) {c : Cursor}, 3 * c.weight + 4 ≤ depth →
    Meets (fun arg e => ∃ d : Argument, d.arg = arg ∧ c.Takes d.trees e) (Surplus c) (readArg depth) c
  | 0, _, enough => by omega
  | depth + 1, c, enough => by
      unfold readArg
      refine (rejectsWithin_token? .lifetime).meets.bind fun _ d isLifetime => ?_
      obtain ⟨lifetime, rfl, isKind, inLifetime⟩ | ⟨rfl, rfl, -⟩ := token?_eq_ok isLifetime
      · exact meets_pure ⟨.lifetime ⟨lifetime, isKind⟩, rfl, inLifetime⟩
      refine rejectsWithin_literal?.meets.bind fun found f isLiteral => ?_
      cases found with
      | some read =>
          obtain ⟨later, rest, rfl, holds, isValue⟩ := literal?_eq_some isLiteral
          exact meets_pure ⟨.literal read.token holds read.literal isValue, rfl, takes_skip rest⟩
      | none =>
          obtain rfl := eq_of_literal?_eq_none isLiteral
          refine (meets_readAt depth (c := f) (by omega)).bind ?_
          rintro _ g ⟨d, rfl, inType⟩
          exact meets_pure ⟨.type d, rfl, inType⟩

end

/-- What is read as a type has a derivation, with calls of sufficient depth. -/
theorem exists_of_readAt {depth : Nat} {c e : Cursor} {t : TypeExpr} (enough : 3 * c.weight + 3 ≤ depth)
    (isRead : readAt depth c = .ok t e) : ∃ d : Derivation, d.type = t ∧ c.Takes d.trees e :=
  (meets_readAt depth enough).reads t e isRead

end TypeExpr

end AttrGrammar
