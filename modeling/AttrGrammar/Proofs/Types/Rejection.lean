import AttrGrammar.Proofs.Types.Completeness
import AttrGrammar.Proofs.Types.Soundness

/-!
Contract: types with a surplus are rejected for it.

Owns:
- the rejection of a part of a type is that of the type, for each of its forms;
- types are rejected for an unexpected token exactly if they have a surplus, at its first tree, and else as malformed.
-/

namespace AttrGrammar

namespace TypeExpr

open Cursor Reader

/-- What a type with a surplus starts with can start a type. -/
theorem Surplus.leads {c : Cursor} {p : Position} (surplus : Surplus c p) {t : Token} {later : List Tree}
    (rest : c.rest = .token t :: later) : LeadsType t := by
  have noGroup {delimiter : Delimiter} {opening closing : Position} {inner behind : List Tree}
      (rest' : c.rest = .group delimiter opening closing inner :: behind) : LeadsType t := by
    rw [rest] at rest'
    cases rest'
  cases surplus with
  | reference amp lifetime mutability inFront =>
      rw [inFront.token_eq rest]
      exact leadsType_of_kind amp.2 (by decide) (by decide) rfl (by decide)
  | pointer star mode inFront =>
      rw [inFront.token_eq rest]
      exact leadsType_of_kind star.2 (by decide) (by decide) rfl (by decide)
  | path root inRoot starts argument =>
      cases root with
      | some sep =>
          rw [Takes.token_eq (t := sep.1) inRoot rest]
          exact leadsType_of_kind sep.2 (by decide) (by decide) rfl (by decide)
      | none =>
          obtain rfl := inRoot.eq_of_nil
          obtain ⟨name, later', rest'⟩ := argument.exists_name
          obtain rfl := Tree.token.inj (List.cons.inj (rest.symm.trans rest')).1
          have starts := starts rfl _ _ rest'
          exact leadsType_of_ident name.2 (starts.ne (by decide) (by decide)) (starts.ne (by decide) (by decide))
            (starts.ne (by decide) (by decide))
  | tuple rest' | brackets rest' | behindElement rest' => exact noGroup rest'
  | behindLength semi rest' => exact noGroup rest'

/-! ## What a surplus does -/

section Rejected

variable {c d : Cursor} {p : Position}

/-- Whether types are rejected for an unexpected token at a place, with calls of sufficient depth. -/
def IsRejected (c : Cursor) (p : Position) : Prop :=
  ∀ depth : Nat, 3 * c.weight + 3 ≤ depth → Rejects .unexpectedToken p (readAt depth) c

theorem Surplus.ne_nil (surplus : Surplus c p) : c.rest ≠ [] := by
  cases surplus with
  | reference _ _ _ inFront | pointer _ _ inFront => simp [inFront.rest]
  | tuple rest | brackets rest | behindElement rest => simp [rest]
  | behindLength _ rest => simp [rest]
  | path root inRoot starts argument =>
      obtain ⟨name, later, rest⟩ := argument.exists_name
      simp [inRoot.rest, rest]

/-- The rejection of an element is that of the elements between the parentheses. -/
theorem rejects_readElements (item : ItemAt read c d) (someLeft : d.rest ≠ []) (rejected : IsRejected d p) :
    ∀ depth : Nat, 3 * c.weight + 4 ≤ depth →
      Rejects .unexpectedToken p (readElements depth) c := by
  induction item with
  | first c =>
      intro depth enough
      obtain _ | depth := depth
      · omega
      unfold readElements
      refine rejects_bind_of_ok (v := c) (d := c) rfl ?_
      rw [if_neg (mt isEmpty_iff_rest.1 someLeft)]
      exact (rejected depth (by omega)).bind
  | @behind c d e s comma later isRead rest isComma item inductionHypothesis =>
      intro depth enough
      obtain _ | depth := depth
      · omega
      have isElement : readAt depth c = .ok s.node d := readAt_of_read (by omega) isRead
      obtain ⟨element, -, inElement⟩ := exists_of_readAt (by omega) isElement
      have inComma : d.Takes [.token comma] (d.skip 1) := takes_skip rest
      have lighter := inElement.weight_le
      have lighterBehind := inComma.weight_token
      unfold readElements
      refine rejects_bind_of_ok (v := c) (d := c) rfl ?_
      rw [if_neg (mt isEmpty_iff_rest.1 (element.ne_nil_of_takes inElement))]
      refine rejects_bind_of_ok isElement (rejects_bind_of_ok (v := d) (d := d) rfl ?_)
      rw [if_neg (by simp [isEmpty, rest])]
      refine rejects_bind_of_ok (expect_eq_ok_iff.2 ⟨isComma, inComma⟩) (Rejects.bind ?_)
      exact inductionHypothesis someLeft rejected depth (by omega)

/-- The rejection of a generic argument is that of the arguments. -/
theorem rejects_readArgs (argument : ArgumentAt c d) (leads : ∀ t later, d.rest = .token t :: later → LeadsType t)
    (rejected : IsRejected d p) : ∀ depth : Nat, 3 * c.weight + 5 ≤ depth →
      Rejects .unexpectedToken p (readArgs depth) c := by
  induction argument with
  | first c =>
      intro depth enough
      obtain _ | _ | depth := depth
      · omega
      · omega
      unfold readArgs readArg
      refine rejects_bind_of_ok (token?_of_other fun t later rest => (leads t later rest).notRight) (Rejects.bind ?_)
      refine rejects_bind_of_ok (token?_of_other fun t later rest => (leads t later rest).notLifetime) ?_
      refine rejects_bind_of_ok (literal?_of_other fun t later rest => (leads t later rest).notLiteral) ?_
      exact (rejected depth (by omega)).bind
  | behind arg comma inFront later inductionHypothesis =>
      intro depth enough
      obtain _ | depth := depth
      · omega
      obtain ⟨e, inArg, inComma⟩ := inFront.split
      have lighter := inArg.weight_le
      have lighterBehind := inComma.weight_token
      have isArg := arg.isRead depth inArg (endsPath_of_takes comma.2 inComma (by decide) (by decide)) (by omega)
      unfold readArgs
      refine rejects_bind_of_ok (token?_of_other fun t later rest => Argument.notRight inArg rest) ?_
      refine rejects_bind_of_ok isArg (rejects_bind_of_ok (token?_of_takes comma.2 inComma) (Rejects.bind ?_))
      exact inductionHypothesis leads rejected depth (by omega)

/-- The rejection of an argument of a path is that of its segments. -/
theorem rejects_readSegments (argument : PathArgumentAt c d)
    (leads : ∀ t later, d.rest = .token t :: later → LeadsType t) (rejected : IsRejected d p) :
    ∀ depth : Nat, 3 * c.weight + 2 ≤ depth →
      Rejects .unexpectedToken p (readSegments depth) c := by
  induction argument with
  | inside name left inFront argument =>
      intro depth enough
      obtain _ | depth := depth
      · omega
      obtain ⟨e, inName, inLeft⟩ := inFront.uncons
      have lighter := inName.weight_token
      have lighterBehind := inLeft.weight_token
      rw [readSegments_succ]
      refine rejects_bind_of_ok (expect_eq_ok_iff.2 ⟨name.2, inName⟩) (Rejects.bind ?_)
      refine rejects_bind_of_ok (token?_of_takes left.2 inLeft) ?_
      exact rejects_readArgs argument leads rejected depth (by omega)
  | behind name generics sep inFront later inductionHypothesis =>
      intro depth enough
      obtain _ | depth := depth
      · omega
      obtain ⟨e, inName, inOthers⟩ := inFront.uncons
      obtain ⟨f, inGenerics, inSep⟩ := inOthers.split
      have lighterName := inName.weight_token
      have lighter := inGenerics.weight_le
      have lighterBehind := inSep.weight_token
      have notLeft : ∀ t later, f.rest = .token t :: later → t.kind ≠ .langle := by
        intro t later rest
        rw [inSep.token_eq rest, sep.2]
        decide
      rw [readSegments_succ]
      refine rejects_bind_of_ok (expect_eq_ok_iff.2 ⟨name.2, inName⟩) ?_
      refine rejects_bind_of_ok (generics.areRead depth inGenerics notLeft (by omega)) ?_
      refine rejects_bind_of_ok (token?_of_takes sep.2 inSep) (Rejects.bind ?_)
      exact inductionHypothesis leads rejected depth (by omega)

/-! One form of types after the other: what is rejected in a part of the type is rejected in it. -/

theorem isRejected_of_succ (rejects : ∀ depth : Nat, 3 * c.weight + 3 ≤ depth + 1 →
    Rejects .unexpectedToken p (readAt (depth + 1)) c) : IsRejected c p := by
  intro depth enough
  obtain _ | depth := depth
  · omega
  · exact rejects depth enough

theorem isRejected_reference (amp : TokenOf .amp) (lifetime : Option (TokenOf .lifetime))
    (mutability : Option (WordOf "mut"))
    (inFront : c.Takes (.token amp.1 :: (optionalTrees lifetime ++ optionalTrees mutability)) d)
    (leads : ∀ t later, d.rest = .token t :: later → LeadsType t) (rejected : IsRejected d p) : IsRejected c p := by
  refine isRejected_of_succ fun depth enough => ?_
  obtain ⟨e, inAmp, inOthers⟩ := inFront.uncons
  obtain ⟨f, inLifetime, inMut⟩ := inOthers.split
  have lighter := inAmp.weight_token
  have lighterBehind := inOthers.weight_le
  have isLifetime : token? .lifetime e = .ok (lifetime.map Subtype.val) f := by
    refine token?_of_optional inLifetime fun t later rest => ?_
    cases mutability with
    | none =>
        obtain rfl := inMut.eq_of_nil
        exact (leads t later rest).notLifetime
    | some word =>
        rw [Takes.token_eq (t := word.1) inMut rest, (Token.isWord_iff.1 word.2).1]
        decide
  have isMut : word? "mut" f = .ok mutability.isSome d :=
    word?_of_optional inMut fun t later rest => (leads t later rest).notMut
  have rejects := rejected depth (by omega)
  rw [Rejects, outcome, readAt_token inAmp, if_pos amp.2]
  exact rejects_bind_of_ok isLifetime (rejects_bind_of_ok isMut rejects.bind)

theorem isRejected_pointer (star : TokenOf .star) (mode : PointerMode)
    (inFront : c.Takes [.token star.1, .token mode.token] d) (rejected : IsRejected d p) : IsRejected c p := by
  refine isRejected_of_succ fun depth enough => ?_
  obtain ⟨e, inStar, inMode⟩ := inFront.uncons
  have lighter := inStar.weight_token
  have lighterBehind := inMode.weight_le
  have notAmp : star.1.kind ≠ .amp := by
    rw [star.2]
    decide
  have rejects := rejected depth (by omega)
  rw [Rejects, outcome, readAt_token inStar, if_neg notAmp, if_pos star.2]
  exact rejects_bind_of_ok (readPointerMode_eq mode inMode) rejects.bind

theorem isRejected_tuple {opening closing : Position} {inner later : List Tree}
    (rest : c.rest = .group .paren opening closing inner :: later) (item : ItemAt read (.ofTrees inner closing) d)
    (someLeft : d.rest ≠ []) (rejected : IsRejected d p) : IsRejected c p := by
  refine isRejected_of_succ fun depth enough => ?_
  have inFront : c.Takes [.group .paren opening closing inner] (c.skip 1) := takes_skip rest
  have lighter := inFront.weight_group
  rw [Rejects, outcome, readAt_paren inFront]
  exact (rejects_readElements item someLeft rejected depth (by omega)).inside.bind

theorem isRejected_path {e : Cursor} (root : Option (TokenOf .pathSep)) (inRoot : c.Takes (optionalTrees root) d)
    (starts : root = none → ∀ t later, d.rest = .token t :: later → StartsPath t.text) (argument : PathArgumentAt d e)
    (leads : ∀ t later, e.rest = .token t :: later → LeadsType t) (rejected : IsRejected e p) : IsRejected c p := by
  refine isRejected_of_succ fun depth enough => ?_
  have lighter := inRoot.weight_le
  have rejects := rejects_readSegments argument leads rejected depth (by omega)
  obtain ⟨name, later, rest⟩ := argument.exists_name
  have starts : root = none → StartsPath name.1.text := fun noRoot => starts noRoot _ _ rest
  cases root with
  | some sep =>
      rw [Rejects, outcome, readAt_named sep.2 (by decide) (by decide) inRoot, readNamed_eq starts inRoot rest]
      exact rejects.bind
  | none =>
      obtain rfl := inRoot.eq_of_nil
      have inName : d.Takes [.token name.1] (d.skip 1) := takes_skip rest
      rw [Rejects, outcome, readAt_named name.2 (by decide) (by decide) inName, readNamed_eq starts inRoot rest]
      exact rejects.bind

section Brackets

variable {opening closing : Position} {inner later behind : List Tree}
  (rest : c.rest = .group .bracket opening closing inner :: later)

include rest

theorem isRejected_brackets (rejects : ∀ depth : Nat,
    3 * (ofTrees inner closing).weight + 3 ≤ depth →
      Rejects .unexpectedToken p (readBracketed depth opening) (.ofTrees inner closing)) : IsRejected c p := by
  refine isRejected_of_succ fun depth enough => ?_
  have inFront : c.Takes [.group .bracket opening closing inner] (c.skip 1) := takes_skip rest
  have lighter := inFront.weight_group
  obtain ⟨problem, fails⟩ := (rejects depth (by omega)).inside (c := c.skip 1)
  exact ⟨problem, by rw [outcome, readAt_bracket inFront]; exact fails⟩

theorem isRejected_behindElement {tree : Tree} {element : Spelled TypeExpr}
    (isElement : read (.ofTrees inner closing) = .ok element d) (left : d.rest = tree :: behind)
    (notSemi : tree.isKind .semi = false) : IsRejected c tree.position := by
  refine isRejected_brackets rest fun depth enough => ?_
  have noSemi : token? .semi d = .ok none d := by
    refine token?_of_other fun t later' rest' isSemi => ?_
    obtain ⟨rfl, -⟩ := List.cons.inj (left.symm.trans rest')
    exact of_decide_eq_false notSemi isSemi
  refine rejects_bind_of_ok (readAt_of_read enough isElement) (rejects_bind_of_ok noSemi ?_)
  exact (rejects_expectEnd left).bind

theorem isRejected_behindLength {e f : Cursor} {tree : Tree} {element : Spelled TypeExpr}
    {length : Spelled (Expr Literal)} (semi : TokenOf .semi)
    (isElement : read (.ofTrees inner closing) = .ok element d) (inSemi : d.Takes [.token semi.1] e)
    (isLength : Expr.read e = .ok length f) (left : f.rest = tree :: behind) : IsRejected c tree.position := by
  refine isRejected_brackets rest fun depth enough => ?_
  have isSemi := token?_of_takes semi.2 inSemi
  refine rejects_bind_of_ok (readAt_of_read enough isElement) (rejects_bind_of_ok isSemi (Rejects.bind ?_))
  exact rejects_bind_of_ok isLength (rejects_expectEnd left).bind

end Brackets

end Rejected

/-- A type with a surplus is rejected for it. -/
theorem Surplus.isRejected {c : Cursor} {p : Position} (surplus : Surplus c p) : IsRejected c p := by
  induction surplus with
  | reference amp lifetime mutability inFront target rejected =>
      exact isRejected_reference amp lifetime mutability inFront (fun t later => target.leads) rejected
  | pointer star mode inFront _ rejected => exact isRejected_pointer star mode inFront rejected
  | tuple rest item element rejected => exact isRejected_tuple rest item element.ne_nil rejected
  | brackets rest _ rejected =>
      exact isRejected_brackets rest fun depth enough => (rejected depth enough).bind
  | path root inRoot starts argument type rejected =>
      exact isRejected_path root inRoot starts argument (fun t later => type.leads) rejected
  | behindElement rest isElement left notSemi => exact isRejected_behindElement rest isElement left notSemi
  | behindLength semi rest isElement inSemi f isLength left =>
      exact isRejected_behindLength rest semi isElement inSemi isLength left

/-! ## Whole types -/

section Whole

variable {c : Cursor}

theorem outcome_read_eq_error_iff {failure : Failure} :
    outcome read c = .error failure ↔ outcome (readAt (depthBound c)) c = .error failure := by
  simp only [outcome_eq_error_iff, read_eq_error_iff]

/-- A type is rejected as malformed, or at the first tree of its surplus for this. -/
theorem rejectsWithin_read : RejectsWithin (Surplus c) read c :=
  fun e rejects => (meets_readAt (depthBound c) (Nat.le_refl _)).rejects e (outcome_read_eq_error_iff.1 rejects)

theorem Surplus.rejects {p : Position} (surplus : Surplus c p) : Rejects .unexpectedToken p read c := by
  obtain ⟨problem, fails⟩ := surplus.isRejected (depthBound c) (Nat.le_refl _)
  exact ⟨problem, outcome_read_eq_error_iff.2 fails⟩

end Whole

end TypeExpr

end AttrGrammar
