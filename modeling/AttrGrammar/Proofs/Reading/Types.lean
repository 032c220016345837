import AttrGrammar.Proofs.Reading.Comparison
import AttrGrammar.Proofs.Types.Alternatives

/-!
Contract: types are read alike, by whatever the cursors are compared.

Owns:
- relations between types that their forms respect;
- the readers of types and of their parts follow themselves, the depths of their calls being sufficient.

This is the only traversal of these readers that compares two runs. Comparisons are made of it elsewhere.
-/

namespace AttrGrammar

open Cursor Reader Comparison

/-- Relations between types and their parts that the forms of types respect. -/
structure TypeLikeness (S : Comparison) where
  type : Likeness TypeExpr
  segment : Likeness PathSegment
  arg : Likeness GenericArg
  reference {lifetime : Option String} {isMutable : Bool} {t' t : TypeExpr} {p' p : Position}
    (target : type.holds t' t) (place : S.place.holds p' p) :
    type.holds (.reference lifetime isMutable t' p') (.reference lifetime isMutable t p)
  pointer {isMutable : Bool} {t' t : TypeExpr} {p' p : Position} (target : type.holds t' t)
    (place : S.place.holds p' p) : type.holds (.pointer isMutable t' p') (.pointer isMutable t p)
  tuple {ts' ts : List TypeExpr} {p' p : Position} (elements : type.list.holds ts' ts)
    (place : S.place.holds p' p) : type.holds (.tuple ts' p') (.tuple ts p)
  slice {t' t : TypeExpr} {p' p : Position} (element : type.holds t' t) (place : S.place.holds p' p) :
    type.holds (.slice t' p') (.slice t p)
  array {t' t : TypeExpr} {e' e : Spelled (Expr Literal)} {p' p : Position} (element : type.holds t' t)
    (length : S.expr.holds e' e) (place : S.place.holds p' p) :
    type.holds (.array t' e'.node p') (.array t e.node p)
  infer {p' p : Position} (place : S.place.holds p' p) : type.holds (.infer p') (.infer p)
  path {rooted : Bool} {segments' segments : List PathSegment} {p' p : Position}
    (names : segment.list.holds segments' segments) (place : S.place.holds p' p) :
    type.holds (.path rooted segments' p') (.path rooted segments p)
  named {name : String} {args' args : List GenericArg} (generics : arg.list.holds args' args) :
    segment.holds (.mk name args') (.mk name args)
  lifetimeArg (name : String) : arg.holds (.lifetime name) (.lifetime name)
  literalArg {l' l : Literal} {p' p : Position} (value : S.literal.holds l' l) (place : S.place.holds p' p) :
    arg.holds (.literal l' p') (.literal l p)
  typeArg {t' t : TypeExpr} (target : type.holds t' t) : arg.holds (.type t') (.type t)

/-- Equality, if that is what the parts of types are compared by. -/
def TypeLikeness.eq {S : Comparison} (place : ∀ {p' p}, S.place.holds p' p → p' = p)
    (literal : ∀ {l' l}, S.literal.holds l' l → l' = l) (expr : ∀ {e' e}, S.expr.holds e' e → e' = e) :
    TypeLikeness S where
  type := .eq _
  segment := .eq _
  arg := .eq _
  reference := by
    rintro _ _ _ _ p' p rfl same
    rw [place same]
    rfl
  pointer := by
    rintro _ _ _ p' p rfl same
    rw [place same]
    rfl
  tuple := by
    intro ts' ts p' p elements same
    obtain rfl : ts' = ts := List.forall₂_eq_eq_eq ▸ elements
    rw [place same]
    rfl
  slice := by
    rintro _ _ p' p rfl same
    rw [place same]
    rfl
  array := by
    rintro _ _ e' e p' p rfl length same
    rw [place same, expr length]
    rfl
  infer := by
    intro p' p same
    rw [place same]
    rfl
  path := by
    intro _ segments' segments p' p names same
    obtain rfl : segments' = segments := List.forall₂_eq_eq_eq ▸ names
    rw [place same]
    rfl
  named := by
    intro _ args' args generics
    obtain rfl : args' = args := List.forall₂_eq_eq_eq ▸ generics
    rfl
  lifetimeArg _ := rfl
  literalArg := by
    intro l' l p' p value same
    rw [literal value, place same]
    rfl
  typeArg := congrArg GenericArg.type

namespace TypeExpr

variable {S : Comparison} [S.IsLawful] (like : TypeLikeness S)

theorem weight_skip_le (c : Cursor) (count : Nat) : (c.skip count).weight ≤ c.weight :=
  Tree.weightAll_drop_le c.rest count

/-! ## Parts -/

section Parts

variable {view : View} {c c' : Cursor}

theorem follows_readPointerMode (base : S.Base c) :
    S.Follows view readPointerMode readPointerMode c' c (.eq Bool) := by
  refine (follows_word? "mut").bind fun isMut' isMut m same _ => ?_
  obtain rfl : isMut' = isMut := same
  cases isMut' with
  | true => exact follows_pure rfl
  | false =>
      refine (follows_word? "const").bind fun isConst' isConst n same _ => ?_
      obtain rfl : isConst' = isConst := same
      cases isConst' with
      | true => exact follows_pure rfl
      | false => exact follows_fail (IsLawful.base_skip (IsLawful.base_skip base m) n)

/-- Whether a tree starts the path of a type. -/
def isPathStart : Tree → Bool
  | .token t => (t.kind = .ident && startsPath t.text) || t.kind = .pathSep
  | .group .. => false

theorem pathNext_eq (c : Cursor) : pathNext c = .ok (c.rest.head?.any isPathStart) c := by
  obtain ⟨consumed, trees, finish⟩ := c
  match trees with
  | [] => rfl
  | .token _ :: _ => rfl
  | .group .. :: _ => rfl

theorem isPathStart_of_stops {trees : List Tree} (stops : Expr.Stops trees) :
    trees.head?.any isPathStart = false := by
  match trees, stops with
  | [], _ => rfl
  | .token t :: later, stops =>
      have isComma : t.kind = .comma := of_decide_eq_true stops
      simp [isPathStart, isComma]

omit [S.IsLawful] in
theorem isPathStart_of_fronts {trees trees' : List Tree} (fronts : S.FrontsAlike trees trees') :
    trees'.head?.any isPathStart = trees.head?.any isPathStart := by
  cases fronts with
  | nil => rfl
  | token same => simp only [List.head?_cons, Option.any_some, isPathStart, same.1, same.2.1]
  | group => rfl

theorem follows_pathNext : S.Follows view pathNext pathNext c' c (.eq Bool) := by
  refine Follows.of_fronts (fun e fronts => ?_) fun stops stops' => ?_
  · exact follows_left (pathNext_eq c) (pathNext_eq e) (isPathStart_of_fronts fronts)
  · refine follows_left (pathNext_eq c) (pathNext_eq c') ?_
    rw [isPathStart_of_stops stops, isPathStart_of_stops stops']
    rfl

/-- Where an item may end, there is no type. -/
theorem readAt_of_stops (depth : Nat) (stops : Expr.Stops c.rest) :
    readAt depth c = fail .malformedItem (.noItem .type) c := by
  obtain _ | depth := depth
  · rfl
  rw [readAt_succ]
  rcases rest : c.rest with - | ⟨t | ⟨delimiter, opening, closing, inner⟩, later⟩
  · rfl
  · have isComma := kind_of_stops rest stops
    have noWord : word? "_" c = .ok false c := by
      refine word?_of_other fun u later' rest' => ?_
      simp [Token.isWord, kind_of_stops rest' stops]
    have noPath : pathNext c = .ok false c := by
      rw [pathNext_eq, isPathStart_of_stops stops]
    simp only [isComma, reduceCtorEq, if_false]
    exact (bind_of_ok noWord).trans (bind_of_ok noPath)
  · rw [rest] at stops
    cases stops

end Parts

/-! ## Alternatives -/

section Alternatives

variable {view : View} {depth depth' : Nat} {c c' : Cursor} {start start' : Position}

/-- Whether types that are read with calls of two depths follow each other where both depths are sufficient. -/
def FollowsAt (depth' depth : Nat) : Prop :=
  ∀ {view : View} {c c' : Cursor}, S.Base c → 3 * c.weight + 3 ≤ depth → 3 * c.weight + 3 ≤ depth' →
    S.Follows view (readAt depth') (readAt depth) c' c like.type

/-- The same for the segments of paths. -/
def SegmentsFollowAt (depth' depth : Nat) : Prop :=
  ∀ {view : View} {c c' : Cursor}, S.Base c → 3 * c.weight + 2 ≤ depth → 3 * c.weight + 2 ≤ depth' →
    S.Follows view (readSegments depth') (readSegments depth) c' c like.segment.list

variable {like}

theorem follows_readReference (follows : FollowsAt like depth' depth) (base : S.Base c)
    (enough : 3 * c.weight + 3 ≤ depth) (enough' : 3 * c.weight + 3 ≤ depth')
    (place : S.place.holds start' start) :
    S.Follows view (readReference depth' start') (readReference depth start) c' c like.type := by
  refine (follows_token? (by decide)).bind fun lifetime' lifetime m related _ => ?_
  have sameText : lifetime'.map Token.text = lifetime.map Token.text := by
    obtain ⟨rfl, rfl⟩ | ⟨t', t, rfl, rfl, same⟩ := related
    · rfl
    · exact congrArg some same.2.1
  refine (follows_word? "mut").bind fun isMutable' isMutable n same _ => ?_
  obtain rfl : isMutable' = isMutable := same
  have lighter := weight_skip_le c m
  have lighterBehind := weight_skip_le (c.skip m) n
  have baseBehind := IsLawful.base_skip (IsLawful.base_skip base m) n
  refine (follows baseBehind (by omega) (by omega)).bind_pure fun t' t same => ?_
  rw [sameText]
  exact like.reference same place

theorem follows_readPointer (follows : FollowsAt like depth' depth) (base : S.Base c)
    (enough : 3 * c.weight + 3 ≤ depth) (enough' : 3 * c.weight + 3 ≤ depth')
    (place : S.place.holds start' start) :
    S.Follows view (readPointer depth' start') (readPointer depth start) c' c like.type := by
  refine (follows_readPointerMode base).bind fun isMutable' isMutable m same _ => ?_
  obtain rfl : isMutable' = isMutable := same
  have lighter := weight_skip_le c m
  refine (follows (IsLawful.base_skip base m) (by omega) (by omega)).bind_pure fun t' t same => ?_
  exact like.pointer same place

theorem follows_readBracketed (follows : FollowsAt like depth' depth) (base : S.Base c)
    (enough : 3 * c.weight + 3 ≤ depth) (enough' : 3 * c.weight + 3 ≤ depth')
    (place : S.place.holds start' start) :
    S.Follows .all (readBracketed depth' start') (readBracketed depth start) c' c like.type := by
  refine (follows base enough enough').bind fun element' element m sameElement _ => ?_
  refine (follows_token? (by decide)).bind fun semi' semi n related _ => ?_
  have baseBehind := IsLawful.base_skip (IsLawful.base_skip base m) n
  obtain ⟨rfl, rfl⟩ | ⟨t', t, rfl, rfl, -⟩ := related
  · exact (follows_expectEnd baseBehind).bind_pure fun _ _ _ => like.slice sameElement place
  · exact (IsLawful.expr_follows baseBehind).bind_pure fun _ _ sameLength => like.array sameElement sameLength place

theorem follows_readNamed (follows : SegmentsFollowAt like depth' depth) (base : S.Base c)
    (enough : 3 * c.weight + 2 ≤ depth) (enough' : 3 * c.weight + 2 ≤ depth')
    (place : S.place.holds start' start) :
    S.Follows view (readNamed depth' start') (readNamed depth start) c' c like.type := by
  refine (follows_word? "_").bind fun isPlaceholder' isPlaceholder m same _ => ?_
  obtain rfl : isPlaceholder' = isPlaceholder := same
  cases isPlaceholder' with
  | true => exact follows_pure (like.infer place)
  | false =>
      refine follows_pathNext.bind fun isPath' isPath n same _ => ?_
      obtain rfl : isPath' = isPath := same
      have basePath := IsLawful.base_skip (IsLawful.base_skip base m) n
      cases isPath' with
      | false => exact follows_fail basePath
      | true =>
          refine (follows_token? (by decide)).bind fun root' root l related _ => ?_
          have sameRoot : root'.isSome = root.isSome := by
            obtain ⟨rfl, rfl⟩ | ⟨t', t, rfl, rfl, -⟩ := related <;> rfl
          have lighter := weight_skip_le c m
          have lighterPath := weight_skip_le (c.skip m) n
          have lighterRoot := weight_skip_le ((c.skip m).skip n) l
          refine (follows (IsLawful.base_skip basePath l) (by omega) (by omega)).bind_pure fun names' names same => ?_
          rw [sameRoot]
          exact like.path same place

omit [S.IsLawful] in
/-- What stands in parentheses is a tuple, or its only element. -/
theorem parenthesised_alike {types' types : List TypeExpr} (same : like.type.list.holds types' types)
    (commaLast : Bool) (place : S.place.holds start' start) :
    like.type.holds (parenthesised types' commaLast start') (parenthesised types commaLast start) := by
  cases same with
  | nil => exact like.tuple .nil place
  | cons first later =>
      cases later with
      | nil =>
          cases commaLast with
          | true => exact like.tuple (.cons first .nil) place
          | false => exact first
      | cons second later => exact like.tuple (.cons first (.cons second later)) place

theorem follows_readBehindSegment (follows : SegmentsFollowAt like depth' depth) (base : S.Base c)
    (enough : 3 * c.weight + 2 ≤ depth) (enough' : 3 * c.weight + 2 ≤ depth') (name : String)
    {args' args : List GenericArg} (same : like.arg.list.holds args' args) :
    S.Follows view (readBehindSegment depth' name args') (readBehindSegment depth name args) c' c
      like.segment.list := by
  refine (follows_token? (by decide)).bind fun sep' sep m related _ => ?_
  have lighter := weight_skip_le c m
  obtain ⟨rfl, rfl⟩ | ⟨t', t, rfl, rfl, -⟩ := related
  · exact follows_pure (.cons (like.named same) .nil)
  · exact (follows (IsLawful.base_skip base m) (by omega) (by omega)).bind_pure fun _ _ sameLater =>
      .cons (like.named same) sameLater

/-- By a token in front, a type is a reference, a pointer, a placeholder or a path. -/
theorem follows_token (follows : FollowsAt like depth' depth) (followSegments : SegmentsFollowAt like depth' depth)
    (base : S.Base c) (enough : 3 * c.weight + 3 ≤ depth + 1) (enough' : 3 * c.weight + 3 ≤ depth' + 1)
    {t t' : Token} {later later' : List Tree} (rest : c.rest = .token t :: later)
    (rest' : c'.rest = .token t' :: later') (same : S.token.holds t' t) :
    S.Follows view (readAt (depth' + 1)) (readAt (depth + 1)) c' c like.type := by
  have inFront : c.Takes [.token t] (c.skip 1) := takes_skip rest
  have inFront' : c'.Takes [.token t'] (c'.skip 1) := takes_skip rest'
  have less := inFront.weight_token
  have baseBehind := IsLawful.base_skip base 1
  have here : readAt (depth + 1) c = _ := readAt_token inFront
  have there : readAt (depth' + 1) c' = _ := readAt_token inFront'
  rw [same.1] at there
  split_ifs at here there with isAmp isStar
  · exact (follows_readReference follows baseBehind (by omega) (by omega) same.2.2).behind rest here there
  · exact (follows_readPointer follows baseBehind (by omega) (by omega) same.2.2).behind rest here there
  · exact (follows_readNamed followSegments base (by omega) (by omega) same.2.2).of_eq here there

section Parens

variable {opening opening' closing closing' : Position} {inner inner' later later' : List Tree}

theorem follows_parens
    (follows : S.Follows .all (readElements depth') (readElements depth) (ofTrees inner' closing')
      (ofTrees inner closing) (like.type.list.prod (.eq Bool)))
    (rest : c.rest = .group .paren opening closing inner :: later)
    (rest' : c'.rest = .group .paren opening' closing' inner' :: later')
    (place : S.place.holds opening' opening) :
    S.Follows view (readAt (depth' + 1)) (readAt (depth + 1)) c' c like.type := by
  have inParens : S.Follows view (fun e => inside (ofTrees inner' closing') (readElements depth') (e.skip 1))
      (fun e => inside (ofTrees inner closing) (readElements depth) (e.skip 1)) c' c
      (like.type.list.prod (.eq Bool)) := follows.inside rest rest' rfl rfl
  refine (inParens.bind_pure fun read' read related => ?_).of_eq (readAt_paren (takes_skip rest))
    (readAt_paren (takes_skip rest'))
  rw [related.2]
  exact parenthesised_alike related.1 read.2 place

end Parens

end Alternatives

/-! ## All types -/

variable {like}

mutual

/-- Types are read alike. -/
theorem follows_readAt : ∀ depth' depth : Nat, FollowsAt like depth' depth
  | _, 0, _, _, _, _, enough, _ => by omega
  | 0, _ + 1, _, _, _, _, _, enough' => by omega
  | depth' + 1, depth + 1, view, c, c', base, enough, enough' => by
      refine Follows.of_fronts (fun e fronts => ?_) fun stops stops' => ?_
      · rcases rest : c.rest with - | ⟨t | ⟨_ | _ | _, opening, closing, inner⟩, later⟩
        · have rest' := FrontsAlike.eq_nil (rest ▸ fronts)
          exact follows_of_failing base (readAt_of_stops _ (rest ▸ trivial)) fun _ =>
            readAt_of_stops _ (rest' ▸ trivial)
        · obtain ⟨t', later', rest', same⟩ := FrontsAlike.exists_token (rest ▸ fronts)
          exact follows_token (follows_readAt depth' depth) (follows_readSegments depth' depth) base enough enough'
            rest rest' same
        · obtain ⟨opening', closing', inner', later', rest', place⟩ := FrontsAlike.exists_group (rest ▸ fronts)
          have lighter := (takes_skip rest : c.Takes [_] _).weight_group
          exact follows_parens (follows_readElements depth' depth (IsLawful.base_inner base rest) (by omega) (by omega))
            rest rest' place
        · obtain ⟨opening', closing', inner', later', rest', place⟩ := FrontsAlike.exists_group (rest ▸ fronts)
          have here : readAt (depth + 1) c = fail .malformedItem (.noItem .type) c := by rw [readAt_succ, rest]
          have there : readAt (depth' + 1) e = fail .malformedItem (.noItem .type) e := by rw [readAt_succ, rest']
          exact follows_of_failing base here fun _ => there
        · obtain ⟨opening', closing', inner', later', rest', place⟩ := FrontsAlike.exists_group (rest ▸ fronts)
          have lighter := (takes_skip rest : c.Takes [_] _).weight_group
          exact (follows_readBracketed (follows_readAt depth' depth) (IsLawful.base_inner base rest) (by omega) (by omega)
            place).inside rest rest' (readAt_bracket (takes_skip rest)) (readAt_bracket (takes_skip rest'))
      · exact follows_of_failing base (readAt_of_stops _ stops) fun _ => readAt_of_stops _ stops'

/-- Elements between parentheses are read alike. -/
theorem follows_readElements : ∀ (depth' depth : Nat) {c c' : Cursor}, S.Base c →
    3 * c.weight + 4 ≤ depth → 3 * c.weight + 4 ≤ depth' →
      S.Follows .all (readElements depth') (readElements depth) c' c (like.type.list.prod (.eq Bool))
  | _, 0, _, _, _, enough, _ => by omega
  | 0, _ + 1, _, _, _, _, enough' => by omega
  | depth' + 1, depth + 1, c, c', base, enough, enough' => by
      unfold readElements
      refine Follows.of_level fun e sameEnd => follows_get ?_
      rw [sameEnd]
      cases c.isEmpty with
      | true => exact follows_pure ⟨.nil, rfl⟩
      | false =>
          refine (follows_readAt depth' depth base (by omega) (by omega)).bind fun first' first m sameFirst _ => ?_
          refine Follows.of_level fun e sameEnd => follows_get ?_
          rw [sameEnd]
          have baseBehind := IsLawful.base_skip base m
          cases (c.skip m).isEmpty with
          | true => exact follows_pure ⟨.cons sameFirst .nil, rfl⟩
          | false =>
              refine (follows_expect _ _ _ baseBehind).bind fun comma' comma n _ isComma => ?_
              have less := (expect_eq_ok_iff.1 isComma).2.weight_token
              have lighter := weight_skip_le c m
              refine (follows_readElements depth' depth (IsLawful.base_skip baseBehind n) (by omega)
                (by omega)).bind_pure fun later' later same => ?_
              exact ⟨.cons sameFirst same.1, same.2⟩

theorem follows_readSegments : ∀ depth' depth : Nat, SegmentsFollowAt like depth' depth
  | _, 0, _, _, _, _, enough, _ => by omega
  | 0, _ + 1, _, _, _, _, _, enough' => by omega
  | depth' + 1, depth + 1, view, c, c', base, enough, enough' => by
      rw [readSegments_succ, readSegments_succ]
      refine (follows_expect _ _ _ base).bind fun name' name m sameName isName => ?_
      have less := (expect_eq_ok_iff.1 isName).2.weight_token
      have baseBehind := IsLawful.base_skip base m
      rw [sameName.2.1]
      refine (follows_readGenerics depth' depth baseBehind (by omega) (by omega)).bind fun args' args n same _ => ?_
      have lighter := weight_skip_le (c.skip m) n
      exact follows_readBehindSegment (follows_readSegments depth' depth) (IsLawful.base_skip baseBehind n) (by omega)
        (by omega) name.text same

/-- The generic arguments of a segment are read alike, also if there are none. -/
theorem follows_readGenerics : ∀ (depth' depth : Nat) {view : View} {c c' : Cursor}, S.Base c →
    3 * c.weight + 2 ≤ depth → 3 * c.weight + 2 ≤ depth' →
      S.Follows view (readGenerics depth') (readGenerics depth) c' c like.arg.list
  | depth', depth, view, c, c', base, enough, enough' => by
      refine (follows_token? (by decide)).bind fun left' left m related isLeft => ?_
      obtain ⟨rfl, rfl⟩ | ⟨t', t, rfl, rfl, -⟩ := related
      · exact follows_pure .nil
      · obtain ⟨_, isSome, -, inLeft⟩ | ⟨isNone, -⟩ := token?_eq_ok isLeft
        · have less := inLeft.weight_token
          exact follows_readArgs depth' depth (IsLawful.base_skip base m) (by omega) (by omega)
        · cases isNone

/-- Generic arguments are read alike. They do not end where an item may, for a `>` has to close them. -/
theorem follows_readArgs : ∀ (depth' depth : Nat) {view : View} {c c' : Cursor}, S.Base c →
    3 * c.weight + 5 ≤ depth → 3 * c.weight + 5 ≤ depth' →
      S.Follows view (readArgs depth') (readArgs depth) c' c like.arg.list
  | _, 0, _, _, _, _, enough, _ => by omega
  | 0, _ + 1, _, _, _, _, _, enough' => by omega
  | depth' + 1, depth + 1, view, c, c', base, enough, enough' => by
      unfold readArgs
      refine (follows_token? (by decide)).bind fun right' right m related _ => ?_
      obtain ⟨rfl, rfl⟩ | ⟨t', t, rfl, rfl, -⟩ := related
      · have lighter := weight_skip_le c m
        refine (follows_readArg depth' depth (IsLawful.base_skip base m) (by omega) (by omega)).bind
          fun first' first n sameFirst _ => ?_
        have lighterBehind := weight_skip_le (c.skip m) n
        have baseBehind := IsLawful.base_skip (IsLawful.base_skip base m) n
        refine Follows.bind_comma? (fun atEnd v e read => ?_) (fun comma' comma l _ isComma => ?_) ?_
        · obtain ⟨close, f, isClose, -⟩ := bind_eq_ok_iff.1 read
          obtain ⟨later, rest, -, -⟩ := expect_eq_ok isClose
          rw [atEnd] at rest
          cases rest
        · obtain ⟨_, -, -, inComma⟩ | ⟨isNone, -⟩ := token?_eq_ok isComma
          · have less := inComma.weight_token
            exact (follows_readArgs depth' depth (IsLawful.base_skip baseBehind l) (by omega) (by omega)).bind_pure
              fun _ _ sameLater => .cons sameFirst sameLater
          · cases isNone
        · exact (follows_expect _ _ _ baseBehind).bind_pure fun _ _ _ => .cons sameFirst .nil
      · exact follows_pure .nil

/-- A generic argument is read alike. -/
theorem follows_readArg : ∀ (depth' depth : Nat) {view : View} {c c' : Cursor}, S.Base c →
    3 * c.weight + 4 ≤ depth → 3 * c.weight + 4 ≤ depth' →
      S.Follows view (readArg depth') (readArg depth) c' c like.arg
  | _, 0, _, _, _, _, enough, _ => by omega
  | 0, _ + 1, _, _, _, _, _, enough' => by omega
  | depth' + 1, depth + 1, view, c, c', base, enough, enough' => by
      unfold readArg
      refine (follows_token? (by decide)).bind fun lifetime' lifetime m related _ => ?_
      obtain ⟨rfl, rfl⟩ | ⟨t', t, rfl, rfl, same⟩ := related
      · have baseBehind := IsLawful.base_skip base m
        refine (follows_literal? baseBehind).bind fun read' read n related _ => ?_
        obtain ⟨rfl, rfl⟩ | ⟨l', l, rfl, rfl, same⟩ := related
        · have lighter := weight_skip_le c m
          have lighterBehind := weight_skip_le (c.skip m) n
          exact (follows_readAt depth' depth (IsLawful.base_skip baseBehind n) (by omega) (by omega)).bind_pure
            fun _ _ sameType => like.typeArg sameType
        · exact follows_pure (like.literalArg same.1 same.2.2.2)
      · have sameName : like.arg.holds (.lifetime t'.text) (.lifetime t.text) := by
          rw [same.2.1]
          exact like.lifetimeArg t.text
        exact follows_pure sameName

end

end TypeExpr

end AttrGrammar
