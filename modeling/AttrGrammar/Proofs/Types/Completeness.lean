import AttrGrammar.Proofs.Types.Alternatives

/-!
Contract: what has a derivation is read as the type that it denotes.

Owns:
- the tokens that a type starts with, which are not those that the readers look for in front of a type;
- for the readers of types and of their parts, with calls of sufficient depth: the trees of a derivation are
  consumed, and what it denotes is yielded.

The induction is on derivations. What follows a type matters only where its last part is a path, which `<` and `::`
would continue.
-/

namespace AttrGrammar

namespace TypeExpr

open Cursor Reader

/-! ## In front of types -/

/-- Whether a token is none of those that are looked for where a type can be next. -/
structure LeadsType (t : Token) : Prop where
  notRight : t.kind ≠ .rangle
  notLifetime : t.kind ≠ .lifetime
  notLiteral : (Tree.token t).isLiteral = false
  notMut : t.isWord "mut" = false

theorem leadsType_of_kind {t : Token} {kind : TokenKind} (isKind : t.kind = kind)
    (notRight : kind ≠ .rangle) (notLifetime : kind ≠ .lifetime) (notLiteral : kind.isLiteral = false)
    (notIdent : kind ≠ .ident) : LeadsType t := by
  subst isKind
  have noWord (word : String) : t.isWord word = false := by simp [Token.isWord, notIdent]
  exact ⟨notRight, notLifetime, by simp [Tree.isLiteral, notLiteral, noWord], noWord "mut"⟩

theorem leadsType_of_ident {t : Token} (isIdent : t.kind = .ident) (notTrue : t.text ≠ "true")
    (notFalse : t.text ≠ "false") (notMut : t.text ≠ "mut") : LeadsType t where
  notRight := by simp [isIdent]
  notLifetime := by simp [isIdent]
  notLiteral := by simp [Tree.isLiteral, Token.isWord, isIdent, notTrue, notFalse, TokenKind.isLiteral]
  notMut := by simp [Token.isWord, notMut]

theorem StartsPath.ne {word other : String} (starts : StartsPath word) (reserved : other ∈ reservedWords)
    (notPath : other ∉ pathWords) : word ≠ other := by
  rintro rfl
  exact notPath (starts.2 reserved)

theorem Derivation.trees_eq_cons (d : Derivation) :
    ∃ tree later, d.trees = tree :: later ∧ ∀ t, tree = .token t → LeadsType t := by
  have token {t : Token} (leads : LeadsType t) (u : Token) (same : Tree.token t = .token u) :
      LeadsType u :=
    Tree.token.inj same ▸ leads
  have group {delimiter : Delimiter} {opening closing : Position} {inner : List Tree} (t : Token)
      (same : Tree.group delimiter opening closing inner = .token t) : LeadsType t := nomatch same
  cases d with
  | reference amp =>
      exact ⟨_, _, rfl, token (leadsType_of_kind amp.2 (by decide) (by decide) rfl (by decide))⟩
  | pointer star =>
      exact ⟨_, _, rfl, token (leadsType_of_kind star.2 (by decide) (by decide) rfl (by decide))⟩
  | unit => exact ⟨_, _, rfl, group⟩
  | parens => exact ⟨_, _, rfl, group⟩
  | tuple => exact ⟨_, _, rfl, group⟩
  | slice => exact ⟨_, _, rfl, group⟩
  | array => exact ⟨_, _, rfl, group⟩
  | infer word =>
      obtain ⟨isIdent, isText⟩ := Token.isWord_iff.1 word.2
      exact ⟨_, _, rfl, token (leadsType_of_ident isIdent (by simp [isText]) (by simp [isText])
        (by simp [isText]))⟩
  | path root name starts generics later =>
      cases root with
      | some sep =>
          exact ⟨_, _, rfl, token (leadsType_of_kind sep.2 (by decide) (by decide) rfl (by decide))⟩
      | none =>
          have starts := starts rfl
          exact ⟨_, _, rfl, token (leadsType_of_ident name.2 (starts.ne (by decide) (by decide))
            (starts.ne (by decide) (by decide)) (starts.ne (by decide) (by decide)))⟩

section Front

variable {c e : Cursor}

theorem Derivation.ne_nil_of_takes (d : Derivation) (takes : c.Takes d.trees e) :
    c.rest ≠ [] := by
  obtain ⟨tree, later, shape, -⟩ := d.trees_eq_cons
  simp [takes.rest, shape]

theorem Derivation.leads {d : Derivation} (takes : c.Takes d.trees e) {t : Token}
    {later : List Tree} (rest : c.rest = .token t :: later) : LeadsType t := by
  obtain ⟨tree, behind, shape, leads⟩ := d.trees_eq_cons
  rw [shape] at takes
  rw [takes.rest] at rest
  exact leads t (List.cons.inj rest).1

theorem kind_of_isLiteral {t : Token} (isLiteral : (Tree.token t).isLiteral) :
    t.kind ≠ .lifetime ∧ t.kind ≠ .rangle := by
  constructor <;> intro isKind <;> simp [Tree.isLiteral, Token.isWord, TokenKind.isLiteral, isKind] at isLiteral

/-- A generic argument does not start with what closes the list. -/
theorem Argument.notRight {arg : Argument} (takes : c.Takes arg.trees e) {t : Token}
    {later : List Tree} (rest : c.rest = .token t :: later) : t.kind ≠ .rangle := by
  cases arg with
  | lifetime u =>
      rw [takes.token_eq rest, u.2]
      decide
  | literal u isLiteral =>
      rw [takes.token_eq rest]
      exact (kind_of_isLiteral isLiteral).2
  | type d => exact (Derivation.leads takes rest).notRight

/-- Whether trees behind a type do not continue a path. -/
def EndsPath (rest : List Tree) : Prop :=
  ∀ t later, rest = .token t :: later → t.kind ≠ .langle ∧ t.kind ≠ .pathSep

theorem endsPath_of_nil (atEnd : c.rest = []) : EndsPath c.rest := by
  rw [atEnd]
  exact nofun

theorem endsPath_of_takes {t : Token} {kind : TokenKind} (isKind : t.kind = kind)
    (takes : c.Takes [.token t] e) (notLeft : kind ≠ .langle) (notSep : kind ≠ .pathSep) :
    EndsPath c.rest := by
  rintro u later rest
  rw [takes.token_eq rest, isKind]
  exact ⟨notLeft, notSep⟩

/-- What is behind a segment is no generic argument. -/
theorem Segments.notLeft {later : Segments} (takes : c.Takes later.trees e) (ends : EndsPath e.rest)
    (t : Token) (behind : List Tree) (rest : c.rest = .token t :: behind) : t.kind ≠ .langle := by
  cases later with
  | done =>
      rw [takes.rest] at rest
      exact (ends t behind rest).1
  | next sep name generics later =>
      rw [takes.token_eq rest, sep.2]
      decide

end Front

/-! ## Parts -/

section Parts

variable {depth : Nat} {c d e f : Cursor} {t : TypeExpr}

theorem readPointerMode_eq (mode : PointerMode) (takes : c.Takes [.token mode.token] d) :
    readPointerMode c = .ok mode.isMutable d := by
  cases mode with
  | writes word => exact (bind_of_ok (word?_of_takes word.2 takes)).trans rfl
  | reads word =>
      have notMut : word? "mut" c = .ok false c := word?_of_other fun t later rest => by
        rw [takes.token_eq rest]
        refine Bool.eq_false_iff.2 fun isMut => ?_
        have isConst := (Token.isWord_iff.1 word.2).2
        exact absurd (isConst.symm.trans (Token.isWord_iff.1 isMut).2) (by decide)
      exact (bind_of_ok notMut).trans ((bind_of_ok (word?_of_takes word.2 takes)).trans rfl)

theorem readElements_done (atEnd : c.rest = []) : readElements (depth + 1) c = .ok ([], true) c := by
  unfold readElements
  refine (bind_of_ok rfl).trans ?_
  rw [if_pos (isEmpty_iff_rest.2 atEnd)]
  rfl

theorem readElements_last (notEmpty : c.rest ≠ []) (isElement : readAt depth c = .ok t e)
    (atEnd : e.rest = []) : readElements (depth + 1) c = .ok ([t], false) e := by
  unfold readElements
  refine (bind_of_ok rfl).trans ?_
  rw [if_neg (mt isEmpty_iff_rest.1 notEmpty), bind_of_ok isElement]
  refine (bind_of_ok rfl).trans ?_
  rw [if_pos (isEmpty_iff_rest.2 atEnd)]
  rfl

theorem readElements_next {types : List TypeExpr} {commaLast : Bool} {comma : Token}
    (notEmpty : c.rest ≠ []) (isElement : readAt depth c = .ok t d) (isComma : comma.kind = .comma)
    (inComma : d.Takes [.token comma] f) (isLater : readElements depth f = .ok (types, commaLast) e) :
    readElements (depth + 1) c = .ok (t :: types, commaLast) e := by
  have notAtEnd : d.rest ≠ [] := by simp [inComma.rest]
  unfold readElements
  refine (bind_of_ok rfl).trans ?_
  rw [if_neg (mt isEmpty_iff_rest.1 notEmpty), bind_of_ok isElement]
  refine (bind_of_ok rfl).trans ?_
  rw [if_neg (mt isEmpty_iff_rest.1 notAtEnd), bind_of_ok (expect_eq_ok_iff.2 ⟨isComma, inComma⟩),
    bind_of_ok isLater]
  rfl

/-- A segment is read as its parts are. -/
theorem readSegments_eq {name : TokenOf .ident} {args : List GenericArg} {segments : List PathSegment}
    (inName : c.Takes [.token name.1] d) (isGenerics : readGenerics depth d = .ok args f)
    (isBehind : readBehindSegment depth name.1.text args f = .ok segments e) :
    readSegments (depth + 1) c = .ok segments e := by
  rw [readSegments_succ]
  exact (bind_of_ok (expect_eq_ok_iff.2 ⟨name.2, inName⟩)).trans ((bind_of_ok isGenerics).trans isBehind)

/-- Where nothing is behind the element, brackets hold a slice. -/
theorem readBracketed_slice {opening : Position} (isElement : readAt depth c = .ok t e) (atEnd : e.rest = []) :
    readBracketed depth opening c = .ok (.slice t opening) e := by
  have notSemi : token? .semi e = .ok none e := token?_of_other fun u later rest => by
    rw [atEnd] at rest
    cases rest
  unfold readBracketed
  rw [bind_of_ok isElement, bind_of_ok notSemi]
  exact (bind_of_ok (expectEnd_eq_ok_iff.2 ⟨atEnd, rfl⟩)).trans rfl

/-- Where a semicolon and a length are behind the element, brackets hold an array. -/
theorem readBracketed_array (opening : Position) {semi : TokenOf .semi} {length : Expr Literal}
    (isElement : readAt depth c = .ok t d) (inSemi : d.Takes [.token semi.1] f)
    (isLength : IsLength f.rest f.finish length) :
    ∃ e, readBracketed depth opening c = .ok (.array t length opening) e := by
  have isRead := (Expr.whole_read_eq_ok_iff (s := ⟨length, f.rest⟩)).2
    ⟨isLength_iff_extent.1 isLength, rfl, takes_skip (List.append_nil _).symm⟩
  refine ⟨f.skip f.rest.length, ?_⟩
  unfold readBracketed
  rw [bind_of_ok isElement, bind_of_ok (token?_of_takes semi.2 inSemi)]
  exact (bind_of_ok isRead).trans rfl

end Parts

/-! ## Alternatives -/

/-- Whether a derivation is read with calls of sufficient depth, in front of what does not continue it. -/
def IsRead (d : Derivation) : Prop :=
  ∀ (depth : Nat) {c e : Cursor}, c.Takes d.trees e → EndsPath e.rest → 3 * c.weight + 3 ≤ depth →
    readAt depth c = .ok d.type e

section Alternatives

variable {depth : Nat} {c d e : Cursor}

/-- Elements that are read between parentheses are read as what stands there. -/
theorem readAt_parens (elements : Elements) {opening closing : Position} {f : Cursor}
    (inFront : c.Takes [.group .paren opening closing elements.trees] d)
    (isElements : readElements depth (.ofTrees elements.trees closing) =
      .ok (elements.types, elements.commaLast) f) :
    readAt (depth + 1) c = .ok (elements.derivation opening closing).type d := by
  rw [readAt_paren inFront, ← elements.parenthesised_types]
  exact (bind_of_ok (inside_eq_ok_iff.2 ⟨outcome_eq_ok_iff.2 ⟨f, isElements⟩, rfl⟩)).trans rfl

theorem readAt_brackets {opening closing : Position} {inner : List Tree} {f : Cursor} {t : TypeExpr}
    (inFront : c.Takes [.group .bracket opening closing inner] d)
    (isInner : readBracketed depth opening (.ofTrees inner closing) = .ok t f) :
    readAt (depth + 1) c = .ok t d := by
  rw [readAt_bracket inFront]
  exact inside_eq_ok_iff.2 ⟨outcome_eq_ok_iff.2 ⟨f, isInner⟩, rfl⟩

theorem readReference_eq {start : Position} {lifetime : Option (TokenOf .lifetime)}
    {mutability : Option (WordOf "mut")} {target : Derivation} (isRead : IsRead target)
    (takes : c.Takes (optionalTrees lifetime ++ (optionalTrees mutability ++ target.trees)) e)
    (ends : EndsPath e.rest) (enough : 3 * c.weight + 3 ≤ depth) :
    readReference depth start c =
      .ok (.reference (lifetime.map fun t => t.1.text) mutability.isSome target.type start) e := by
  obtain ⟨f, inLifetime, behind⟩ := takes.split
  obtain ⟨g, inMut, inTarget⟩ := behind.split
  have lighter := (inLifetime.trans inMut).weight_le
  have isLifetime : token? .lifetime c = .ok (lifetime.map Subtype.val) f := by
    refine token?_of_optional inLifetime fun u later rest => ?_
    cases mutability with
    | none => exact (Derivation.leads behind rest).notLifetime
    | some word =>
        rw [Takes.token_eq (t := word.1) behind rest, (Token.isWord_iff.1 word.2).1]
        decide
  have isMut : word? "mut" f = .ok mutability.isSome g :=
    word?_of_optional inMut fun u later rest => (Derivation.leads inTarget rest).notMut
  unfold readReference
  rw [bind_of_ok isLifetime]
  refine (bind_of_ok isMut).trans ((bind_of_ok (isRead depth inTarget ends (by omega))).trans ?_)
  rw [Option.map_map]
  rfl

theorem readPointer_eq {start : Position} {mode : PointerMode} {target : Derivation}
    (isRead : IsRead target) (takes : c.Takes (.token mode.token :: target.trees) e)
    (ends : EndsPath e.rest) (enough : 3 * c.weight + 3 ≤ depth) :
    readPointer depth start c = .ok (.pointer mode.isMutable target.type start) e := by
  obtain ⟨f, inMode, inTarget⟩ := takes.uncons
  have lighter := inMode.weight_le
  unfold readPointer
  rw [bind_of_ok (readPointerMode_eq mode inMode), bind_of_ok (isRead depth inTarget ends (by omega))]
  rfl

/-- Whether elements are read with calls of sufficient depth, up to the end. -/
def ElementsAreRead (elements : Elements) : Prop :=
  ∀ (depth : Nat) {c e : Cursor}, c.Takes elements.trees e → e.rest = [] → 3 * c.weight + 4 ≤ depth →
    readElements depth c = .ok (elements.types, elements.commaLast) e

theorem elementsAreRead_next {element : Derivation} {comma : TokenOf .comma} {later : Elements}
    (isRead : IsRead element) (areRead : ElementsAreRead later) :
    ElementsAreRead (.next element comma later) := by
  intro depth c e takes atEnd enough
  obtain _ | depth := depth
  · omega
  obtain ⟨f, inElement, behind⟩ := takes.split
  obtain ⟨g, inComma, inLater⟩ := behind.uncons
  have lighter := inElement.weight_le
  have lighterBehind := inComma.weight_token
  have isElement := isRead depth inElement
    (endsPath_of_takes comma.2 inComma (by decide) (by decide)) (by omega)
  have isLater := areRead depth inLater atEnd (by omega)
  exact readElements_next (element.ne_nil_of_takes inElement) isElement comma.2 inComma isLater

/-- A placeholder is read where it stands. -/
theorem readNamed_infer {start : Position} {word : WordOf "_"} (takes : c.Takes [.token word.1] e) :
    readNamed depth start c = .ok (.infer start) e :=
  (bind_of_ok (word?_of_takes word.2 takes)).trans rfl

/-- A path is read as its segments are, behind `::` if this is in front. -/
theorem readNamed_eq {start : Position} {root : Option (TokenOf .pathSep)} {name : TokenOf .ident}
    (starts : root = none → StartsPath name.1.text) (inRoot : c.Takes (optionalTrees root) d)
    {later : List Tree} (rest : d.rest = .token name.1 :: later) :
    readNamed depth start c =
      (readSegments depth >>= fun segments => pure (.path root.isSome segments start) : Reader TypeExpr) d := by
  -- What is in front is `::`, or the name, which then starts a path.
  obtain ⟨front, behind, isFront, isPath, notPlaceholder⟩ : ∃ front behind, c.rest = .token front :: behind ∧
      (front.kind = .ident ∧ startsPath front.text ∨ front.kind = .pathSep) ∧
        ¬front.isWord "_" := by
    cases root with
    | some sep =>
        refine ⟨sep.1, _, inRoot.rest, .inr sep.2, fun isWord => ?_⟩
        exact absurd (sep.2.symm.trans (Token.isWord_iff.1 isWord).1) (by decide)
    | none =>
        obtain ⟨notPlaceholder, ifReserved⟩ := starts rfl
        exact ⟨name.1, later, inRoot.rest.trans rest, .inl ⟨name.2, startsPath_iff.2 ifReserved⟩,
          fun isWord => notPlaceholder (Token.isWord_iff.1 isWord).2⟩
  have notWord : word? "_" c = .ok false c := word?_of_other fun u later rest => by
    obtain rfl := Tree.token.inj (List.cons.inj (isFront.symm.trans rest)).1
    exact Bool.eq_false_iff.2 notPlaceholder
  have isNext : pathNext c = .ok true c := pathNext_eq_true_iff.2 ⟨rfl, front, behind, isFront, isPath⟩
  have isRoot : token? .pathSep c = .ok (root.map Subtype.val) d :=
    token?_of_optional inRoot fun u later' rest' => by
      obtain rfl := Tree.token.inj (List.cons.inj (rest.symm.trans rest')).1
      rw [name.2]
      decide
  unfold readNamed
  rw [bind_of_ok notWord]
  refine (bind_of_ok isNext).trans ((bind_of_ok isRoot).trans ?_)
  rw [Option.isSome_map]

end Alternatives

/-! ## All types -/

mutual

/-- A type that has a derivation is read. -/
theorem Derivation.isRead : ∀ d : Derivation, IsRead d
  | .reference amp lifetime mutability target, depth, c, e, takes, ends, enough => by
      obtain ⟨f, inAmp, behind⟩ := takes.uncons
      have lighter := inAmp.weight_token
      obtain _ | depth := depth
      · omega
      rw [readAt_token inAmp, if_pos amp.2]
      exact readReference_eq target.isRead behind ends (by omega)
  | .pointer star mode target, depth, c, e, takes, ends, enough => by
      obtain ⟨f, inStar, behind⟩ := takes.uncons
      have lighter := inStar.weight_token
      obtain _ | depth := depth
      · omega
      rw [readAt_token inStar, if_neg (by rw [star.2]; decide), if_pos star.2]
      exact readPointer_eq target.isRead behind ends (by omega)
  | .unit opening closing, depth, c, e, takes, ends, enough => by
      have lighter := takes.weight_group
      obtain _ | _ | depth := depth
      · omega
      · omega
      exact readAt_parens .done takes (readElements_done rfl)
  | .parens opening closing inner, depth, c, e, takes, ends, enough => by
      have lighter := takes.weight_group
      obtain _ | _ | depth := depth
      · omega
      · omega
      obtain ⟨f, inInner, atEnd⟩ := (ofTrees inner.trees closing).exists_takes_rest
      have isInner := inner.isRead depth inInner (endsPath_of_nil atEnd) (by omega)
      exact readAt_parens (.last inner) takes
        (readElements_last (inner.ne_nil_of_takes inInner) isInner atEnd)
  | .tuple opening closing first comma later, depth, c, e, takes, ends, enough => by
      have lighter : c.weight =
          (ofTrees (Elements.next first comma later).trees closing).weight + e.weight + 1 :=
        takes.weight_group
      obtain _ | depth := depth
      · omega
      obtain ⟨f, inInner, atEnd⟩ :=
        (ofTrees (Elements.next first comma later).trees closing).exists_takes_rest
      have areRead : ElementsAreRead (.next first comma later) :=
        elementsAreRead_next first.isRead later.areRead
      exact readAt_parens (.next first comma later) takes
        (areRead depth inInner atEnd (by omega))
  | .slice opening closing element, depth, c, e, takes, ends, enough => by
      have lighter := takes.weight_group
      obtain _ | depth := depth
      · omega
      obtain ⟨f, inInner, atEnd⟩ := (ofTrees element.trees closing).exists_takes_rest
      have isElement := element.isRead depth inInner (endsPath_of_nil atEnd) (by omega)
      exact readAt_brackets takes (readBracketed_slice isElement atEnd)
  | .array opening closing element semi trees length isLength, depth, c, e, takes, ends, enough => by
      have lighter := takes.weight_group
      obtain _ | depth := depth
      · omega
      obtain ⟨f, inInner, atEnd⟩ :=
        (ofTrees (element.trees ++ .token semi.1 :: trees) closing).exists_takes_rest
      obtain ⟨g, inElement, behind⟩ := inInner.split
      obtain ⟨h, inSemi, inLength⟩ := behind.uncons
      have isElement := element.isRead depth inElement
        (endsPath_of_takes semi.2 inSemi (by decide) (by decide)) (by omega)
      have isLength : IsLength h.rest h.finish length := by
        rw [inLength.rest, atEnd, List.append_nil, (inElement.trans inSemi).finish_eq]
        exact isLength
      obtain ⟨k, isArray⟩ := readBracketed_array opening isElement inSemi isLength
      exact readAt_brackets takes isArray
  | .infer word, depth, c, e, takes, ends, enough => by
      obtain _ | depth := depth
      · omega
      rw [readAt_named (Token.isWord_iff.1 word.2).1 (by decide) (by decide) takes]
      exact readNamed_infer takes
  | .path root name starts generics later, depth, c, e, takes, ends, enough => by
      obtain ⟨d, inRoot, inNames⟩ := takes.split
      obtain ⟨f, inName, behind⟩ := inNames.uncons
      obtain ⟨g, inGenerics, inLater⟩ := behind.split
      have lighterRoot := inRoot.weight_le
      have lighterName := inName.weight_token
      have lighter := inGenerics.weight_le
      obtain _ | _ | depth := depth
      · omega
      · omega
      have isGenerics := generics.areRead depth inGenerics (Segments.notLeft inLater ends) (by omega)
      have isLater := later.areRead depth name.1.text generics.args inLater ends (by omega)
      have isSegments := readSegments_eq inName isGenerics isLater
      cases root with
      | some sep =>
          rw [readAt_named sep.2 (by decide) (by decide) inRoot, readNamed_eq starts inRoot inName.rest]
          exact (bind_of_ok isSegments).trans rfl
      | none =>
          obtain rfl : d = c := inRoot.eq_of_nil
          rw [readAt_named name.2 (by decide) (by decide) inName, readNamed_eq starts inRoot inName.rest]
          exact (bind_of_ok isSegments).trans rfl

/-- Elements are read up to the end. -/
theorem Elements.areRead : ∀ elements : Elements, ElementsAreRead elements
  | .done, depth, c, e, takes, atEnd, enough => by
      obtain _ | depth := depth
      · omega
      obtain rfl := takes.eq_of_nil
      exact readElements_done atEnd
  | .last element, depth, c, e, takes, atEnd, enough => by
      obtain _ | depth := depth
      · omega
      have isElement := element.isRead depth takes (endsPath_of_nil atEnd) (by omega)
      exact readElements_last (element.ne_nil_of_takes takes) isElement atEnd
  | .next element comma later, depth, _, _, takes, atEnd, enough =>
      elementsAreRead_next element.isRead later.areRead depth takes atEnd enough

/-- What stands behind a segment is read, the segment being in front. -/
theorem Segments.areRead : ∀ (later : Segments) (depth : Nat) {c e : Cursor} (name : String)
    (args : List GenericArg), c.Takes later.trees e → EndsPath e.rest → 3 * c.weight ≤ depth →
      readBehindSegment depth name args c = .ok (.mk name args :: later.segments) e
  | .done, depth, c, e, name, args, takes, ends, enough => by
      obtain rfl := takes.eq_of_nil
      have notSep : token? .pathSep e = .ok none e :=
        token?_of_other fun t later rest => (ends t later rest).2
      exact (bind_of_ok notSep).trans rfl
  | .next sep name' generics later, depth, c, e, name, args, takes, ends, enough => by
      obtain ⟨d, inSep, inNames⟩ := takes.uncons
      obtain ⟨f, inName, behind⟩ := inNames.uncons
      obtain ⟨g, inGenerics, inLater⟩ := behind.split
      have lighterSep := inSep.weight_token
      have lighterName := inName.weight_token
      have lighter := inGenerics.weight_le
      obtain _ | depth := depth
      · omega
      have isGenerics := generics.areRead depth inGenerics (Segments.notLeft inLater ends) (by omega)
      have isLater := later.areRead depth name'.1.text generics.args inLater ends (by omega)
      exact (bind_of_ok (token?_of_takes sep.2 inSep)).trans
        ((bind_of_ok (readSegments_eq inName isGenerics isLater)).trans rfl)

/-- Generic arguments are read where they stand, and are absent where no `<` is. -/
theorem Generics.areRead : ∀ (generics : Generics) (depth : Nat) {c e : Cursor},
    c.Takes generics.trees e → (∀ t later, e.rest = .token t :: later → t.kind ≠ .langle) →
      3 * c.weight + 2 ≤ depth → readGenerics depth c = .ok generics.args e
  | .absent, depth, c, e, takes, notLeft, enough => by
      obtain rfl := takes.eq_of_nil
      exact (bind_of_ok (token?_of_other notLeft)).trans rfl
  | .present left args, depth, c, e, takes, notLeft, enough => by
      obtain ⟨d, inLeft, inArgs⟩ := takes.uncons
      have lighter := inLeft.weight_token
      exact (bind_of_ok (token?_of_takes left.2 inLeft)).trans (args.areRead depth inArgs (by omega))

/-- Generic arguments are read up to the closing `>`. -/
theorem Arguments.areRead : ∀ (args : Arguments) (depth : Nat) {c e : Cursor},
    c.Takes args.trees e → 3 * c.weight + 5 ≤ depth → readArgs depth c = .ok args.args e
  | .done right, depth, c, e, takes, enough => by
      obtain _ | depth := depth
      · omega
      exact (bind_of_ok (token?_of_takes right.2 takes)).trans rfl
  | .last arg right, depth, c, e, takes, enough => by
      obtain _ | depth := depth
      · omega
      obtain ⟨d, inArg, inRight⟩ := takes.split
      have isArg := arg.isRead depth inArg
        (endsPath_of_takes right.2 inRight (by decide) (by decide)) (by omega)
      have notComma : token? .comma d = .ok none d :=
        token?_of_kind_ne inRight.rest (by rw [right.2]; decide)
      unfold readArgs
      rw [bind_of_ok (token?_of_other fun t later rest => Argument.notRight inArg rest)]
      refine (bind_of_ok isArg).trans ((bind_of_ok notComma).trans ?_)
      exact (bind_of_ok (expect_eq_ok_iff.2 ⟨right.2, inRight⟩)).trans rfl
  | .next arg comma later, depth, c, e, takes, enough => by
      obtain _ | depth := depth
      · omega
      obtain ⟨d, inArg, behind⟩ := takes.split
      obtain ⟨f, inComma, inLater⟩ := behind.uncons
      have lighter := inArg.weight_le
      have lighterBehind := inComma.weight_token
      have isArg := arg.isRead depth inArg
        (endsPath_of_takes comma.2 inComma (by decide) (by decide)) (by omega)
      unfold readArgs
      rw [bind_of_ok (token?_of_other fun t later rest => Argument.notRight inArg rest)]
      refine (bind_of_ok isArg).trans ((bind_of_ok (token?_of_takes comma.2 inComma)).trans ?_)
      exact (bind_of_ok (later.areRead depth inLater (by omega))).trans rfl

/-- A generic argument is read, in front of what does not continue it. -/
theorem Argument.isRead : ∀ (arg : Argument) (depth : Nat) {c e : Cursor},
    c.Takes arg.trees e → EndsPath e.rest → 3 * c.weight + 4 ≤ depth →
      readArg depth c = .ok arg.arg e
  | .lifetime t, depth, c, e, takes, ends, enough => by
      obtain _ | depth := depth
      · omega
      exact (bind_of_ok (token?_of_takes t.2 takes)).trans rfl
  | .literal t isLiteral value isValue, depth, c, e, takes, ends, enough => by
      obtain _ | depth := depth
      · omega
      have read : literal? c = .ok (some ⟨value, t⟩) e := by
        rw [literal?_of_literal takes.rest isLiteral, isValue, takes.moved]
        rfl
      exact (bind_of_ok (token?_of_kind_ne takes.rest (kind_of_isLiteral isLiteral).1)).trans
        ((bind_of_ok read).trans rfl)
  | .type d, depth, c, e, takes, ends, enough => by
      obtain _ | depth := depth
      · omega
      have notLifetime : token? .lifetime c = .ok none c :=
        token?_of_other fun t later rest => (Derivation.leads takes rest).notLifetime
      have notLiteral : literal? c = .ok none c :=
        literal?_of_other fun t later rest => (Derivation.leads takes rest).notLiteral
      exact (bind_of_ok notLifetime).trans ((bind_of_ok notLiteral).trans
        ((bind_of_ok (d.isRead depth takes ends (by omega))).trans rfl))

end

end TypeExpr

end AttrGrammar
