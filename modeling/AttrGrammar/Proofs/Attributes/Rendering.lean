import AttrGrammar.Proofs.Attributes.Spellings

/-!
Contract: what is read as attributes is all in the attributes, and nothing else is.

Owns:
- the trees that payloads and attributes are rendered as, by what they hold and the marks of their grammars;
- the trees that readers consume, which are those of what they yield, places aside;
- lists of attributes, which are renderings with commas between them.

Does not own: the text of the renderings.
-/

namespace AttrGrammar

open Cursor Reader

/-! ## Renderings -/

/-- An expression behind a mark, if there is one. -/
def Spelled.treesBehind {α : Type} (mark : TokenKind) : Option (Spelled α) → List Tree
  | none => []
  | some e => .token (.mark mark) :: e.trees

/-- The trees that a payload is rendered as. -/
def PayloadValue.trees : PayloadValue → List Tree
  | lit read => [.token read.token]
  | expr e => e.trees
  | type t => t.trees
  | ident i => i.trees
  | identPatType i t => i.trees ++ .token (.mark .colon) :: t.trees
  | identTypeMaybeDefault i t default =>
      i.trees ++ .token (.mark .colon) :: t.trees ++ Spelled.treesBehind .equals default
  | fieldValue i value => i.trees ++ Spelled.treesBehind .colon value

def Enclosure.delimiter : Enclosure → Delimiter
  | paren => .paren
  | brace => .brace

/-- Which trees an attribute is rendered as: its keyword, with its value behind `=` or in parentheses, or with its
items between brackets, a comma between them and perhaps behind the last. -/
inductive Attribute.Renders : Attribute PayloadValue → List Tree → Prop where
  | void (keyword : String) (position : Position) :
      Renders ⟨keyword, position, .void⟩ [.token (.word keyword position)]
  | behindEquals (keyword : String) (position : Position) (v : PayloadValue) :
      Renders ⟨keyword, position, .value v⟩
        (.token (.word keyword position) :: .token (.mark .equals) :: v.trees)
  | inParens (keyword : String) (position opening closing : Position) (v : PayloadValue) :
      Renders ⟨keyword, position, .value v⟩
        [.token (.word keyword position), .group .paren opening closing v.trees]
  | list (keyword : String) (position opening closing : Position) {items : List PayloadValue}
      {inner : List Tree} (separated : Separated (items.map PayloadValue.trees) inner) :
      Renders ⟨keyword, position, .list items⟩
        [.token (.word keyword position), .group .paren opening closing inner]
  | enclosed (keyword : String) (position opening closing : Position) (enclosure : Enclosure)
      {items : List PayloadValue} {inner : List Tree}
      (separated : Separated (items.map PayloadValue.trees) inner) :
      Renders ⟨keyword, position, .enclosed enclosure items⟩
        [.token (.word keyword position), .group enclosure.delimiter opening closing inner]

/-! ## Consumed trees -/

/-- Whether the tokens ahead of a cursor are scanned, and their brackets are those of groups. -/
structure Cursor.LexedAhead (c : Cursor) : Prop where
  scanned : ∀ t ∈ Tree.leavesAll c.rest, t.IsScanned
  plain : IsPlainAhead c

/-- Whether a cursor is behind another one, over trees that are the given ones, places aside. -/
def Cursor.Consumes (c d : Cursor) (trees : List Tree) : Prop :=
  ∃ count, d = c.skip count ∧ Tree.unplacedAll (c.rest.take count) = Tree.unplacedAll trees

section Consumes

variable {c d e : Cursor} {front back trees later : List Tree} {t u : Token}

theorem Cursor.LexedAhead.skip (lexed : c.LexedAhead) (count : Nat) : (c.skip count).LexedAhead where
  scanned := fun t member => lexed.scanned t (Tree.leavesAll_drop_subset c.rest count member)
  plain := lexed.plain.skip count

theorem Cursor.LexedAhead.inner (lexed : c.LexedAhead) {delimiter : Delimiter}
    {opening closing : Position} {inner : List Tree}
    (rest : c.rest = .group delimiter opening closing inner :: later) :
    (Cursor.ofTrees inner closing).LexedAhead where
  scanned := by
    intro t member
    apply lexed.scanned t
    rw [rest]
    exact List.mem_append_left _ member
  plain := lexed.plain.inner rest

theorem Cursor.LexedAhead.head (lexed : c.LexedAhead) (rest : c.rest = .token t :: later) :
    t.IsScanned := by
  apply lexed.scanned
  rw [rest]
  exact List.mem_cons_self ..

namespace Cursor.Consumes

theorem lexed (consumes : c.Consumes d trees) (lexed : c.LexedAhead) : d.LexedAhead := by
  obtain ⟨count, rfl, -⟩ := consumes
  exact lexed.skip count

theorem nothing (c : Cursor) : c.Consumes c [] :=
  ⟨0, (skip_zero c).symm, by rw [List.take_zero]⟩

theorem append (first : c.Consumes d front) (behind : d.Consumes e back) :
    c.Consumes e (front ++ back) := by
  obtain ⟨m, rfl, sameFront⟩ := first
  obtain ⟨n, rfl, sameBack⟩ := behind
  refine ⟨m + n, skip_skip c m n, ?_⟩
  rw [List.take_add, Tree.unplacedAll_append, Tree.unplacedAll_append, sameFront]
  exact congrArg _ sameBack

theorem token (rest : c.rest = .token t :: later) (same : t.unplaced = u.unplaced) :
    c.Consumes (c.skip 1) [.token u] := by
  refine ⟨1, rfl, ?_⟩
  rw [rest]
  exact Payload.unplacedAll_token same rfl

theorem group {delimiter : Delimiter} {opening closing : Position} {inner : List Tree}
    (rest : c.rest = .group delimiter opening closing inner :: later)
    (same : Tree.unplacedAll inner = Tree.unplacedAll trees) :
    c.Consumes (c.skip 1) [.group delimiter opening closing trees] := by
  refine ⟨1, rfl, ?_⟩
  rw [rest]
  simp [Tree.unplacedAll, Tree.unplaced, same]

/-- Where nothing is left, all trees are the consumed ones. -/
theorem all (consumes : c.Consumes d trees) (atEnd : d.rest = []) :
    Tree.unplacedAll c.rest = Tree.unplacedAll trees := by
  obtain ⟨count, rfl, same⟩ := consumes
  rwa [List.take_of_length_le (List.drop_eq_nil_iff.1 atEnd)] at same

end Cursor.Consumes

end Consumes

/-! ## What readers consume -/

namespace Reader

section Words

variable {c d : Cursor}

/-- A token of a kind with one spelling is the mark of that kind. -/
theorem unplaced_mark {t : Token} (isScanned : t.IsScanned) (hasSpelling : t.kind.spelling ≠ [])
    (notAngle : t.kind ≠ .rangle) : t.unplaced = (Token.mark t.kind).unplaced := by
  have spelled := isScanned.eq_of_spelling hasSpelling notAngle
  have sameText : t.text = String.ofList t.kind.spelling := congrArg Token.text spelled
  have notJoint : t.joint = false := congrArg Token.joint spelled
  exact Token.unplaced_eq_iff.2 ⟨rfl, sameText, notJoint⟩

theorem ident_consumes (lexed : c.LexedAhead) {i : Ident} (isRead : ident c = .ok i d) :
    c.Consumes d i.trees := by
  obtain ⟨t, later, rest, isIdent, -, rfl, rfl⟩ := ident_eq_ok_iff.1 isRead
  exact .token rest (Payload.unplaced_word (lexed.head rest) isIdent _).symm

theorem literal_consumes {l : TokenLiteral} (isRead : literal c = .ok l d) :
    c.Consumes d [.token l.token] := by
  obtain ⟨later, rest, rfl⟩ := literal_eq_ok isRead
  exact .token rest rfl

theorem expect_consumes (lexed : c.LexedAhead) {kind : TokenKind} (hasSpelling : kind.spelling ≠ [])
    (notAngle : kind ≠ .rangle) {context : String} {errorKind : ErrorKind} {t : Token}
    (isRead : expect kind context errorKind c = .ok t d) : c.Consumes d [.token (.mark kind)] := by
  obtain ⟨later, rest, rfl, rfl⟩ := expect_eq_ok isRead
  exact .token rest (unplaced_mark (lexed.head rest) hasSpelling notAngle)

theorem token?_consumes (lexed : c.LexedAhead) {kind : TokenKind} (hasSpelling : kind.spelling ≠ [])
    (notAngle : kind ≠ .rangle) {found : Option Token} (isRead : token? kind c = .ok found d) :
    (∃ t, found = some t ∧ c.Consumes d [.token (.mark kind)]) ∨ found = none ∧ d = c := by
  by_cases present : ∃ t later, c.rest = .token t :: later ∧ t.kind = kind
  · obtain ⟨t, later, rest, rfl⟩ := present
    rw [token?_of_kind rest] at isRead
    obtain ⟨rfl, rfl⟩ := EStateM.Result.ok.inj isRead
    exact .inl ⟨t, rfl, .token rest (unplaced_mark (lexed.head rest) hasSpelling notAngle)⟩
  · rw [token?_of_other fun t later rest isKind => present ⟨t, later, rest, isKind⟩] at isRead
    obtain ⟨rfl, rfl⟩ := EStateM.Result.ok.inj isRead
    exact .inr ⟨rfl, rfl⟩

end Words

end Reader

theorem Expr.read_consumes {c d : Cursor} {e : Spelled (Expr Literal)} (isRead : read c = .ok e d) :
    c.Consumes d e.trees := by
  obtain ⟨-, rfl, trees, -⟩ := read_eq_ok_iff.1 isRead
  exact ⟨_, rfl, by rw [trees]⟩

theorem TypeExpr.read_consumes {c d : Cursor} (lexed : c.LexedAhead) {t : Spelled TypeExpr}
    (isRead : read c = .ok t d) : c.Consumes d t.trees := by
  have agrees : Agrees .all read read c c := agrees_read lexed.plain
  obtain ⟨count, -, rfl, -⟩ := agrees.reads t d isRead
  obtain ⟨-, trees⟩ := read_eq_ok_iff.1 isRead
  exact ⟨count, rfl, by rw [trees, since_skip]⟩

namespace Payload

section Payloads

variable {c d : Cursor}

theorem typedName_consumes (lexed : c.LexedAhead) {i : Ident} {t : Spelled TypeExpr}
    (isRead : typedName c = .ok (i, t) d) :
    c.Consumes d (i.trees ++ .token (.mark .colon) :: t.trees) := by
  obtain ⟨i', e, isIdent, isRead⟩ := bind_eq_ok_iff.1 isRead
  obtain ⟨colon, f, isColon, isRead⟩ := bind_eq_ok_iff.1 isRead
  obtain ⟨t', isType, same⟩ := bind_pure_eq_ok_iff.1 isRead
  obtain ⟨rfl, rfl⟩ := Prod.mk.inj same
  have name := ident_consumes lexed isIdent
  have lexedColon := name.lexed lexed
  have mark := expect_consumes lexedColon (by decide) (by decide) isColon
  exact name.append (mark.append (TypeExpr.read_consumes (mark.lexed lexedColon) isType))

theorem exprBehind_consumes (lexed : c.LexedAhead) {kind : TokenKind} (hasSpelling : kind.spelling ≠ [])
    (notAngle : kind ≠ .rangle) {e : Option (Spelled (Expr Literal))}
    (isRead : exprBehind kind c = .ok e d) : c.Consumes d (Spelled.treesBehind kind e) := by
  obtain ⟨found, f, isFound, isBehind⟩ := bind_eq_ok_iff.1 isRead
  rcases token?_consumes lexed hasSpelling notAngle isFound with ⟨t, rfl, mark⟩ | ⟨rfl, rfl⟩
  · obtain ⟨x, isExpr, rfl⟩ := bind_pure_eq_ok_iff.1 isBehind
    exact mark.append (Expr.read_consumes isExpr)
  · obtain ⟨rfl, rfl⟩ := EStateM.Result.ok.inj isBehind
    exact .nothing _

/-- The trees of a payload are those that it was read from. -/
theorem read_consumes (p : Payload) (lexed : c.LexedAhead) {v : PayloadValue}
    (isRead : p.read c = .ok v d) : c.Consumes d v.trees := by
  cases p with
  | lit =>
      obtain ⟨l, isLiteral, rfl⟩ := bind_pure_eq_ok_iff.1 isRead
      exact literal_consumes isLiteral
  | expr =>
      obtain ⟨x, isExpr, rfl⟩ := bind_pure_eq_ok_iff.1 isRead
      exact Expr.read_consumes isExpr
  | type =>
      obtain ⟨t, isType, rfl⟩ := bind_pure_eq_ok_iff.1 isRead
      exact TypeExpr.read_consumes lexed isType
  | ident =>
      obtain ⟨i, isIdent, rfl⟩ := bind_pure_eq_ok_iff.1 isRead
      exact ident_consumes lexed isIdent
  | identPatType =>
      obtain ⟨⟨i, t⟩, isTyped, rfl⟩ := bind_pure_eq_ok_iff.1 isRead
      exact typedName_consumes lexed isTyped
  | identTypeMaybeDefault =>
      obtain ⟨⟨i, t⟩, e, isTyped, isRead⟩ := bind_eq_ok_iff.1 isRead
      obtain ⟨default, isDefault, rfl⟩ := bind_pure_eq_ok_iff.1 isRead
      have typed := typedName_consumes lexed isTyped
      exact typed.append (exprBehind_consumes (typed.lexed lexed) (by decide) (by decide) isDefault)
  | fieldValue =>
      obtain ⟨i, e, isIdent, isRead⟩ := bind_eq_ok_iff.1 isRead
      obtain ⟨value, isValue, rfl⟩ := bind_pure_eq_ok_iff.1 isRead
      have name := ident_consumes lexed isIdent
      exact name.append (exprBehind_consumes (name.lexed lexed) (by decide) (by decide) isValue)

end Payloads

end Payload

/-! ## Lists -/

/-- Items that are others, places aside, make up trees that are the same, places aside. -/
theorem Separated.exists_alike {items items' : List (List Tree)} {trees : List Tree}
    (separated : Separated items trees)
    (alike : List.Forall₂ (fun item item' => Tree.unplacedAll item = Tree.unplacedAll item') items items') :
    ∃ trees', Separated items' trees' ∧ Tree.unplacedAll trees = Tree.unplacedAll trees' := by
  induction separated generalizing items' with
  | nil =>
      cases alike
      exact ⟨[], .nil, rfl⟩
  | last item =>
      obtain ⟨item', others, same, noMore, rfl⟩ := List.forall₂_cons_left_iff.1 alike
      cases noMore
      exact ⟨item', .last item', same⟩
  | @cons items trees item comma isComma _ inductionHypothesis =>
      obtain ⟨item', others, same, later, rfl⟩ := List.forall₂_cons_left_iff.1 alike
      obtain ⟨trees', separated', sameLater⟩ := inductionHypothesis later
      refine ⟨item' ++ .token comma :: trees', .cons item' isComma separated', ?_⟩
      rw [Tree.unplacedAll_append, Tree.unplacedAll_append, same,
        Payload.unplacedAll_token rfl sameLater]

theorem exists_forall₂ {α β : Type} {related : α → β → Prop} {as : List α}
    (each : ∀ a ∈ as, ∃ b, related a b) : ∃ bs, List.Forall₂ related as bs := by
  induction as with
  | nil => exact ⟨[], .nil⟩
  | cons a later inductionHypothesis =>
      obtain ⟨⟨b, first⟩, behind⟩ := List.forall_mem_cons.1 each
      obtain ⟨bs, areLater⟩ := inductionHypothesis behind
      exact ⟨b :: bs, .cons first areLater⟩

/-- A list that is read consists of renderings of its items, with commas between them, if what is read as an item is
a rendering of it. -/
theorem Reader.IsLocal.exists_separated {α : Type} {r : Reader α} (isLocal : IsLocal r)
    (render : α → List Tree → Prop)
    (renders : ∀ {c d : Cursor} {v : α}, c.LexedAhead → r c = .ok v d →
      ∃ trees, render v trees ∧ c.Consumes d trees)
    {c d : Cursor} {vs : List α} (lexed : c.LexedAhead) (isRead : terminated r c = .ok vs d) :
    ∃ renderings trees, List.Forall₂ render vs renderings ∧ Separated renderings trees ∧
      Tree.unplacedAll c.rest = Tree.unplacedAll trees := by
  obtain ⟨entries, reads, separated, rfl, -⟩ :=
    isLocal.exists_entries c.rest.length lexed.plain (Nat.le_refl _) isRead
  have each : ∀ entry ∈ entries, ∃ trees, render entry.2 trees ∧
      Tree.unplacedAll entry.1 = Tree.unplacedAll trees := by
    intro entry member
    have leaves := separated.leaves_subset (List.mem_map_of_mem member)
    have lexedItem : (Cursor.ofTrees entry.1 c.finish).LexedAhead :=
      ⟨fun t isLeaf => lexed.scanned t (leaves isLeaf), fun t isLeaf => lexed.plain t (leaves isLeaf)⟩
    have isItem := (reads entry member).2 (.ofTrees entry.1 c.finish) [] (List.append_nil _).symm trivial
    obtain ⟨trees, rendering, consumes⟩ := renders lexedItem isItem
    exact ⟨trees, rendering, consumes.all (List.drop_length ..)⟩
  obtain ⟨renderings, areRenderings⟩ := exists_forall₂ each
  have rendered : List.Forall₂ render (entries.map Prod.snd) renderings :=
    List.forall₂_map_left_iff.2 (areRenderings.imp fun _ _ both => both.1)
  obtain ⟨trees, separated', same⟩ := separated.exists_alike
    (List.forall₂_map_left_iff.2 (areRenderings.imp fun _ _ both => both.2))
  exact ⟨renderings, trees, rendered, separated', same⟩

/-- The items of a list of payloads are in its trees, and nothing else is. -/
theorem Payload.exists_separated (p : Payload) {c : Cursor} {vs : List PayloadValue}
    (lexed : c.LexedAhead) (isRead : outcome (terminated p.read) c = .ok vs) :
    ∃ trees, Separated (vs.map PayloadValue.trees) trees ∧
      Tree.unplacedAll c.rest = Tree.unplacedAll trees := by
  obtain ⟨d, isRead⟩ := outcome_eq_ok_iff.1 isRead
  obtain ⟨renderings, trees, rendered, separated, same⟩ :=
    p.isLocal_read.exists_separated (fun v trees => v.trees = trees)
      (fun lexed isRead => ⟨_, rfl, p.read_consumes lexed isRead⟩) lexed isRead
  have areTrees : List.Forall₂ (· = ·) (vs.map PayloadValue.trees) renderings :=
    List.forall₂_map_left_iff.2 rendered
  rw [List.forall₂_eq_eq_eq] at areTrees
  rw [areTrees]
  exact ⟨trees, separated, same⟩

/-! ## Attributes -/

namespace Attribute

section Attributes

variable {c d : Cursor}

theorem readKeyword_consumes (lexed : c.LexedAhead) {keyword : String} {position : Position}
    (isRead : readKeyword keyword c = .ok position d) :
    c.Consumes d [.token (.word keyword position)] := by
  obtain ⟨word, later, rest, isWord, rfl, rfl⟩ := readKeyword_eq_ok_iff.1 isRead
  obtain ⟨isIdent, sameText⟩ : word.kind = .ident ∧ word.text = keyword := by
    simpa [Token.isWord] using isWord
  rw [← sameText]
  exact .token rest (Payload.unplaced_word (lexed.head rest) isIdent _).symm

/-- A value in parentheses is all of their trees. -/
theorem value_of_inside (p : Payload) {inner : Cursor} (lexed : inner.LexedAhead)
    {build : PayloadValue → Attribute PayloadValue} {a : Attribute PayloadValue}
    (isRead : (inside inner (whole p.read) >>= fun v => pure (build v)) c = .ok a d) :
    d = c ∧ ∃ v, a = build v ∧ Tree.unplacedAll inner.rest = Tree.unplacedAll v.trees := by
  obtain ⟨v, isInside, rfl⟩ := bind_pure_eq_ok_iff.1 isRead
  obtain ⟨isInner, rfl⟩ := inside_eq_ok_iff.1 isInside
  obtain ⟨e, isInner⟩ := outcome_eq_ok_iff.1 isInner
  obtain ⟨isPayload, atEnd⟩ := whole_eq_ok_iff.1 isInner
  exact ⟨rfl, v, rfl, (p.read_consumes lexed isPayload).all atEnd⟩

/-- Items between brackets are all of their trees, but for the commas. -/
theorem items_of_inside (p : Payload) {inner : Cursor} (lexed : inner.LexedAhead)
    {build : List PayloadValue → Attribute PayloadValue} {a : Attribute PayloadValue}
    (isRead : (inside inner (terminated p.read) >>= fun items => pure (build items)) c = .ok a d) :
    d = c ∧ ∃ items trees, a = build items ∧ Separated (items.map PayloadValue.trees) trees ∧
      Tree.unplacedAll inner.rest = Tree.unplacedAll trees := by
  obtain ⟨items, isInside, rfl⟩ := bind_pure_eq_ok_iff.1 isRead
  obtain ⟨isInner, rfl⟩ := inside_eq_ok_iff.1 isInside
  obtain ⟨trees, separated, same⟩ := p.exists_separated lexed isInner
  exact ⟨rfl, items, trees, rfl, separated, same⟩

theorem readValue_consumes (p : Payload) (lexed : c.LexedAhead) {keyword : String}
    {a : Attribute PayloadValue} (isRead : readValue keyword p.read c = .ok a d) :
    ∃ trees, a.Renders trees ∧ c.Consumes d trees := by
  obtain ⟨position, e, isKeyword, isValue⟩ := bind_eq_ok_iff.1 isRead
  have word := readKeyword_consumes lexed isKeyword
  have lexedE := word.lexed lexed
  obtain ⟨found, f, isGroup, isBehind⟩ := bind_eq_ok_iff.1 isValue
  rcases group?_eq_ok isGroup with ⟨opening, closing, inner, later, rest, rfl, rfl⟩ | ⟨rfl, rfl⟩
  · obtain ⟨rfl, v, rfl, same⟩ := value_of_inside p (lexedE.inner rest) isBehind
    exact ⟨_, .inParens keyword position opening closing v, word.append (.group rest same)⟩
  · obtain ⟨equals, g, isEquals, isLater⟩ := bind_eq_ok_iff.1 isBehind
    rcases token?_consumes lexedE (by decide) (by decide) isEquals with ⟨t, rfl, mark⟩ | ⟨rfl, rfl⟩
    · obtain ⟨v, isPayload, rfl⟩ := bind_pure_eq_ok_iff.1 isLater
      have payload := p.read_consumes (mark.lexed lexedE) isPayload
      exact ⟨_, .behindEquals keyword position v, word.append (mark.append payload)⟩
    · cases isLater

theorem readList_consumes (p : Payload) (lexed : c.LexedAhead) {keyword : String}
    {a : Attribute PayloadValue} (isRead : readList keyword (terminated p.read) c = .ok a d) :
    ∃ trees, a.Renders trees ∧ c.Consumes d trees := by
  obtain ⟨position, e, isKeyword, isList⟩ := bind_eq_ok_iff.1 isRead
  have word := readKeyword_consumes lexed isKeyword
  have lexedE := word.lexed lexed
  obtain ⟨found, f, isGroup, isBehind⟩ := bind_eq_ok_iff.1 isList
  rcases group?_eq_ok isGroup with ⟨opening, closing, inner, later, rest, rfl, rfl⟩ | ⟨rfl, rfl⟩
  · obtain ⟨rfl, items, trees, rfl, separated, same⟩ := items_of_inside p (lexedE.inner rest) isBehind
    exact ⟨_, .list keyword position opening closing separated, word.append (.group rest same)⟩
  · cases isBehind

theorem readEnclosed_consumes (p q : Payload) (lexed : c.LexedAhead) {keyword : String}
    {a : Attribute PayloadValue}
    (isRead : readEnclosed keyword (terminated p.read) (terminated q.read) c = .ok a d) :
    ∃ trees, a.Renders trees ∧ c.Consumes d trees := by
  obtain ⟨position, e, isKeyword, isList⟩ := bind_eq_ok_iff.1 isRead
  have word := readKeyword_consumes lexed isKeyword
  have lexedE := word.lexed lexed
  obtain ⟨found, f, isParen, isBehind⟩ := bind_eq_ok_iff.1 isList
  rcases group?_eq_ok isParen with ⟨opening, closing, inner, later, rest, rfl, rfl⟩ | ⟨rfl, rfl⟩
  · obtain ⟨rfl, items, trees, rfl, separated, same⟩ := items_of_inside p (lexedE.inner rest) isBehind
    exact ⟨_, .enclosed keyword position opening closing .paren separated,
      word.append (.group rest same)⟩
  · obtain ⟨found, g, isBrace, isLater⟩ := bind_eq_ok_iff.1 isBehind
    rcases group?_eq_ok isBrace with ⟨opening, closing, inner, later, rest, rfl, rfl⟩ | ⟨rfl, rfl⟩
    · obtain ⟨rfl, items, trees, rfl, separated, same⟩ := items_of_inside q (lexedE.inner rest) isLater
      exact ⟨_, .enclosed keyword position opening closing .brace separated,
        word.append (.group rest same)⟩
    · cases isLater

/-- The trees that an attribute is read from are a rendering of it, places aside. -/
theorem read_consumes (n : Node Payload) (lexed : c.LexedAhead) {a : Attribute PayloadValue}
    (isRead : read Payload.read n c = .ok a d) : ∃ trees, a.Renders trees ∧ c.Consumes d trees := by
  obtain ⟨keyword, shape⟩ := n
  cases shape with
  | void =>
      obtain ⟨position, isKeyword, rfl⟩ := bind_pure_eq_ok_iff.1 isRead
      exact ⟨_, .void keyword position, readKeyword_consumes lexed isKeyword⟩
  | value p => exact readValue_consumes p lexed isRead
  | list p => exact readList_consumes p lexed isRead
  | enclosed p q => exact readEnclosed_consumes p q lexed isRead

end Attributes

end Attribute

namespace AttrSet

variable {s : AttrSet Payload}

theorem read_consumes {c d : Cursor} (lexed : c.LexedAhead) {a : Attribute PayloadValue}
    (isRead : s.read c = .ok a d) : ∃ trees, a.Renders trees ∧ c.Consumes d trees := by
  obtain ⟨t, later, r, -, -, isReader, isRead⟩ := readByKeyword_eq_ok isRead
  obtain ⟨n, -, rfl⟩ := Option.map_eq_some_iff.1 isReader
  exact Attribute.read_consumes n lexed isRead

/-- Nothing is lost or duplicated. Where a list of attributes is accepted, its trees are, places aside, renderings
of the attributes that it yields, in their order, with a comma between neighbours and perhaps behind the last one. -/
theorem exists_renderings {trees : List Tree} {finish : Position} {result : Parsed}
    (scanned : ∀ t ∈ Tree.leavesAll trees, t.IsScanned) (plain : ∀ t ∈ Tree.leavesAll trees, t.IsPlain)
    (accepted : s.listGrammar.parseTrees trees finish = .ok result) :
    ∃ attributes renderings rendered, result = Attribute.parsedList attributes ∧
      List.Forall₂ Attribute.Renders attributes renderings ∧ Separated renderings rendered ∧
      Tree.unplacedAll trees = Tree.unplacedAll rendered := by
  rw [parseTrees_listGrammar plain] at accepted
  obtain ⟨attributes, isRead, rfl⟩ := exists_of_map_eq_ok accepted
  obtain ⟨d, isRead⟩ := outcome_eq_ok_iff.1 isRead
  have lexed : (Cursor.ofTrees trees finish).LexedAhead := ⟨scanned, plain⟩
  obtain ⟨renderings, rendered, areRenderings, separated, same⟩ :=
    s.isLocal_read.exists_separated Attribute.Renders (fun lexed isRead => read_consumes lexed isRead)
      lexed isRead
  exact ⟨attributes, renderings, rendered, rfl, areRenderings, separated, same⟩

/-- Of `args { a: b }, big,` there are two renderings, and the comma behind the last. -/
theorem exists_renderings_args :
    let args : Token := .word "args" ⟨1, 1⟩
    let comma (column : Nat) : Token := ⟨.comma, ",", ⟨1, column⟩, false⟩
    let trees : List Tree :=
      [.token args, .group .brace ⟨1, 6⟩ ⟨1, 13⟩ [.token (.word "a" ⟨1, 8⟩),
        .token ⟨.colon, ":", ⟨1, 9⟩, false⟩, .token (.word "b" ⟨1, 11⟩)],
        .token (comma 14), .token (.word "big" ⟨1, 16⟩), .token (comma 19)]
    ∃ attributes renderings rendered, renderings.length = 2 ∧
      BuiltinSet.field.set.listGrammar.parseTrees trees ⟨1, 20⟩ =
        .ok (Attribute.parsedList attributes) ∧
      List.Forall₂ Attribute.Renders attributes renderings ∧ Separated renderings rendered ∧
      Tree.unplacedAll trees = Tree.unplacedAll rendered := by
  intro args comma trees
  have scanned : ∀ t ∈ Tree.leavesAll trees, t.IsScanned := by
    have areScanned : ∀ t ∈ [args, .word "a" ⟨1, 8⟩, ⟨.colon, ":", ⟨1, 9⟩, false⟩, .word "b" ⟨1, 11⟩,
        comma 14, .word "big" ⟨1, 16⟩, comma 19], t.IsScanned := by
      simp only [List.forall_mem_cons]
      exact ⟨⟨'a', ['r', 'g', 's'], .ident, 3, rfl, rfl⟩, ⟨'a', [], .ident, 0, rfl, rfl⟩,
        ⟨':', [], .colon, 0, rfl, rfl⟩, ⟨'b', [], .ident, 0, rfl, rfl⟩, ⟨',', [], .comma, 0, rfl, rfl⟩,
        ⟨'b', ['i', 'g'], .ident, 2, rfl, rfl⟩, ⟨',', [], .comma, 0, rfl, rfl⟩, nofun⟩
    exact areScanned
  have plain : ∀ t ∈ Tree.leavesAll trees, t.IsPlain := by
    decide
  have accepted : BuiltinSet.field.set.listGrammar.parseTrees trees ⟨1, 20⟩ =
      .ok (Attribute.parsedList
        [⟨"args", ⟨1, 1⟩, .enclosed .brace [.fieldValue _ _]⟩, ⟨"big", ⟨1, 16⟩, .void⟩]) := rfl
  obtain ⟨attributes, renderings, rendered, same, areRenderings, separated, alike⟩ :=
    exists_renderings scanned plain accepted
  have lengths := congrArg List.length (Parsed.terminated.inj same)
  rw [List.length_map, List.length_map, areRenderings.length_eq] at lengths
  exact ⟨attributes, renderings, rendered, lengths.symm, accepted.trans (congrArg _ same), areRenderings,
    separated, alike⟩

end AttrSet

end AttrGrammar
