import AttrGrammar.Proofs.Reading.Tracks

/-!
Contract: the readers of identifiers, literals and expressions, and that they track themselves on twins.

Owns:
- what each of these readers yields, and how far it moves;
- its result on trees that differ in their places only.
-/

namespace AttrGrammar

namespace Reader

open Cursor

/-! ## What the readers do -/

section Outcomes

variable {c d : Cursor} {t : Token} {later : List Tree}

theorem ident_of_word (rest : c.rest = .token t :: later) (isIdent : t.kind = .ident)
    (free : t.text ∉ reservedWords) : ident c = .ok ⟨t.text, t.position⟩ (c.skip 1) := by
  obtain ⟨consumed, trees, finish⟩ := c
  obtain rfl : trees = .token t :: later := rest
  show (if t.kind = .ident ∧ t.text ∉ reservedWords then _ else _ : Reader Ident) _ = _
  rw [if_pos ⟨isIdent, free⟩]
  rfl

theorem ident_of_other (other : ∀ t later, c.rest = .token t :: later →
    ¬(t.kind = .ident ∧ t.text ∉ reservedWords)) :
    ident c = fail .malformedItem (.noItem .identifier) c := by
  obtain ⟨consumed, trees, finish⟩ := c
  rcases trees with - | ⟨t | _, behind⟩
  · rfl
  · show (if t.kind = .ident ∧ t.text ∉ reservedWords then _ else _ : Reader Ident) _ = _
    rw [if_neg (other t behind rfl)]
  · rfl

theorem ident_eq_ok_iff {i : Ident} :
    ident c = .ok i d ↔ ∃ t later, c.rest = .token t :: later ∧ t.kind = .ident ∧
      t.text ∉ reservedWords ∧ i = ⟨t.text, t.position⟩ ∧ d = c.skip 1 := by
  constructor
  · intro read
    by_cases present : ∃ t later, c.rest = .token t :: later ∧ t.kind = .ident ∧ t.text ∉ reservedWords
    · obtain ⟨t, later, rest, isIdent, free⟩ := present
      rw [ident_of_word rest isIdent free] at read
      obtain ⟨rfl, rfl⟩ := EStateM.Result.ok.inj read
      exact ⟨t, later, rest, isIdent, free, rfl, rfl⟩
    · rw [ident_of_other fun t later rest isWord => present ⟨t, later, rest, isWord⟩] at read
      cases read
  · rintro ⟨t, later, rest, isIdent, free, rfl, rfl⟩
    exact ident_of_word rest isIdent free

theorem literal?_of_literal (rest : c.rest = .token t :: later)
    (isLiteral : (Tree.token t).isLiteral) :
    literal? c = match Literal.decode t.kind t.text with
      | .ok l => .ok (some ⟨l, t⟩) (c.skip 1)
      | .error fault => .error (.ofLiteral t.position fault) (c.skip 1) := by
  obtain ⟨consumed, trees, finish⟩ := c
  obtain rfl : trees = .token t :: later := rest
  show (if (Tree.token t).isLiteral then _ else _ : Reader (Option TokenLiteral)) _ = _
  rw [if_pos isLiteral]
  show EStateM.bind (decoded t) _ _ = _
  unfold EStateM.bind decoded
  cases Literal.decode t.kind t.text <;> rfl

theorem literal?_of_other (other : ∀ t later, c.rest = .token t :: later →
    (Tree.token t).isLiteral = false) : literal? c = .ok none c := by
  obtain ⟨consumed, trees, finish⟩ := c
  rcases trees with - | ⟨t | _, later⟩
  · rfl
  · show (if (Tree.token t).isLiteral then _ else _ : Reader (Option TokenLiteral)) _ = _
    rw [if_neg (Bool.eq_false_iff.1 (other t later rfl))]
    rfl
  · rfl

/-- What it takes for a literal to be read. -/
theorem literal?_eq_some {read : TokenLiteral} (isRead : literal? c = .ok (some read) d) :
    ∃ later, c.rest = .token read.token :: later ∧ d = c.skip 1 ∧
      (Tree.token read.token).isLiteral ∧
      Literal.decode read.token.kind read.token.text = .ok read.literal := by
  by_cases present : ∃ t later, c.rest = .token t :: later ∧ (Tree.token t).isLiteral
  · obtain ⟨t, later, rest, isLiteral⟩ := present
    rw [literal?_of_literal rest isLiteral] at isRead
    split at isRead
    · rename_i l isValue
      obtain ⟨same, rfl⟩ := EStateM.Result.ok.inj isRead
      obtain rfl := Option.some.inj same
      exact ⟨later, rest, rfl, isLiteral, isValue⟩
    · cases isRead
  · rw [literal?_of_other fun t later rest =>
      Bool.eq_false_iff.2 fun isLiteral => present ⟨t, later, rest, isLiteral⟩] at isRead
    cases (EStateM.Result.ok.inj isRead).1

/-- What it takes for a literal to be read where one is required. -/
theorem literal_eq_ok {read : TokenLiteral} (isRead : literal c = .ok read d) :
    ∃ later, c.rest = .token read.token :: later ∧ d = c.skip 1 := by
  obtain ⟨first, e, isFirst, last⟩ := bind_eq_ok_iff.1 isRead
  cases first with
  | none => cases last
  | some l =>
      obtain ⟨rfl, rfl⟩ := EStateM.Result.ok.inj last
      obtain ⟨later, rest, behind, -, -⟩ := literal?_eq_some isFirst
      exact ⟨later, rest, behind⟩

theorem expect_of_kind {context : String} {errorKind : ErrorKind}
    (rest : c.rest = .token t :: later) : expect t.kind context errorKind c = .ok t (c.skip 1) :=
  (bind_of_ok (token?_of_kind rest)).trans rfl

theorem expect_of_other {kind : TokenKind} {context : String} {errorKind : ErrorKind}
    (other : ∀ t later, c.rest = .token t :: later → t.kind ≠ kind) :
    expect kind context errorKind c = fail errorKind (.missing (.token kind) context) c :=
  bind_of_ok (token?_of_other other)

/-- What it takes for a token to be read where one is required. -/
theorem expect_eq_ok {kind : TokenKind} {context : String} {errorKind : ErrorKind}
    (isRead : expect kind context errorKind c = .ok t d) :
    ∃ later, c.rest = .token t :: later ∧ t.kind = kind ∧ d = c.skip 1 := by
  obtain ⟨first, e, isFirst, last⟩ := bind_eq_ok_iff.1 isRead
  by_cases present : ∃ u later, c.rest = .token u :: later ∧ u.kind = kind
  · obtain ⟨u, later, rest, rfl⟩ := present
    rw [token?_of_kind rest] at isFirst
    obtain ⟨rfl, rfl⟩ := EStateM.Result.ok.inj isFirst
    obtain ⟨rfl, rfl⟩ := EStateM.Result.ok.inj last
    exact ⟨later, rest, rfl, rfl⟩
  · rw [token?_of_other fun u later rest isKind => present ⟨u, later, rest, isKind⟩] at isFirst
    obtain ⟨rfl, rfl⟩ := EStateM.Result.ok.inj isFirst
    cases last

/-- What there is when a group is looked for, and where the cursor is left. -/
theorem group?_eq_ok {delimiter : Delimiter} {found : Option (Position × Cursor)}
    (isRead : group? delimiter c = .ok found d) :
    (∃ opening closing inner later, c.rest = .group delimiter opening closing inner :: later ∧
      found = some (opening, .ofTrees inner closing) ∧ d = c.skip 1) ∨ found = none ∧ d = c := by
  by_cases present : ∃ opening closing inner later,
      c.rest = .group delimiter opening closing inner :: later
  · obtain ⟨opening, closing, inner, later, rest⟩ := present
    rw [group?_of_group rest] at isRead
    obtain ⟨rfl, rfl⟩ := EStateM.Result.ok.inj isRead
    exact .inl ⟨opening, closing, inner, later, rest, rfl, rfl⟩
  · rw [group?_of_other fun opening closing inner later rest =>
      present ⟨opening, closing, inner, later, rest⟩] at isRead
    obtain ⟨rfl, rfl⟩ := EStateM.Result.ok.inj isRead
    exact .inr ⟨rfl, rfl⟩

end Outcomes

/-! ## Side by side -/

section Twins

variable {c c' : Cursor}

theorem tracks_ident (twin : Twin c c') :
    Tracks ident ident c' c fun i' i _ => i'.name = i.name := by
  by_cases present : ∃ t later, c.rest = .token t :: later ∧ t.kind = .ident ∧ t.text ∉ reservedWords
  · obtain ⟨t, later, rest, isIdent, free⟩ := present
    obtain ⟨t', later', rest', sameToken, -⟩ := Tree.exists_token_of_alike (rest ▸ twin.alike)
    have sameText := Token.text_eq_of_alike sameToken
    exact tracks_of_ok (ident_of_word rest isIdent free)
      (ident_of_word rest' ((Token.kind_eq_of_alike sameToken).trans isIdent) (by rwa [sameText]))
      (moves_token rest (by rw [isIdent]; decide)) sameText
  · have absent := ident_of_other fun t later rest isWord => present ⟨t, later, rest, isWord⟩
    have absent' : ident c' = fail .malformedItem (.noItem .identifier) c' := by
      refine ident_of_other fun t' later' rest' isWord => ?_
      obtain ⟨t, later, rest, sameToken, -⟩ := Tree.exists_token_of_alike (rest' ▸ twin.alike.symm)
      rw [← Token.kind_eq_of_alike sameToken, ← Token.text_eq_of_alike sameToken] at isWord
      exact present ⟨t, later, rest, isWord⟩
    exact (tracks_fail twin _ _).of_eq absent absent'

theorem isLiteral_eq_of_alike {t t' : Token} (alike : t'.unplaced = t.unplaced) :
    (Tree.token t').isLiteral = (Tree.token t).isLiteral := by
  simp only [Tree.isLiteral, Token.kind_eq_of_alike alike, Token.isWord_eq_of_alike alike]

/-- Whether literals have one value, and tokens that differ in their places only. -/
def TokenLiteral.Alike (l' l : TokenLiteral) : Prop :=
  l'.literal.same l.literal ∧ l'.token.unplaced = l.token.unplaced

/-- How the results of consuming a literal or not are related. -/
def SameLiteral (read' read : Option TokenLiteral) : Prop :=
  (∃ l' l, read' = some l' ∧ read = some l ∧ TokenLiteral.Alike l' l) ∨
    (read' = none ∧ read = none)

theorem tracks_literal? (twin : Twin c c') :
    Tracks literal? literal? c' c fun v' v _ => SameLiteral v' v := by
  by_cases present : ∃ t later, c.rest = .token t :: later ∧ (Tree.token t).isLiteral
  · obtain ⟨t, later, rest, isLiteral⟩ := present
    obtain ⟨t', later', rest', sameToken, -⟩ := Tree.exists_token_of_alike (rest ▸ twin.alike)
    have read := literal?_of_literal rest isLiteral
    have read' := literal?_of_literal rest' ((isLiteral_eq_of_alike sameToken).trans isLiteral)
    rw [Token.kind_eq_of_alike sameToken, Token.text_eq_of_alike sameToken] at read'
    cases decoded : Literal.decode t.kind t.text with
    | error fault =>
        rw [decoded] at read read'
        exact tracks_of_error read read' (Failure.unplaced_ofLiteral _ _ fault)
    | ok l =>
        rw [decoded] at read read'
        have isLeaf : t ∈ Tree.leavesAll c.rest := by
          rw [rest]
          exact List.mem_cons_self ..
        refine tracks_of_ok read read' (moves_skip_one rest ?_)
          (.inl ⟨_, _, rfl, rfl, twin.reflexive t isLeaf l decoded, sameToken⟩)
        intro u member isChar
        obtain rfl := List.mem_singleton.1 member
        exact ⟨l, isChar ▸ decoded⟩
  · have absent := literal?_of_other fun t later rest =>
      Bool.eq_false_iff.2 fun isLiteral => present ⟨t, later, rest, isLiteral⟩
    refine tracks_of_ok absent (literal?_of_other ?_) (Moves.refl c c') (.inr ⟨rfl, rfl⟩)
    intro t' later' rest'
    obtain ⟨t, later, rest, sameToken, -⟩ := Tree.exists_token_of_alike (rest' ▸ twin.alike.symm)
    refine Bool.eq_false_iff.2 fun isLiteral => present ⟨t, later, rest, ?_⟩
    rwa [isLiteral_eq_of_alike sameToken]

theorem tracks_literal (twin : Twin c c') :
    Tracks literal literal c' c fun l' l _ => TokenLiteral.Alike l' l := by
  refine (tracks_literal? twin).bind twin ?_
  rintro _ _ d' d twinD - (⟨l', l, rfl, rfl, alike⟩ | ⟨rfl, rfl⟩)
  · exact tracks_pure alike
  · exact tracks_fail twinD _ _

end Twins

end Reader

/-! ## Expressions -/

/-- Whether nodes are equal, and the trees that spell them differ in their places only. -/
def Spelled.Alike {α : Type} (same : α → α → Bool) (s' s : Spelled α) : Prop :=
  same s'.node s.node ∧ Tree.unplacedAll s'.trees = Tree.unplacedAll s.trees

namespace Expr

open Cursor Reader

theorem read_of_absent {c : Cursor} (absent : extent false none c.rest = 0) :
    read c = fail .malformedItem (.noItem .expression) c := by
  show (if extent false none c.rest = 0 then _ else _ : Reader (Spelled (Expr Literal))) _ = _
  rw [if_pos absent]

theorem read_of_extent {c : Cursor} (present : extent false none c.rest ≠ 0) :
    read c =
      match ofTrees (c.rest.take (extent false none c.rest))
        (c.skip (extent false none c.rest)).position with
      | .ok node => .ok ⟨node, c.rest.take (extent false none c.rest)⟩
          (c.skip (extent false none c.rest))
      | .error failure => .error failure (c.skip (extent false none c.rest)) := by
  show (if extent false none c.rest = 0 then _ else _ : Reader (Spelled (Expr Literal))) _ = _
  rw [if_neg present]
  show (match ofTrees _ _ with
    | .ok node => _
    | .error failure => _ : Reader (Spelled (Expr Literal))) _ = _
  cases ofTrees (c.rest.take (extent false none c.rest))
    (c.skip (extent false none c.rest)).position <;> rfl

/-- What it takes for an expression to be read. -/
theorem read_eq_ok_iff {c d : Cursor} {e : Spelled (Expr Literal)} :
    read c = .ok e d ↔ extent false none c.rest ≠ 0 ∧ d = c.skip (extent false none c.rest) ∧
      e.trees = c.rest.take (extent false none c.rest) ∧ ofTrees e.trees d.position = .ok e.node := by
  by_cases isEmpty : extent false none c.rest = 0
  · rw [read_of_absent isEmpty]
    exact ⟨nofun, fun reads => absurd isEmpty reads.1⟩
  · rw [read_of_extent isEmpty]
    constructor
    · intro isRead
      split at isRead
      · rename_i node isNode
        obtain ⟨rfl, rfl⟩ := EStateM.Result.ok.inj isRead
        exact ⟨isEmpty, rfl, rfl, isNode⟩
      · cases isRead
    · rintro ⟨-, rfl, trees, isNode⟩
      rw [← trees, isNode]

/-- The trees of an expression that is all that is left are all trees. -/
theorem trees_of_read {c d : Cursor} {e : Spelled (Expr Literal)} (isRead : read c = .ok e d)
    (atEnd : d.rest = []) : e.trees = c.rest := by
  obtain ⟨-, rfl, trees, -⟩ := read_eq_ok_iff.1 isRead
  rw [trees]
  exact List.take_of_length_le (List.drop_eq_nil_iff.1 atEnd)

/-- Expressions are read alike on twins. -/
theorem tracks_read {c c' : Cursor} (twin : Twin c c') :
    Tracks read read c' c fun e' e _ => e'.Alike (same Literal.same) e := by
  have sameExtent := extent_eq_of_alike twin.alike
  by_cases isEmpty : extent false none c.rest = 0
  · exact (tracks_fail twin _ _).of_eq (read_of_absent isEmpty)
      (read_of_absent (sameExtent.trans isEmpty))
  · have read := read_of_extent isEmpty
    have read' := read_of_extent (sameExtent ▸ isEmpty)
    rw [sameExtent] at read'
    have sameTrees : Tree.unplacedAll (c'.rest.take (extent false none c.rest)) =
        Tree.unplacedAll (c.rest.take (extent false none c.rest)) := by
      rw [Tree.unplacedAll_take, Tree.unplacedAll_take, twin.alike]
    have reflexive : ∀ t ∈ Tree.leavesAll (c.rest.take (extent false none c.rest)), t.IsReflexive :=
      fun t member => twin.reflexive t (Tree.leavesAll_take_subset c.rest _ member)
    have reproduces := reproduces_ofTrees sameTrees reflexive
      (c.skip (extent false none c.rest)).position (c'.skip (extent false none c.rest)).position
    cases result : ofTrees (c.rest.take (extent false none c.rest))
        (c.skip (extent false none c.rest)).position with
    | ok node =>
        obtain ⟨node', result', same⟩ := reproduces.values node result
        rw [result] at read
        rw [result'] at read'
        exact tracks_of_ok read read' ⟨_, rfl, rfl, hasCharacter_of_ofTrees result⟩ ⟨same, sameTrees⟩
    | error failure =>
        obtain ⟨failure', result', sameFailure⟩ := reproduces.failures failure result
        rw [result] at read
        rw [result'] at read'
        exact tracks_of_error read read' sameFailure

end Expr

end AttrGrammar
