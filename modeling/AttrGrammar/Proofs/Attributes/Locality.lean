import AttrGrammar.Proofs.Reading.Items
import AttrGrammar.Proofs.Reading.Locality

/-!
Contract: the readers of payloads and attributes read an item of a list as if nothing stood behind it.

Owns:
- the agreement of the readers of payloads with themselves;
- the agreement of the readers of attributes, given that of the readers for what belongs to keywords;
- the agreement of lists up to the end, given that of the reader of their items.
-/

namespace AttrGrammar

open Cursor Reader

/-- Whether a reader reads items of lists: it agrees with itself, on trees whose brackets are those of groups, and it
does not succeed where an item may end. -/
structure Reader.IsLocal {α : Type} (r : Reader α) : Prop where
  agrees : ∀ {view : View} {c c' : Cursor}, IsPlainAhead c → Agrees view r r c' c
  starts : ∀ {c d : Cursor} {v : α}, r c = .ok v d → ¬Expr.Stops c.rest

/-! ## Payloads -/

namespace Payload

section Parts

variable {view : View} {c c' : Cursor}

theorem agrees_typedName (plain : IsPlainAhead c) : Agrees view typedName typedName c' c := by
  apply agrees_ident.bind
  intro i d d' _ advance
  apply (agrees_expect _ _ _).bind
  intro colon e e' _ advanceColon
  have plainBehind := advanceColon.isPlainAhead (advance.isPlainAhead plain)
  exact (TypeExpr.agrees_read plainBehind).bind_pure _

theorem agrees_exprBehind {kind : TokenKind} (notComma : kind ≠ .comma) (plain : IsPlainAhead c) :
    Agrees view (exprBehind kind) (exprBehind kind) c' c := by
  apply (agrees_token? notComma).bind
  intro read d d' _ advance
  cases read with
  | none => exact agrees_pure none
  | some t => exact (Expr.agrees_read (advance.isPlainAhead plain)).bind_pure _

theorem agrees_read (p : Payload) (plain : IsPlainAhead c) : Agrees view p.read p.read c' c := by
  cases p with
  | lit => exact agrees_literal.bind_pure _
  | expr => exact (Expr.agrees_read plain).bind_pure _
  | type => exact (TypeExpr.agrees_read plain).bind_pure _
  | ident => exact agrees_ident.bind_pure _
  | identPatType => exact (agrees_typedName plain).bind_pure _
  | identTypeMaybeDefault =>
      apply (agrees_typedName plain).bind
      intro read d d' _ advance
      exact (agrees_exprBehind (by decide) (advance.isPlainAhead plain)).bind_pure _
  | fieldValue =>
      apply agrees_ident.bind
      intro i d d' _ advance
      exact (agrees_exprBehind (by decide) (advance.isPlainAhead plain)).bind_pure _

end Parts

section Starts

variable {c d : Cursor}

theorem ident_starts {i : Ident} (isRead : Reader.ident c = .ok i d) : ¬Expr.Stops c.rest := by
  intro stops
  obtain ⟨t, later, rest, isIdent, -⟩ := ident_eq_ok_iff.1 isRead
  cases isIdent.symm.trans (kind_of_stops rest stops)

theorem literal_starts {l : TokenLiteral} (isRead : Reader.literal c = .ok l d) :
    ¬Expr.Stops c.rest := by
  intro stops
  have noLiteral : literal? c = .ok none c := by
    apply literal?_of_other
    intro t later rest
    simp [Tree.isLiteral, Token.isWord, kind_of_stops rest stops, TokenKind.isLiteral]
  have fails : Reader.literal c = fail .malformedItem (.noItem .literal) c := bind_of_ok noLiteral
  rw [fails] at isRead
  cases isRead

theorem expr_starts {e : Spelled (Expr Literal)} (isRead : Expr.read c = .ok e d) :
    ¬Expr.Stops c.rest := by
  intro stops
  exact (Expr.read_eq_ok_iff.1 isRead).1 (Expr.extent_of_stops stops)

theorem type_starts {t : Spelled TypeExpr} (isRead : TypeExpr.read c = .ok t d) :
    ¬Expr.Stops c.rest := by
  intro stops
  obtain ⟨isNode, -⟩ := TypeExpr.read_eq_ok_iff.1 isRead
  rw [TypeExpr.readAt_of_stops _ stops] at isNode
  cases isNode

/-- No payload is read where an item may end. -/
theorem read_starts {p : Payload} {v : PayloadValue} (isRead : p.read c = .ok v d) :
    ¬Expr.Stops c.rest := by
  cases p with
  | lit =>
      obtain ⟨l, e, isLiteral, -⟩ := bind_eq_ok_iff.1 isRead
      exact literal_starts isLiteral
  | expr =>
      obtain ⟨x, e, isExpr, -⟩ := bind_eq_ok_iff.1 isRead
      exact expr_starts isExpr
  | type =>
      obtain ⟨t, e, isType, -⟩ := bind_eq_ok_iff.1 isRead
      exact type_starts isType
  | ident =>
      obtain ⟨i, e, isIdent, -⟩ := bind_eq_ok_iff.1 isRead
      exact ident_starts isIdent
  | identPatType =>
      obtain ⟨named, e, isNamed, -⟩ := bind_eq_ok_iff.1 isRead
      obtain ⟨i, f, isIdent, -⟩ := bind_eq_ok_iff.1 isNamed
      exact ident_starts isIdent
  | identTypeMaybeDefault =>
      obtain ⟨named, e, isNamed, -⟩ := bind_eq_ok_iff.1 isRead
      obtain ⟨i, f, isIdent, -⟩ := bind_eq_ok_iff.1 isNamed
      exact ident_starts isIdent
  | fieldValue =>
      obtain ⟨i, e, isIdent, -⟩ := bind_eq_ok_iff.1 isRead
      exact ident_starts isIdent

end Starts

theorem isLocal_read (p : Payload) : IsLocal p.read :=
  ⟨p.agrees_read, read_starts⟩

end Payload

/-! ## Lists -/

namespace Reader

variable {α : Type} {r : Reader α} {c c' : Cursor}

/-- Lists are read the same, at most so many items that they suffice. -/
theorem IsLocal.agrees_itemsUpTo (isLocal : IsLocal r) (count count' : Nat) {c c' : Cursor}
    (plain : IsPlainAhead c) (enough : c.rest.length ≤ count) (enough' : c.rest.length ≤ count') :
    Agrees .all (itemsUpTo r count') (itemsUpTo r count) c' c := by
  induction count generalizing count' c c' with
  | zero =>
      have atEnd : c.rest = [] := List.length_eq_zero_iff.1 (Nat.le_zero.1 enough)
      refine Agrees.of_level fun c' level => ?_
      exact (agrees_pure []).of_eq (itemsUpTo_nil 0 atEnd)
        (itemsUpTo_nil count' (level.rest.trans atEnd))
  | succ count inductionHypothesis =>
      refine Agrees.of_level fun c' level => ?_
      cases rest : c.rest with
      | nil =>
          exact (agrees_pure []).of_eq (itemsUpTo_nil _ rest)
            (itemsUpTo_nil count' (level.rest.trans rest))
      | cons tree others =>
          rw [rest, List.length_cons] at enough enough'
          obtain ⟨count', rfl⟩ := Nat.exists_eq_add_of_le' (Nat.le_trans (Nat.le_add_left 1 _) enough')
          refine agrees_get ?_
          rw [level.isEmpty_eq, Cursor.isEmpty, rest]
          apply (isLocal.agrees plain).bind
          intro first d d' _ advance
          refine Agrees.of_level fun d' level => ?_
          refine agrees_get ?_
          rw [level.isEmpty_eq]
          cases d.isEmpty with
          | true => exact agrees_pure [first]
          | false =>
              apply (agrees_expect _ _ _).bind
              intro comma e e' isComma advanceComma
              obtain ⟨later, restD, -, rfl⟩ := expect_eq_ok isComma
              have shorter : (d.skip 1).rest.length + 1 ≤ c.rest.length := by
                have fewer := advance.length_le
                rw [restD, List.length_cons] at fewer
                rwa [rest_skip_one restD]
              rw [rest, List.length_cons] at shorter
              have plainBehind := (advance.isPlainAhead plain).skip 1
              exact (inductionHypothesis count' plainBehind (by omega) (by omega)).bind_pure _

theorem IsLocal.agrees_terminated (isLocal : IsLocal r) (plain : IsPlainAhead c) :
    Agrees .all (terminated r) (terminated r) c' c := by
  refine Agrees.of_level fun c' level => ?_
  refine agrees_get ?_
  rw [level.rest]
  exact isLocal.agrees_itemsUpTo _ _ plain (Nat.le_refl _) (Nat.le_refl _)

end Reader

/-! ## Attributes -/

namespace Attribute

section Shapes

variable {α : Type} {view : View} {c c' : Cursor}

theorem readKeyword_of_word {keyword : String} {word : Token} {later : List Tree}
    (rest : c.rest = .token word :: later) (isWord : word.isWord keyword) :
    readKeyword keyword c = .ok word.position (c.skip 1) := by
  have position : c.position = word.position := by
    rw [Cursor.position, rest]
    rfl
  show (word? keyword >>= _ : Reader Position) c = _
  rw [bind_of_ok (word?_of_word rest isWord), ← position]
  rfl

theorem readKeyword_of_other {keyword : String}
    (other : ∀ t later, c.rest = .token t :: later → t.isWord keyword = false) :
    readKeyword keyword c = fail .keywordMismatch (.missing (.keyword keyword) "") c := by
  show (word? keyword >>= _ : Reader Position) c = _
  rw [bind_of_ok (word?_of_other other)]
  rfl

theorem readKeyword_eq_ok_iff {keyword : String} {position : Position} {d : Cursor} :
    readKeyword keyword c = .ok position d ↔ ∃ word later, c.rest = .token word :: later ∧
      word.isWord keyword ∧ position = word.position ∧ d = c.skip 1 := by
  constructor
  · intro isRead
    by_cases present : ∃ word later, c.rest = .token word :: later ∧ word.isWord keyword
    · obtain ⟨word, later, rest, isWord⟩ := present
      rw [readKeyword_of_word rest isWord] at isRead
      obtain ⟨rfl, rfl⟩ := EStateM.Result.ok.inj isRead
      exact ⟨word, later, rest, isWord, rfl, rfl⟩
    · rw [readKeyword_of_other fun word later rest =>
        Bool.eq_false_iff.2 fun isWord => present ⟨word, later, rest, isWord⟩] at isRead
      cases isRead
  · rintro ⟨word, later, rest, isWord, rfl, rfl⟩
    exact readKeyword_of_word rest isWord

theorem readKeyword_of_stops (keyword : String) (stops : Expr.Stops c.rest) :
    readKeyword keyword c = fail .keywordMismatch (.missing (.keyword keyword) "") c := by
  apply readKeyword_of_other
  intro t later rest
  simp [Token.isWord, kind_of_stops rest stops]

theorem agrees_readKeyword (keyword : String) :
    Agrees view (readKeyword keyword) (readKeyword keyword) c' c := by
  refine Agrees.of_next (fun stops v d => ?_) fun c' position _ => ?_
  · rw [readKeyword_of_stops keyword stops]
    nofun
  refine agrees_get ?_
  rw [position]
  apply (agrees_word? keyword).bind
  intro isKeyword d d' _ _
  cases isKeyword with
  | true => exact agrees_pure c.position
  | false => exact agrees_fail _ _

theorem agrees_failPayload (form : PayloadForm) (keyword : String) :
    Agrees view (failPayload form keyword : Reader α) (failPayload form keyword) c' c := by
  apply agrees_of_error
  intro e level
  refine ⟨e, ?_⟩
  show EStateM.Result.error (Failure.rejected (e.error (if e.isAbsent then _ else _) _)) e = _
  rw [level.isAbsent_eq, level.error_eq, level.found_eq]

theorem agrees_readVoid (keyword : String) :
    Agrees view (readVoid keyword : Reader (Attribute α)) (readVoid keyword) c' c := by
  exact (agrees_readKeyword keyword).bind_pure _

theorem agrees_readValue {payload : Reader α} (isLocal : IsLocal payload) (keyword : String)
    (plain : IsPlainAhead c) :
    Agrees view (readValue keyword payload) (readValue keyword payload) c' c := by
  apply (agrees_readKeyword keyword).bind
  intro position d d' _ advance
  have plainBehind := advance.isPlainAhead plain
  refine Agrees.bind_group? (fun opening closing inner later rest => ?_) ?_
  · exact (isLocal.agrees (plainBehind.inner rest)).whole.inside.bind_pure _
  · apply (agrees_token? (by decide)).bind
    intro equals e e' _ advanceEquals
    cases equals with
    | none => exact agrees_failPayload .value keyword
    | some t => exact (isLocal.agrees (advanceEquals.isPlainAhead plainBehind)).bind_pure _

theorem agrees_readList {item : Reader α} (isLocal : IsLocal item) (keyword : String)
    (plain : IsPlainAhead c) :
    Agrees view (readList keyword (terminated item)) (readList keyword (terminated item)) c' c := by
  apply (agrees_readKeyword keyword).bind
  intro position d d' _ advance
  have plainBehind := advance.isPlainAhead plain
  refine Agrees.bind_group? (fun opening closing inner later rest => ?_) ?_
  · exact (isLocal.agrees_terminated (plainBehind.inner rest)).inside.bind_pure _
  · exact agrees_failPayload .items keyword

theorem agrees_readEnclosed {parenItem braceItem : Reader α} (isLocal : IsLocal parenItem)
    (isLocalToo : IsLocal braceItem) (keyword : String) (plain : IsPlainAhead c) :
    Agrees view (readEnclosed keyword (terminated parenItem) (terminated braceItem))
      (readEnclosed keyword (terminated parenItem) (terminated braceItem)) c' c := by
  apply (agrees_readKeyword keyword).bind
  intro position d d' _ advance
  have plainBehind := advance.isPlainAhead plain
  refine Agrees.bind_group? (fun opening closing inner later rest => ?_) ?_
  · exact (isLocal.agrees_terminated (plainBehind.inner rest)).inside.bind_pure _
  refine Agrees.bind_group? (fun opening closing inner later rest => ?_) ?_
  · exact (isLocalToo.agrees_terminated (plainBehind.inner rest)).inside.bind_pure _
  · refine agrees_get (agrees_reject fun level => ?_)
    rw [level.lookaheadError_eq]

/-- Attributes are read locally, if what belongs to their keywords is. -/
theorem isLocal_read {γ : Type} {readItem : γ → Reader α}
    (items : ∀ grammar, IsLocal (readItem grammar)) (n : Node γ) : IsLocal (read readItem n) where
  agrees := by
    intro view c c' plain
    obtain ⟨keyword, shape⟩ := n
    cases shape with
    | void => exact agrees_readVoid keyword
    | value payload => exact agrees_readValue (items payload) keyword plain
    | list item => exact agrees_readList (items item) keyword plain
    | enclosed parenItem braceItem =>
        exact agrees_readEnclosed (items parenItem) (items braceItem) keyword plain
  starts := by
    intro c d a isRead stops
    have noKeyword := readKeyword_of_stops n.keyword stops
    have isFirst : ∃ position e, readKeyword n.keyword c = .ok position e := by
      obtain ⟨keyword, shape⟩ := n
      cases shape <;> obtain ⟨position, e, isKeyword, -⟩ := bind_eq_ok_iff.1 isRead <;>
        exact ⟨position, e, isKeyword⟩
    obtain ⟨position, e, isKeyword⟩ := isFirst
    rw [noKeyword] at isKeyword
    cases isKeyword

end Shapes

end Attribute

/-! ## Sets -/

section Sets

variable {α : Type} {set : String} {known : List String} {readerOf : String → Option (Reader α)}
  {c : Cursor} {t : Token} {later : List Tree}

theorem readByKeyword_of_known {r : Reader α} (rest : c.rest = .token t :: later)
    (isIdent : t.kind = .ident) (isKnown : readerOf t.text = some r) :
    readByKeyword set known readerOf c = r c := by
  obtain ⟨consumed, trees, finish⟩ := c
  obtain rfl : trees = .token t :: later := rest
  show (if t.kind = .ident then (readerOf t.text).getD _ else _ : Reader α) _ = _
  rw [if_pos isIdent, isKnown]
  rfl

theorem readByKeyword_of_unknown
    (isUnknown : ∀ t later, c.rest = .token t :: later → t.kind = .ident → readerOf t.text = none) :
    readByKeyword set known readerOf c = fail .keywordMismatch (.unknownAttribute set known) c := by
  obtain ⟨consumed, trees, finish⟩ := c
  match trees with
  | [] => rfl
  | .group .. :: _ => rfl
  | .token t :: later =>
      show (if t.kind = .ident then (readerOf t.text).getD _ else _ : Reader α) _ = _
      by_cases isIdent : t.kind = .ident
      · rw [if_pos isIdent, isUnknown t later rfl isIdent]
        rfl
      · rw [if_neg isIdent]

/-- What it takes for an attribute to be read that is chosen by its keyword. -/
theorem readByKeyword_eq_ok {d : Cursor} {v : α} (isRead : readByKeyword set known readerOf c = .ok v d) :
    ∃ t later r, c.rest = .token t :: later ∧ t.kind = .ident ∧ readerOf t.text = some r ∧
      r c = .ok v d := by
  by_cases isKnown : ∃ t later r, c.rest = .token t :: later ∧ t.kind = .ident ∧
    readerOf t.text = some r
  · obtain ⟨t, later, r, rest, isIdent, isReader⟩ := isKnown
    rw [readByKeyword_of_known rest isIdent isReader] at isRead
    exact ⟨t, later, r, rest, isIdent, isReader, isRead⟩
  · have isUnknown : readByKeyword set known readerOf c =
        fail .keywordMismatch (.unknownAttribute set known) c := by
      apply readByKeyword_of_unknown
      intro t later rest isIdent
      cases isReader : readerOf t.text with
      | none => rfl
      | some r => exact absurd ⟨t, later, r, rest, isIdent, isReader⟩ isKnown
    rw [isUnknown] at isRead
    cases isRead

/-- An attribute that is chosen by its keyword is read locally, if all attributes are. -/
theorem isLocal_readByKeyword
    (readers : ∀ keyword r, readerOf keyword = some r → IsLocal r) :
    IsLocal (readByKeyword set known readerOf) where
  agrees := by
    intro view c c' plain
    by_cases isKnown : ∃ t later r, c.rest = .token t :: later ∧ t.kind = .ident ∧
      readerOf t.text = some r
    · obtain ⟨t, later, r, rest, isIdent, isReader⟩ := isKnown
      have isReadBy : readByKeyword set known readerOf c = r c :=
        readByKeyword_of_known rest isIdent isReader
      have isLocal := readers t.text r isReader
      refine Agrees.of_next (fun stops v d isRead => ?_) fun c' _ next => ?_
      · exact isLocal.starts (isReadBy.symm.trans isRead) stops
      · rw [rest, List.head?_cons, List.head?_eq_some_iff] at next
        obtain ⟨later', rest'⟩ := next
        exact (isLocal.agrees plain).of_eq isReadBy (readByKeyword_of_known rest' isIdent isReader)
    · apply agrees_of_failing
      intro e same
      apply readByKeyword_of_unknown
      intro t later rest isIdent
      cases isReader : readerOf t.text with
      | none => rfl
      | some r => exact absurd ⟨t, later, r, same.symm.trans rest, isIdent, isReader⟩ isKnown
  starts := by
    intro c d v isRead stops
    obtain ⟨t, later, r, rest, isIdent, -⟩ := readByKeyword_eq_ok isRead
    cases isIdent.symm.trans (kind_of_stops rest stops)

end Sets

namespace AttrSet

/-- The attributes of a set are read locally. -/
theorem isLocal_read (s : AttrSet Payload) : IsLocal s.read := by
  apply isLocal_readByKeyword
  intro keyword r isReader
  obtain ⟨n, -, rfl⟩ := Option.map_eq_some_iff.1 isReader
  exact Attribute.isLocal_read Payload.isLocal_read n

end AttrSet

end AttrGrammar
