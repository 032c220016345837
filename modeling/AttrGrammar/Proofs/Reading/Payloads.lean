import AttrGrammar.Payload
import AttrGrammar.Proofs.Printing.Source
import AttrGrammar.Proofs.Types.Twins

/-!
Contract: payloads read from trees that differ in their places only, and those that are spliced into other trees.

Owns:
- that every payload is read alike from such trees, and spliced alike;
- which payloads are spliced;
- the trees that such a payload is spliced as, which are those that it was read from.
-/

namespace AttrGrammar

open Cursor Reader

/-- Literals of sources have values that equal themselves. -/
theorem Token.IsScanned.isReflexive {t : Token} (isScanned : t.IsScanned) : t.IsReflexive := by
  obtain ⟨c, more, kind, length, scanned, same⟩ := isScanned
  intro l decoded
  rw [same] at decoded
  exact Literal.same_of_scan scanned decoded

/-- Only a `>` is joint. -/
theorem Token.IsScanned.joint_eq_false {t : Token} (isScanned : t.IsScanned)
    (other : t.kind ≠ .rangle) : t.joint = false := by
  obtain ⟨c, more, kind, length, scanned, same⟩ := isScanned
  have isKind : t.kind = kind := by rw [same]; rfl
  rw [isKind] at other
  rw [same]
  simp [Lexer.tokenAt, other]

/-- Trees of a source and trees that are alike are twins. -/
theorem FromSource.twin {c c' : Cursor} (isFrom : FromSource c.rest)
    (alike : Tree.unplacedAll c'.rest = Tree.unplacedAll c.rest) : Twin c c' :=
  ⟨alike, fun t member => (isFrom.scanned t member).isReflexive⟩

theorem Ident.unplacedAll_trees {i' i : Ident} (sameName : i'.name = i.name) :
    Tree.unplacedAll i'.trees = Tree.unplacedAll i.trees := by
  simp [Ident.trees, Tree.unplacedAll, Tree.unplaced, Token.unplaced, Token.word, sameName]

/-- Whether payloads are equal, and spliced as trees that differ in their places only. -/
def PayloadValue.Alike (v' v : PayloadValue) : Prop :=
  v'.same v ∧ v'.splice?.map Tree.unplacedAll = v.splice?.map Tree.unplacedAll

namespace Payload

/-- Whether what a payload grammar yields is spliced. -/
def isSpliced : Payload → Bool
  | lit => true
  | expr => true
  | type => true
  | ident => true
  | identPatType => true
  | identTypeMaybeDefault => false
  | fieldValue => false

theorem unplacedAll_token {t u : Token} {trees later : List Tree} (first : t.unplaced = u.unplaced)
    (behind : Tree.unplacedAll trees = Tree.unplacedAll later) :
    Tree.unplacedAll (.token t :: trees) = Tree.unplacedAll (.token u :: later) := by
  simp [Tree.unplacedAll, Tree.unplaced, first, behind]

section Reading

variable {c c' d : Cursor} {p : Payload} {v : PayloadValue}

theorem tracks_typedName (twin : Twin c c') :
    Tracks typedName typedName c' c
      fun v' v _ => v'.1.name = v.1.name ∧ v'.2.Alike TypeExpr.same v.2 := by
  refine (tracks_ident twin).bind twin ?_
  rintro i' i d' d twinD - sameName
  rw [sameName]
  refine (tracks_expect twinD (by decide) _ _).bind twinD ?_
  rintro - - e' e twinE - -
  refine (TypeExpr.tracks_read twinE).bind twinE ?_
  rintro t' t f' f - - sameType
  exact tracks_pure ⟨sameName, sameType⟩

theorem tracks_exprBehind (twin : Twin c c') {kind : TokenKind} (notChar : kind ≠ .char) :
    Tracks (exprBehind kind) (exprBehind kind) c' c fun v' v _ => PayloadValue.sameExpr? v' v := by
  refine (tracks_token? twin notChar).bind twin ?_
  rintro _ _ d' d twinD - (⟨t', t, rfl, rfl, -, -⟩ | ⟨rfl, rfl⟩)
  · refine (Expr.tracks_read twinD).bind twinD ?_
    rintro e' e f' f - - ⟨sameExpr, -⟩
    exact tracks_pure sameExpr
  · exact tracks_pure rfl

/-- Payloads are read alike on twins. -/
theorem tracks_read (p : Payload) (twin : Twin c c') :
    Tracks p.read p.read c' c fun v' v _ => v'.Alike v := by
  cases p with
  | lit =>
      refine (tracks_literal twin).bind twin ?_
      rintro l' l d' d - - ⟨sameLiteral, sameToken⟩
      exact tracks_pure ⟨sameLiteral, congrArg some (unplacedAll_token sameToken rfl)⟩
  | expr =>
      refine (Expr.tracks_read twin).bind twin ?_
      rintro e' e d' d - - ⟨sameExpr, sameTrees⟩
      exact tracks_pure ⟨sameExpr, congrArg some sameTrees⟩
  | type =>
      refine (TypeExpr.tracks_read twin).bind twin ?_
      rintro t' t d' d - - ⟨sameType, sameTrees⟩
      exact tracks_pure ⟨sameType, congrArg some sameTrees⟩
  | ident =>
      refine (tracks_ident twin).bind twin ?_
      rintro i' i d' d - - sameName
      exact tracks_pure ⟨decide_eq_true sameName, congrArg some (Ident.unplacedAll_trees sameName)⟩
  | identPatType =>
      refine (tracks_typedName twin).bind twin ?_
      rintro ⟨i', t'⟩ ⟨i, t⟩ d' d - - ⟨sameName, sameType, sameTrees⟩
      refine tracks_pure ⟨?_, congrArg some ?_⟩
      · simp_all [PayloadValue.same]
      · rw [Tree.unplacedAll_append, Tree.unplacedAll_append, Ident.unplacedAll_trees sameName]
        exact congrArg _ (unplacedAll_token rfl sameTrees)
  | identTypeMaybeDefault =>
      refine (tracks_typedName twin).bind twin ?_
      rintro ⟨i', t'⟩ ⟨i, t⟩ d' d twinD - ⟨sameName, sameType, -⟩
      refine (tracks_exprBehind twinD (by decide)).bind twinD ?_
      rintro default' default e' e - - sameDefault
      exact tracks_pure ⟨by simp_all [PayloadValue.same], rfl⟩
  | fieldValue =>
      refine (tracks_ident twin).bind twin ?_
      rintro i' i d' d twinD - sameName
      refine (tracks_exprBehind twinD (by decide)).bind twinD ?_
      rintro value' value e' e - - sameValue
      exact tracks_pure ⟨by simp_all [PayloadValue.same], rfl⟩

/-- The word of an identifier is its token. -/
theorem unplaced_word {t : Token} (isScanned : t.IsScanned) (isIdent : t.kind = .ident)
    (position : Position) : (Token.word t.text position).unplaced = t.unplaced := by
  refine Token.unplaced_eq_iff.2 ⟨isIdent.symm, rfl, ?_⟩
  exact (isScanned.joint_eq_false (by rw [isIdent]; decide)).symm

/-- The colon that is put behind an identifier is that of a source. -/
theorem unplaced_colon {t : Token} (isScanned : t.IsScanned) (isColon : t.kind = .colon)
    (position : Position) : (⟨.colon, ":", position, false⟩ : Token).unplaced = t.unplaced := by
  have spelled := isScanned.eq_of_spelling (by rw [isColon]; decide) (by rw [isColon]; decide)
  rw [isColon] at spelled
  rw [spelled]
  rfl

/-- A payload is spliced as the trees that it was read from, places aside. -/
theorem exists_splice (isSpliced : p.isSpliced) (isFrom : FromSource c.rest)
    (read : whole p.read c = .ok v d) :
    ∃ trees, v.splice? = some trees ∧ Tree.unplacedAll trees = Tree.unplacedAll c.rest := by
  obtain ⟨read, atEnd⟩ := whole_eq_ok_iff.1 read
  cases p with
  | identTypeMaybeDefault => cases isSpliced
  | fieldValue => cases isSpliced
  | lit =>
      obtain ⟨l, e, isLiteral, last⟩ := bind_eq_ok_iff.1 read
      obtain ⟨rfl, rfl⟩ := EStateM.Result.ok.inj last
      obtain ⟨later, rest, rfl⟩ := literal_eq_ok isLiteral
      rw [rest_skip_one rest] at atEnd
      exact ⟨_, rfl, by rw [rest, atEnd]⟩
  | expr =>
      obtain ⟨e, f, isExpr, last⟩ := bind_eq_ok_iff.1 read
      obtain ⟨rfl, rfl⟩ := EStateM.Result.ok.inj last
      exact ⟨_, rfl, by rw [Expr.trees_of_read isExpr atEnd]⟩
  | type =>
      obtain ⟨t, f, isType, last⟩ := bind_eq_ok_iff.1 read
      obtain ⟨rfl, rfl⟩ := EStateM.Result.ok.inj last
      exact ⟨_, rfl, by rw [TypeExpr.trees_of_read isType atEnd]⟩
  | ident =>
      obtain ⟨i, f, isIdent, last⟩ := bind_eq_ok_iff.1 read
      obtain ⟨rfl, rfl⟩ := EStateM.Result.ok.inj last
      obtain ⟨t, later, rest, kind, -, rfl, rfl⟩ := ident_eq_ok_iff.1 isIdent
      have isScanned := isFrom.scanned t (by simp [rest, Tree.leavesAll, Tree.leaves])
      rw [rest_skip_one rest] at atEnd
      rw [rest, atEnd]
      exact ⟨_, rfl, unplacedAll_token (unplaced_word isScanned kind _) rfl⟩
  | identPatType =>
      obtain ⟨⟨i, t⟩, f, isTyped, last⟩ := bind_eq_ok_iff.1 read
      obtain ⟨rfl, rfl⟩ := EStateM.Result.ok.inj last
      obtain ⟨i', e, isIdent, isTyped⟩ := bind_eq_ok_iff.1 isTyped
      obtain ⟨word, behind, rest, wordKind, -, rfl, rfl⟩ := ident_eq_ok_iff.1 isIdent
      obtain ⟨colon, e, isColon, isTyped⟩ := bind_eq_ok_iff.1 isTyped
      obtain ⟨later, restBehind, colonKind, rfl⟩ := expect_eq_ok isColon
      obtain ⟨t', e, isType, last⟩ := bind_eq_ok_iff.1 isTyped
      obtain ⟨same, rfl⟩ := EStateM.Result.ok.inj last
      obtain ⟨rfl, rfl⟩ := Prod.mk.inj same
      rw [rest_skip_one rest] at restBehind
      subst restBehind
      have wordScanned := isFrom.scanned word (by simp [rest, Tree.leavesAll, Tree.leaves])
      have colonScanned := isFrom.scanned colon (by simp [rest, Tree.leavesAll, Tree.leaves])
      have typeTrees : t'.trees = later := by
        rw [TypeExpr.trees_of_read isType atEnd, rest_skip_one (rest_skip_one rest)]
      refine ⟨_, rfl, ?_⟩
      rw [rest, typeTrees]
      exact unplacedAll_token (unplaced_word wordScanned wordKind _)
        (unplacedAll_token (unplaced_colon colonScanned colonKind _) rfl)

end Reading

end Payload

end AttrGrammar
