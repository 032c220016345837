import AttrGrammar.Proofs.Attributes.Lists
import AttrGrammar.Proofs.Attributes.Walks
import AttrGrammar.Proofs.Trees.RoundTrip
import AttrGrammar.Proofs.Types.Rejection

/-!
Contract: the kind of an error names the situation that it is in.

Owns:
- the types that the reader of a payload comes to, and what payloads are rejected for beside what is malformed;
- how attributes fail behind their keywords, whatever their payloads are;
- the situations of lists of attributes that have kinds of their own, and that all else is malformed in a payload.

A situation is described by what was read in front of it, never by the error. That it holds is what it takes for a list
to fail there with an error of its kind, so that no list is in situations of two kinds.
-/

namespace AttrGrammar

open Cursor Reader

/-! ## Payloads -/

namespace Payload

/-- Whether a name and a colon are between two cursors, the second of which a type is read at. -/
def NamedTypeAt (c e : Cursor) : Prop :=
  ∃ (i : Ident) (d : Cursor) (colon : TokenOf .colon), Reader.ident c = .ok i d ∧ d.Takes [.token colon.1] e

/-- Whether a payload at a cursor is read by a type at another one, which is all of it or behind its name. -/
inductive TypeAt : Payload → Cursor → Cursor → Prop where
  | type (c : Cursor) : TypeAt .type c c
  | identPatType {c d : Cursor} (inFront : NamedTypeAt c d) : TypeAt .identPatType c d
  | identTypeMaybeDefault {c d : Cursor} (inFront : NamedTypeAt c d) : TypeAt .identTypeMaybeDefault c d

/-- Whether there is a surplus at a place in the type of a payload. -/
def Surplus (payload : Payload) (c : Cursor) (p : Position) : Prop :=
  ∃ d, payload.TypeAt c d ∧ TypeExpr.Surplus d p

section Rejected

variable {payload : Payload} {c d : Cursor} {p : Position}

theorem rejectsWithin_typedName :
    RejectsWithin (fun p => ∃ d, NamedTypeAt c d ∧ TypeExpr.Surplus d p) typedName c := by
  refine rejectsWithin_ident.bind fun i d isName => (rejectsWithin_expect _ _).bind fun colon e isColon => ?_
  obtain ⟨isKind, inColon⟩ := expect_eq_ok_iff.1 isColon
  have inFront : NamedTypeAt c e := ⟨i, d, ⟨colon, isKind⟩, isName, inColon⟩
  exact (TypeExpr.rejectsWithin_read.mono fun p surplus => ⟨e, inFront, surplus⟩).bind_pure _

theorem rejectsWithin_exprBehind {places : Position → Prop} (kind : TokenKind) :
    RejectsWithin places (exprBehind kind) c := by
  refine (rejectsWithin_token? kind).bind fun found d _ => ?_
  split
  · exact Expr.rejectsWithin_read.bind_pure _
  · exact rejectsWithin_pure none

/-- A payload is rejected as malformed, or for a surplus of its type. -/
theorem rejectsWithin_read (payload : Payload) : RejectsWithin (payload.Surplus c) payload.read c := by
  cases payload with
  | lit => exact rejectsWithin_literal.bind_pure _
  | expr => exact Expr.rejectsWithin_read.bind_pure _
  | type => exact (TypeExpr.rejectsWithin_read.mono fun p surplus => ⟨c, .type c, surplus⟩).bind_pure _
  | ident => exact rejectsWithin_ident.bind_pure _
  | identPatType =>
      refine (rejectsWithin_typedName.mono ?_).bind_pure _
      rintro p ⟨d, inFront, surplus⟩
      exact ⟨d, .identPatType inFront, surplus⟩
  | identTypeMaybeDefault =>
      refine (rejectsWithin_typedName.mono ?_).bind fun _ d _ => (rejectsWithin_exprBehind _).bind_pure _
      rintro p ⟨d, inFront, surplus⟩
      exact ⟨d, .identTypeMaybeDefault inFront, surplus⟩
  | fieldValue => exact rejectsWithin_ident.bind fun i d _ => (rejectsWithin_exprBehind _).bind_pure _

theorem rejects_typedName (inFront : NamedTypeAt c d) (surplus : TypeExpr.Surplus d p) :
    Rejects .unexpectedToken p typedName c := by
  obtain ⟨i, e, colon, isName, inColon⟩ := inFront
  refine rejects_bind_of_ok isName (rejects_bind_of_ok (expect_eq_ok_iff.2 ⟨colon.2, inColon⟩) ?_)
  exact surplus.rejects.bind

theorem Surplus.rejects (surplus : payload.Surplus c p) : Rejects .unexpectedToken p payload.read c := by
  obtain ⟨d, typeAt, surplus⟩ := surplus
  cases typeAt with
  | type => exact surplus.rejects.bind
  | identPatType inFront => exact (rejects_typedName inFront surplus).bind
  | identTypeMaybeDefault inFront => exact (rejects_typedName inFront surplus).bind

end Rejected

end Payload

/-! ## Attributes -/

namespace Shape

variable {γ : Type}

/-- Whether a tree behind a keyword opens what belongs to it. -/
def opens : Shape γ → Tree → Bool
  | void, _ => false
  | value _, tree => tree.isGroup .paren || tree.isKind .equals
  | list _, tree => tree.isGroup .paren
  | enclosed _ _, tree => tree.isGroup .paren || tree.isGroup .brace

/-- The kind of the error for another tree behind a keyword. -/
def otherKind : Shape γ → ErrorKind
  | enclosed _ _ => .ambiguousBracket
  | _ => .wrongDelimiter

/-- What is wrong if nothing behind a keyword opens what belongs to it. -/
def unopened (keyword : String) : Shape γ → Found → Problem
  | enclosed _ _ => .noneOf [.group .paren, .group .brace]
  | list _ => .noPayload .items keyword
  | _ => .noPayload .value keyword

/-- Whether a tree behind a keyword holds items of a payload, which are ahead of a cursor. -/
inductive HoldsItems : Shape γ → Tree → γ → Cursor → Prop where
  | list (item : γ) (opening closing : Position) (inner : List Tree) :
      HoldsItems (.list item) (.group .paren opening closing inner) item (.ofTrees inner closing)
  | parens (item other : γ) (opening closing : Position) (inner : List Tree) :
      HoldsItems (.enclosed item other) (.group .paren opening closing inner) item (.ofTrees inner closing)
  | braces (other item : γ) (opening closing : Position) (inner : List Tree) :
      HoldsItems (.enclosed other item) (.group .brace opening closing inner) item (.ofTrees inner closing)

end Shape

namespace Attribute

section Behind

variable {γ α : Type} {readItem : γ → Reader α} {n : Node γ} {c : Cursor} {t : Token} {later behind inner : List Tree}
  {opening closing : Position} {failure : Failure}

/-- How an attribute fails behind its keyword: nothing there opens what belongs to it, or what is opened fails. -/
inductive FailsBehind (readItem : γ → Reader α) (n : Node γ) (c : Cursor) : Failure → Prop where
  | unopened (needs : n.shape ≠ .void)
      (notOpened : ∀ tree later, c.rest = tree :: later → n.shape.opens tree = false) :
      FailsBehind readItem n c (.rejected (c.error (if c.isAbsent then .missingPayload else n.shape.otherKind)
        (n.shape.unopened n.keyword c.found)))
  | inParens {payload : γ} {opening closing : Position} {inner later : List Tree} {failure : Failure}
      (isValue : n.shape = .value payload) (rest : c.rest = .group .paren opening closing inner :: later)
      (fails : outcome (whole (readItem payload)) (.ofTrees inner closing) = .error failure) :
      FailsBehind readItem n c failure
  | behindEquals {payload : γ} {equals : Token} {later : List Tree} {failure : Failure}
      (isValue : n.shape = .value payload) (rest : c.rest = .token equals :: later) (isEquals : equals.kind = .equals)
      (fails : outcome (readItem payload) (c.skip 1) = .error failure) : FailsBehind readItem n c failure
  | inItems {item : γ} {tree : Tree} {inner : Cursor} {later : List Tree} {failure : Failure}
      (rest : c.rest = tree :: later) (holds : n.shape.HoldsItems tree item inner)
      (fails : outcome (terminated (readItem item)) inner = .error failure) : FailsBehind readItem n c failure

section Shapes

variable {keyword : String} {payload item other : γ} (rest : c.rest = .token t :: later) (isWord : t.isWord keyword)

include rest isWord

theorem outcome_readVoid :
    outcome (readVoid keyword : Reader (Attribute α)) c = .ok ⟨keyword, t.position, .void⟩ := by
  rw [readVoid, outcome_bind_of_ok (readKeyword_of_word rest isWord)]
  rfl

theorem outcome_readValue_parens (inParens : (c.skip 1).rest = .group .paren opening closing inner :: behind) :
    outcome (readValue keyword (readItem payload)) c = .error failure ↔
      outcome (whole (readItem payload)) (.ofTrees inner closing) = .error failure := by
  rw [readValue, outcome_bind_of_ok (readKeyword_of_word rest isWord), outcome_group_bind inParens]
  exact outcome_bind_pure_eq_error_iff.trans (by rw [outcome_inside])

theorem outcome_readValue_equals {equals : Token} (inEquals : (c.skip 1).rest = .token equals :: behind)
    (isEquals : equals.kind = .equals) : outcome (readValue keyword (readItem payload)) c = .error failure ↔
      outcome (readItem payload) ((c.skip 1).skip 1) = .error failure := by
  have noGroup : ∀ tree later, (c.skip 1).rest = tree :: later → tree.isGroup .paren = false := by
    intro tree later rest'
    obtain ⟨rfl, -⟩ := List.cons.inj (inEquals.symm.trans rest')
    rfl
  have reads : outcome (readValue keyword (readItem payload)) c =
      outcome (readItem payload >>= fun v => pure ⟨keyword, t.position, .value v⟩) ((c.skip 1).skip 1) := by
    rw [readValue, outcome_bind_of_ok (readKeyword_of_word rest isWord), outcome_noGroup_bind noGroup]
    exact outcome_bind_of_ok (isEquals ▸ token?_of_kind inEquals)
  rw [reads, outcome_bind_pure_eq_error_iff]

theorem outcome_readValue_other
    (notOpened : ∀ tree later, (c.skip 1).rest = tree :: later → (Shape.value payload).opens tree = false) :
    outcome (readValue keyword (readItem payload)) c =
      .error (.rejected ((c.skip 1).error (if (c.skip 1).isAbsent then .missingPayload else .wrongDelimiter)
        (.noPayload .value keyword (c.skip 1).found))) := by
  have noGroup : ∀ tree later, (c.skip 1).rest = tree :: later → tree.isGroup .paren = false :=
    fun tree later rest' => (Bool.or_eq_false_iff.1 (notOpened tree later rest')).1
  have noEquals : ∀ t later, (c.skip 1).rest = .token t :: later → t.kind ≠ .equals := fun t later rest' => by
    simpa [Shape.opens, Tree.isGroup, Tree.isKind] using notOpened _ later rest'
  rw [readValue, outcome_bind_of_ok (readKeyword_of_word rest isWord), outcome_noGroup_bind noGroup]
  exact outcome_bind_of_ok (token?_of_other noEquals)

theorem outcome_readList_parens (inParens : (c.skip 1).rest = .group .paren opening closing inner :: behind) :
    outcome (readList keyword (terminated (readItem item))) c = .error failure ↔
      outcome (terminated (readItem item)) (.ofTrees inner closing) = .error failure := by
  rw [readList, outcome_bind_of_ok (readKeyword_of_word rest isWord), outcome_group_bind inParens]
  exact outcome_bind_pure_eq_error_iff.trans (by rw [outcome_inside])

theorem outcome_readList_other
    (notOpened : ∀ tree later, (c.skip 1).rest = tree :: later → (Shape.list item).opens tree = false) :
    outcome (readList keyword (terminated (readItem item))) c =
      .error (.rejected ((c.skip 1).error (if (c.skip 1).isAbsent then .missingPayload else .wrongDelimiter)
        (.noPayload .items keyword (c.skip 1).found))) := by
  rw [readList, outcome_bind_of_ok (readKeyword_of_word rest isWord), outcome_noGroup_bind notOpened]
  rfl

theorem outcome_readEnclosed_parens (inParens : (c.skip 1).rest = .group .paren opening closing inner :: behind) :
    outcome (readEnclosed keyword (terminated (readItem item)) (terminated (readItem other))) c = .error failure ↔
      outcome (terminated (readItem item)) (.ofTrees inner closing) = .error failure := by
  rw [readEnclosed, outcome_bind_of_ok (readKeyword_of_word rest isWord), outcome_group_bind inParens]
  exact outcome_bind_pure_eq_error_iff.trans (by rw [outcome_inside])

theorem outcome_readEnclosed_braces (inBraces : (c.skip 1).rest = .group .brace opening closing inner :: behind) :
    outcome (readEnclosed keyword (terminated (readItem item)) (terminated (readItem other))) c = .error failure ↔
      outcome (terminated (readItem other)) (.ofTrees inner closing) = .error failure := by
  have noParens : ∀ tree later, (c.skip 1).rest = tree :: later → tree.isGroup .paren = false := by
    intro tree later rest'
    obtain ⟨rfl, -⟩ := List.cons.inj (inBraces.symm.trans rest')
    rfl
  have reads : outcome (readEnclosed keyword (terminated (readItem item)) (terminated (readItem other))) c =
      outcome (inside (.ofTrees inner closing) (terminated (readItem other)) >>= fun items =>
        pure ⟨keyword, t.position, .enclosed .brace items⟩) ((c.skip 1).skip 1) := by
    rw [readEnclosed, outcome_bind_of_ok (readKeyword_of_word rest isWord), outcome_noGroup_bind noParens]
    exact outcome_group_bind inBraces
  rw [reads, outcome_bind_pure_eq_error_iff, outcome_inside]

theorem outcome_readEnclosed_other
    (notOpened : ∀ tree later, (c.skip 1).rest = tree :: later → (Shape.enclosed item other).opens tree = false) :
    outcome (readEnclosed keyword (terminated (readItem item)) (terminated (readItem other))) c =
      .error (.rejected ((c.skip 1).lookaheadError [.group .paren, .group .brace])) := by
  have noParens : ∀ tree later, (c.skip 1).rest = tree :: later → tree.isGroup .paren = false :=
    fun tree later rest' => (Bool.or_eq_false_iff.1 (notOpened tree later rest')).1
  have noBraces : ∀ tree later, (c.skip 1).rest = tree :: later → tree.isGroup .brace = false :=
    fun tree later rest' => (Bool.or_eq_false_iff.1 (notOpened tree later rest')).2
  rw [readEnclosed, outcome_bind_of_ok (readKeyword_of_word rest isWord), outcome_noGroup_bind noParens]
  exact outcome_noGroup_bind noBraces

end Shapes

theorem outcome_read_other (rest : c.rest = .token t :: later) (isWord : t.isWord n.keyword) (needs : n.shape ≠ .void)
    (notOpened : ∀ tree later, (c.skip 1).rest = tree :: later → n.shape.opens tree = false) :
    outcome (read readItem n) c =
      .error (.rejected ((c.skip 1).error (if (c.skip 1).isAbsent then .missingPayload else n.shape.otherKind)
        (n.shape.unopened n.keyword (c.skip 1).found))) := by
  obtain ⟨keyword, shape⟩ := n
  cases shape with
  | void => exact absurd rfl needs
  | value payload => exact outcome_readValue_other rest isWord notOpened
  | list item => exact outcome_readList_other rest isWord notOpened
  | enclosed item other => exact outcome_readEnclosed_other rest isWord notOpened

theorem failsBehind_of_opened (rest : c.rest = .token t :: later) (isWord : t.isWord n.keyword) {tree : Tree}
    (isBehind : (c.skip 1).rest = tree :: behind) (opens : n.shape.opens tree)
    (fails : outcome (read readItem n) c = .error failure) : FailsBehind readItem n (c.skip 1) failure := by
  obtain ⟨keyword, shape⟩ := n
  cases shape with
  | void => cases opens
  | value payload =>
      rcases Bool.or_eq_true_iff.1 opens with isParens | isEquals
      · obtain ⟨opening, closing, inner, rfl⟩ := Tree.exists_of_isGroup isParens
        exact .inParens rfl isBehind ((outcome_readValue_parens rest isWord isBehind).1 fails)
      · obtain ⟨equals, rfl, isKind⟩ := Tree.exists_of_isKind isEquals
        exact .behindEquals rfl isBehind isKind ((outcome_readValue_equals rest isWord isBehind isKind).1 fails)
  | list item =>
      obtain ⟨opening, closing, inner, rfl⟩ := Tree.exists_of_isGroup opens
      exact .inItems isBehind (.list ..) ((outcome_readList_parens rest isWord isBehind).1 fails)
  | enclosed item other =>
      rcases Bool.or_eq_true_iff.1 opens with isParens | isBraces
      · obtain ⟨opening, closing, inner, rfl⟩ := Tree.exists_of_isGroup isParens
        exact .inItems isBehind (.parens ..) ((outcome_readEnclosed_parens rest isWord isBehind).1 fails)
      · obtain ⟨opening, closing, inner, rfl⟩ := Tree.exists_of_isGroup isBraces
        exact .inItems isBehind (.braces ..) ((outcome_readEnclosed_braces rest isWord isBehind).1 fails)

theorem FailsBehind.outcome_read (rest : c.rest = .token t :: later) (isWord : t.isWord n.keyword)
    (fails : FailsBehind readItem n (c.skip 1) failure) : outcome (read readItem n) c = .error failure := by
  obtain ⟨keyword, shape⟩ := n
  cases fails with
  | unopened needs notOpened => exact outcome_read_other rest isWord needs notOpened
  | inParens isValue isBehind fails =>
      obtain rfl := isValue
      exact (outcome_readValue_parens rest isWord isBehind).2 fails
  | behindEquals isValue isBehind isEquals fails =>
      obtain rfl := isValue
      exact (outcome_readValue_equals rest isWord isBehind isEquals).2 fails
  | inItems isBehind holds fails =>
      cases holds with
      | list => exact (outcome_readList_parens rest isWord isBehind).2 fails
      | parens => exact (outcome_readEnclosed_parens rest isWord isBehind).2 fails
      | braces => exact (outcome_readEnclosed_braces rest isWord isBehind).2 fails

/-- An attribute fails at its keyword exactly as it does behind it. -/
theorem outcome_read_eq_error_iff (rest : c.rest = .token t :: later) (isWord : t.isWord n.keyword) :
    outcome (read readItem n) c = .error failure ↔ FailsBehind readItem n (c.skip 1) failure := by
  refine ⟨fun fails => ?_, fun fails => fails.outcome_read rest isWord⟩
  by_cases opened : ∃ tree behind, (c.skip 1).rest = tree :: behind ∧ n.shape.opens tree
  · obtain ⟨tree, behind, isBehind, opens⟩ := opened
    exact failsBehind_of_opened rest isWord isBehind opens fails
  · have notOpened : ∀ tree behind, (c.skip 1).rest = tree :: behind → n.shape.opens tree = false :=
      fun tree behind isBehind => Bool.eq_false_iff.2 fun opens => opened ⟨tree, behind, isBehind, opens⟩
    have needs : n.shape ≠ .void := by
      intro isVoid
      rw [read, isVoid, outcome_readVoid rest isWord] at fails
      cases fails
    obtain rfl := Except.error.inj ((outcome_read_other rest isWord needs notOpened).symm.trans fails)
    exact .unopened needs notOpened

end Behind

end Attribute

/-! ## Situations behind a keyword -/

theorem Cursor.exists_of_isAbsent_eq_false {c : Cursor} (notAbsent : c.isAbsent = false) :
    ∃ tree later, c.rest = tree :: later ∧ tree.isComma = false := by
  cases rest : c.rest with
  | nil => simp [isAbsent, rest] at notAbsent
  | cons tree later => exact ⟨tree, later, rfl, by simpa [isAbsent, rest] using notAbsent⟩

theorem Shape.opens_eq_false_of_isComma {γ : Type} (shape : Shape γ) {tree : Tree} (isComma : tree.isComma) :
    shape.opens tree = false := by
  obtain ⟨t, rfl, isKind⟩ := Tree.exists_of_isKind isComma
  cases shape <;> simp [opens, Tree.isGroup, Tree.isKind, isKind]

namespace Node

/-- Whether a payload of an attribute is read at a cursor, the first one being behind its keyword. -/
inductive PayloadAt (n : Node Payload) (c : Cursor) : Payload → Cursor → Prop where
  | inParens {payload : Payload} {opening closing : Position} {inner later : List Tree}
      (isValue : n.shape = .value payload) (rest : c.rest = .group .paren opening closing inner :: later) :
      PayloadAt n c payload (.ofTrees inner closing)
  | behindEquals {payload : Payload} {equals : Token} {later : List Tree} (isValue : n.shape = .value payload)
      (rest : c.rest = .token equals :: later) (isEquals : equals.kind = .equals) : PayloadAt n c payload (c.skip 1)
  | item {payload : Payload} {tree : Tree} {inner d : Cursor} {later : List Tree} (rest : c.rest = tree :: later)
      (holds : n.shape.HoldsItems tree payload inner) (item : ItemAt payload.read inner d) (someLeft : d.rest ≠ []) :
      PayloadAt n c payload d

/-- The situations behind the keyword of an attribute that errors of a kind are at a place for. -/
inductive Situation (n : Node Payload) (c : Cursor) : ErrorKind → Position → Prop where
  /-- The trees end or a comma follows, and something belongs to the keyword. -/
  | missing (needs : n.shape ≠ .void) (absent : c.isAbsent) : Situation n c .missingPayload c.position
  /-- Another tree follows that does not open what belongs to the keyword. -/
  | other {tree : Tree} {later : List Tree} (needs : n.shape ≠ .void) (rest : c.rest = tree :: later)
      (notComma : tree.isComma = false) (notOpened : n.shape.opens tree = false) :
      Situation n c n.shape.otherKind tree.position
  /-- A tree is behind a value that is read in parentheses. -/
  | behindValue {payload : Payload} {opening closing : Position} {inner later behind : List Tree} {v : PayloadValue}
      {d : Cursor} {tree : Tree} (isValue : n.shape = .value payload)
      (rest : c.rest = .group .paren opening closing inner :: later)
      (isRead : payload.read (.ofTrees inner closing) = .ok v d) (left : d.rest = tree :: behind) :
      Situation n c .unexpectedToken tree.position
  /-- A tree that is no comma is behind an item of the attribute that is read. -/
  | behindItem {payload : Payload} {opened tree : Tree} {inner d e : Cursor} {later behind : List Tree}
      {v : PayloadValue} (rest : c.rest = opened :: later) (holds : n.shape.HoldsItems opened payload inner)
      (item : ItemAt payload.read inner d) (isRead : payload.read d = .ok v e) (left : e.rest = tree :: behind)
      (notComma : tree.isComma = false) : Situation n c .unexpectedToken tree.position
  /-- A tree is in the brackets of a type behind its element or its length. -/
  | inType {payload : Payload} {d : Cursor} {p : Position} (isPayload : n.PayloadAt c payload d)
      (surplus : payload.Surplus d p) : Situation n c .unexpectedToken p

theorem Situation.kind_ne {n : Node Payload} {c : Cursor} {kind : ErrorKind} {p : Position}
    (situation : n.Situation c kind p) : kind ≠ .malformedItem := by
  cases situation with
  | missing | behindValue | behindItem | inType => decide
  | other => cases n.shape <;> simp [Shape.otherKind]

section Situations

variable {n : Node Payload} {c d : Cursor} {payload : Payload} {kind : ErrorKind} {p : Position} {e : ParseError}

/-- A payload that is rejected has a surplus in its type, or is malformed. -/
theorem PayloadAt.situation (isPayload : n.PayloadAt c payload d)
    (rejects : outcome payload.read d = .error (.rejected e)) : n.Situation c e.kind e.position ∨
      e.kind = .malformedItem ∧
        ∃ payload d, n.PayloadAt c payload d ∧ outcome payload.read d = .error (.rejected e) := by
  rcases payload.rejectsWithin_read e rejects with malformed | ⟨unexpected, surplus⟩
  · exact .inr ⟨malformed, payload, d, isPayload, rejects⟩
  · rw [unexpected]
    exact .inl (.inType isPayload surplus)

/-- An attribute is rejected behind its keyword in a situation that has the kind of the error, or as malformed in a
payload. -/
theorem situation_of_failsBehind (fails : Attribute.FailsBehind Payload.read n c (.rejected e)) :
    n.Situation c e.kind e.position ∨
      e.kind = .malformedItem ∧
        ∃ payload d, n.PayloadAt c payload d ∧ outcome payload.read d = .error (.rejected e) := by
  cases fails with
  | unopened needs notOpened =>
      refine .inl ?_
      cases absent : c.isAbsent with
      | true => exact .missing needs absent
      | false =>
          obtain ⟨tree, later, rest, notComma⟩ := exists_of_isAbsent_eq_false absent
          rw [error_of_rest rest]
          exact .other needs rest notComma (notOpened tree later rest)
  | inParens isValue rest fails =>
      rcases outcome_whole_eq_error_iff.1 fails with rejects | ⟨v, d, isRead, someLeft, isError⟩
      · exact (PayloadAt.inParens isValue rest).situation rejects
      · obtain rfl := Failure.rejected.inj isError
        obtain ⟨tree, behind, left⟩ := List.exists_cons_of_ne_nil someLeft
        rw [error_of_rest left]
        exact .inl (.behindValue isValue rest isRead left)
  | behindEquals isValue rest isEquals fails =>
      exact (PayloadAt.behindEquals isValue rest isEquals).situation fails
  | @inItems payload opened inner later _ rest holds fails =>
      obtain ⟨d, item, someLeft, failsAt⟩ := (outcome_terminated_eq_error_iff payload.walks_read).1 fails
      cases failsAt with
      | item rejects => exact (PayloadAt.item rest holds item someLeft).situation rejects
      | @behind v f tree behind isRead left notComma =>
          rw [error_of_rest left]
          exact .inl (.behindItem rest holds item isRead left notComma)

/-- In each situation an attribute fails behind its keyword, with an error of the kind at the place. -/
theorem Situation.failsBehind (situation : n.Situation c kind p) :
    ∃ problem, Attribute.FailsBehind Payload.read n c (.rejected ⟨kind, problem, p⟩) := by
  cases situation with
  | missing needs absent =>
      have notOpened : ∀ tree later, c.rest = tree :: later → n.shape.opens tree = false := by
        intro tree later rest
        rw [isAbsent, rest] at absent
        exact n.shape.opens_eq_false_of_isComma absent
      have fails : Attribute.FailsBehind Payload.read n c _ := .unopened needs notOpened
      rw [if_pos absent] at fails
      exact ⟨_, fails⟩
  | @other tree later needs rest notComma notOpened =>
      have notAbsent : ¬c.isAbsent := by simp [isAbsent, rest, notComma]
      have notOpened' : ∀ tree later, c.rest = tree :: later → n.shape.opens tree = false := by
        intro tree' later' rest'
        obtain ⟨rfl, -⟩ := List.cons.inj (rest.symm.trans rest')
        exact notOpened
      have fails : Attribute.FailsBehind Payload.read n c _ := .unopened needs notOpened'
      rw [if_neg notAbsent, error_of_rest rest] at fails
      exact ⟨_, fails⟩
  | behindValue isValue rest isRead left =>
      have someLeft := List.ne_nil_of_mem (left ▸ List.mem_cons_self)
      have fails := outcome_whole_eq_error_iff.2 (.inr ⟨_, _, isRead, someLeft, rfl⟩)
      rw [error_of_rest left] at fails
      exact ⟨_, .inParens isValue rest fails⟩
  | @behindItem payload _ tree inner d f _ _ v rest holds item isRead left notComma =>
      have someLeft : d.rest ≠ [] := fun atEnd => payload.isLocal_read.starts isRead (by rw [atEnd]; trivial)
      have failsAt : FailsAt payload.read d _ := .behind isRead left notComma
      rw [error_of_rest left] at failsAt
      have fails := (outcome_terminated_eq_error_iff payload.walks_read).2 ⟨d, item, someLeft, failsAt⟩
      exact ⟨_, .inItems rest holds fails⟩
  | @inType payload d _ isPayload surplus =>
      obtain ⟨problem, rejects⟩ := surplus.rejects
      cases isPayload with
      | inParens isValue rest => exact ⟨problem, .inParens isValue rest (outcome_whole_eq_error_iff.2 (.inl rejects))⟩
      | behindEquals isValue rest isEquals => exact ⟨problem, .behindEquals isValue rest isEquals rejects⟩
      | item rest holds item someLeft =>
          have fails := (outcome_terminated_eq_error_iff payload.walks_read).2 ⟨d, item, someLeft, .item rejects⟩
          exact ⟨problem, .inItems rest holds fails⟩

end Situations

end Node

/-! ## Lists of attributes -/

namespace AttrSet

theorem find?_eq_none_iff {γ : Type} {s : AttrSet γ} {keyword : String} :
    s.find? keyword = none ↔ keyword ∉ s.keywords := by
  simp [find?, keywords]

theorem keyword_of_find? {γ : Type} {s : AttrSet γ} {keyword : String} {n : Node γ}
    (isNode : s.find? keyword = some n) : n.keyword = keyword := by
  simpa using List.find?_some isNode

/-- Whether the reader of a list comes to the keyword of an attribute of the set. -/
def KeywordAt (s : AttrSet Payload) (start : Cursor) (n : Node Payload) (c : Cursor) : Prop :=
  ItemAt s.read start c ∧
    ∃ t later, c.rest = .token t :: later ∧ t.kind = .ident ∧ s.find? t.text = some n

/-- Whether a payload of an attribute is read at a cursor, somewhere in a list. -/
def PayloadAt (s : AttrSet Payload) (start : Cursor) (payload : Payload) (d : Cursor) : Prop :=
  ∃ n c, s.KeywordAt start n c ∧ n.PayloadAt (c.skip 1) payload d

/-- The situations in a list of attributes that errors of a kind are at a place for. -/
inductive Situation (s : AttrSet Payload) (start : Cursor) : ErrorKind → Position → Prop where
  /-- An item starts with a tree that is no keyword of the set. -/
  | unknown {c : Cursor} {tree : Tree} {later : List Tree} (item : ItemAt s.read start c)
      (rest : c.rest = tree :: later) (isUnknown : ∀ t, tree = .token t → t.kind = .ident → t.text ∉ s.keywords) :
      Situation s start .keywordMismatch tree.position
  /-- Behind the keyword of an attribute is such a situation. -/
  | behindKeyword {n : Node Payload} {c : Cursor} {kind : ErrorKind} {p : Position} (isKeyword : s.KeywordAt start n c)
      (situation : n.Situation (c.skip 1) kind p) : Situation s start kind p
  /-- A tree that is no comma is behind an attribute that is read. -/
  | behindAttribute {c d : Cursor} {a : Attribute PayloadValue} {tree : Tree} {later : List Tree}
      (item : ItemAt s.read start c) (isRead : s.read c = .ok a d) (left : d.rest = tree :: later)
      (notComma : tree.isComma = false) : Situation s start .unexpectedToken tree.position

theorem Situation.kind_ne {s : AttrSet Payload} {start : Cursor} {kind : ErrorKind} {p : Position}
    (situation : s.Situation start kind p) : kind ≠ .malformedItem := by
  cases situation with
  | unknown | behindAttribute => decide
  | behindKeyword _ situation => exact situation.kind_ne

section Situations

variable {s : AttrSet Payload} {n : Node Payload} {start c : Cursor} {kind : ErrorKind} {p : Position} {e : ParseError}

theorem KeywordAt.outcome_read_eq_error_iff (isKeyword : s.KeywordAt start n c) {failure : Failure} :
    outcome s.read c = .error failure ↔ Attribute.FailsBehind Payload.read n (c.skip 1) failure := by
  obtain ⟨-, t, later, rest, isIdent, isNode⟩ := isKeyword
  have isWord : t.isWord n.keyword := by simp [Token.isWord, isIdent, keyword_of_find? isNode]
  have reads : s.read c = Attribute.read Payload.read n c :=
    readByKeyword_of_known rest isIdent (by rw [isNode, Option.map_some])
  rw [outcome, reads]
  exact Attribute.outcome_read_eq_error_iff rest isWord

theorem outcome_read_of_unknown {tree : Tree} {later : List Tree} (rest : c.rest = tree :: later)
    (isUnknown : ∀ t, tree = .token t → t.kind = .ident → t.text ∉ s.keywords) :
    outcome s.read c =
      .error (.rejected ⟨.keywordMismatch, .unknownAttribute s.name s.keywords c.found, tree.position⟩) := by
  rw [← error_of_rest rest]
  refine outcome_eq_error_iff.2 ⟨c, readByKeyword_of_unknown fun t later' rest' isIdent => ?_⟩
  obtain ⟨isToken, -⟩ := List.cons.inj (rest.symm.trans rest')
  rw [find?_eq_none_iff.2 (isUnknown t isToken isIdent), Option.map_none]

/-- A list is rejected in a situation that has the kind of the error, or as malformed in a payload. -/
theorem situation_of_terminated (fails : outcome (terminated s.read) start = .error (.rejected e)) :
    s.Situation start e.kind e.position ∨
      e.kind = .malformedItem ∧
        ∃ payload d, s.PayloadAt start payload d ∧ outcome payload.read d = .error (.rejected e) := by
  obtain ⟨c, item, someLeft, failsAt⟩ := (outcome_terminated_eq_error_iff s.walks_read).1 fails
  cases failsAt with
  | @behind a d tree later isRead left notComma =>
      rw [error_of_rest left]
      exact .inl (.behindAttribute item isRead left notComma)
  | item fails =>
      by_cases known : ∃ t later, c.rest = .token t :: later ∧ t.kind = .ident ∧ t.text ∈ s.keywords
      · obtain ⟨t, later, rest, isIdent, isKnown⟩ := known
        obtain ⟨n, isNode⟩ := Option.ne_none_iff_exists'.1 fun none => find?_eq_none_iff.1 none isKnown
        have isKeyword : s.KeywordAt start n c := ⟨item, t, later, rest, isIdent, isNode⟩
        rcases Node.situation_of_failsBehind (isKeyword.outcome_read_eq_error_iff.1 fails) with
          situation | ⟨malformed, payload, d, isPayload, rejects⟩
        · exact .inl (.behindKeyword isKeyword situation)
        · exact .inr ⟨malformed, payload, d, ⟨n, c, isKeyword, isPayload⟩, rejects⟩
      · obtain ⟨tree, later, rest⟩ := List.exists_cons_of_ne_nil someLeft
        have isUnknown : ∀ t, tree = .token t → t.kind = .ident → t.text ∉ s.keywords := by
          rintro t rfl isIdent isKnown
          exact known ⟨t, later, rest, isIdent, isKnown⟩
        rw [outcome_read_of_unknown rest isUnknown] at fails
        obtain rfl := Failure.rejected.inj (Except.error.inj fails)
        exact .inl (.unknown item rest isUnknown)

/-- In each situation a list is rejected, with an error of the kind at the place. -/
theorem Situation.rejects (situation : s.Situation start kind p) :
    Rejects kind p (terminated s.read) start := by
  have failsAt : ∃ problem c,
      ItemAt s.read start c ∧ c.rest ≠ [] ∧ FailsAt s.read c (.rejected ⟨kind, problem, p⟩) := by
    cases situation with
    | unknown item rest isUnknown =>
        exact ⟨_, _, item, by simp [rest], .item (outcome_read_of_unknown rest isUnknown)⟩
    | behindKeyword isKeyword situation =>
        obtain ⟨problem, fails⟩ := situation.failsBehind
        obtain ⟨t, later, rest, -⟩ := isKeyword.2
        exact ⟨problem, _, isKeyword.1, by simp [rest], .item (isKeyword.outcome_read_eq_error_iff.2 fails)⟩
    | @behindAttribute c d a tree later item isRead left notComma =>
        have someLeft : c.rest ≠ [] := fun atEnd => s.isLocal_read.starts isRead (by rw [atEnd]; trivial)
        have fails : FailsAt s.read c _ := .behind isRead left notComma
        rw [error_of_rest left] at fails
        exact ⟨_, c, item, someLeft, fails⟩
  obtain ⟨problem, found⟩ := failsAt
  exact ⟨problem, (outcome_terminated_eq_error_iff s.walks_read).2 found⟩

end Situations

section Sources

variable {s : AttrSet Payload} {source : String} {trees : List Tree} {finish : Position}

theorem parseAttributes_eq_error_iff (areTrees : treesOf source = .ok (trees, finish)) {failure : Failure} :
    parseAttributes (.attrs (s.map .payload)) source = .error (.failure failure) ↔
      outcome (terminated s.read) (.ofTrees trees finish) = .error failure := by
  have plain := (fromSource_of_treesOf areTrees).plain
  rw [parseAttributes_of_trees areTrees, parseTrees_listGrammar plain, map_eq_error_iff, mapError_eq_error_iff]
  constructor
  · rintro ⟨f, fails, same⟩
    obtain rfl := SourceFailure.failure.inj same
    exact map_eq_error_iff.1 fails
  · exact fun fails => ⟨failure, map_eq_error_iff.2 fails, rfl⟩

/-- The error that a source is rejected with has each kind but one exactly in the situations of this kind, at the place
of the error. It is malformed exactly if there is no situation at all, and then a payload is rejected with it. -/
theorem kinds_of_parse {e : ParseError} (areTrees : treesOf source = .ok (trees, finish))
    (fails : parseAttributes (.attrs (s.map .payload)) source = .error (.failure (.rejected e))) :
    (∀ kind ≠ .malformedItem, e.kind = kind ↔ s.Situation (.ofTrees trees finish) kind e.position) ∧
    (e.kind = .malformedItem ↔ ∀ kind p, ¬s.Situation (.ofTrees trees finish) kind p) ∧
    (e.kind = .malformedItem → ∃ payload d, s.PayloadAt (.ofTrees trees finish) payload d ∧
      outcome payload.read d = .error (.rejected e)) := by
  rw [parseAttributes_eq_error_iff areTrees] at fails
  have isKind : ∀ kind p, s.Situation (.ofTrees trees finish) kind p → e.kind = kind := by
    intro kind p situation
    obtain ⟨problem, rejects⟩ := situation.rejects
    obtain rfl := Failure.rejected.inj (Except.error.inj (fails.symm.trans rejects))
    rfl
  have classified := situation_of_terminated fails
  refine ⟨fun kind notMalformed => ⟨?_, isKind kind e.position⟩, ⟨?_, ?_⟩, ?_⟩
  · rintro rfl
    exact classified.resolve_right fun malformed => notMalformed malformed.1
  · intro malformed kind p situation
    exact situation.kind_ne ((isKind kind p situation).symm.trans malformed)
  · intro nowhere
    exact (classified.resolve_left (nowhere e.kind e.position)).1
  · intro malformed
    exact (classified.resolve_left fun situation => situation.kind_ne malformed).2

end Sources

end AttrSet

/-- A set of one attribute, whose value is a type. -/
def typed : AttrSet Payload :=
  ⟨"typed", [⟨"as", .value .type⟩]⟩

/-- A tree behind the element of an array type is unexpected, and no payload is missing. -/
theorem kinds_of_parse_typed :
    parseAttributes (.attrs (typed.map .payload)) "as=[u 3]" =
        .error (.failure (.rejected ⟨.unexpectedToken, .leftover (.token "3"), ⟨1, 7⟩⟩)) ∧
      ∃ trees finish, treesOf "as=[u 3]" = .ok (trees, finish) ∧
        typed.Situation (.ofTrees trees finish) .unexpectedToken ⟨1, 7⟩ ∧
        ¬typed.Situation (.ofTrees trees finish) .missingPayload ⟨1, 7⟩ := by
  have trees : treesOf "as=[u 3]" = .ok
      ([.token ⟨.ident, "as", ⟨1, 1⟩, false⟩, .token ⟨.equals, "=", ⟨1, 3⟩, false⟩,
        .group .bracket ⟨1, 4⟩ ⟨1, 8⟩ [.token ⟨.ident, "u", ⟨1, 5⟩, false⟩, .token ⟨.int, "3", ⟨1, 7⟩, false⟩]],
        ⟨1, 9⟩) := by
    refine treesOf_eq_ok_iff_lexed.2 ⟨?_, by decide⟩
    refine @Lexer.Lexed.token _ [] 'a' ['s', '=', '[', 'u', ' ', '3', ']'] .ident 1 _ rfl (by rfl) ?_
    refine @Lexer.Lexed.token _ [] '=' ['[', 'u', ' ', '3', ']'] .equals 0 _ rfl (by rfl) ?_
    refine @Lexer.Lexed.token _ [] '[' ['u', ' ', '3', ']'] .lbracket 0 _ rfl rfl ?_
    refine @Lexer.Lexed.token _ [] 'u' [' ', '3', ']'] .ident 0 _ rfl (by rfl) ?_
    refine @Lexer.Lexed.token _ [' '] '3' [']'] .int 0 _ rfl (by rfl) ?_
    exact @Lexer.Lexed.token _ [] ']' [] .rbracket 0 _ rfl rfl (.finish rfl)
  have fails : parseAttributes (.attrs (typed.map .payload)) "as=[u 3]" =
      .error (.failure (.rejected ⟨.unexpectedToken, .leftover (.token "3"), ⟨1, 7⟩⟩)) := by
    rw [parseAttributes, Grammar.parse_of_trees trees]
    rfl
  have kinds := (AttrSet.kinds_of_parse trees fails).1
  exact ⟨fails, _, _, trees, (kinds .unexpectedToken (by decide)).1 rfl,
    fun missing => by cases (kinds .missingPayload (by decide)).2 missing⟩

end AttrGrammar
