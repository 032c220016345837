import AttrGrammar.Proofs.Types.Derivation

/-!
Contract: the alternatives of a type, by the tree in front.

Owns:
- the readers of the alternatives, behind the tree that tells which one it is;
- the reader of types as a choice among them;
- the reader of a segment as the readers of its parts;
- the reader of types with their trees.
-/

namespace AttrGrammar

namespace TypeExpr

open Cursor Reader

/-- Behind `&`: a lifetime and `mut`, which can be absent, and a type. -/
def readReference (depth : Nat) (start : Position) : Reader TypeExpr := do
  let lifetime := (← token? .lifetime).map Token.text
  let isMutable ← word? "mut"
  pure (.reference lifetime isMutable (← readAt depth) start)

/-- Behind `*`: what the pointer allows, and a type. -/
def readPointer (depth : Nat) (start : Position) : Reader TypeExpr := do
  let isMutable ← readPointerMode
  pure (.pointer isMutable (← readAt depth) start)

/-- The type that stands in parentheses: the only element, if no comma is behind it, or else a tuple. -/
def parenthesised (elements : List TypeExpr) (commaLast : Bool) (start : Position) : TypeExpr :=
  match elements, commaLast with
  | [only], false => only
  | _, _ => .tuple elements start

theorem Elements.parenthesised_types (elements : Elements) (opening closing : Position) :
    parenthesised elements.types elements.commaLast opening =
      (elements.derivation opening closing).type := by
  rcases elements with _ | only | ⟨first, comma, _ | second | ⟨second, comma', later⟩⟩ <;> rfl

/-- A type in parentheses, or a tuple. -/
def readParens (depth : Nat) (start : Position) (inner : Cursor) : Reader TypeExpr := do
  let read ← inside inner (readElements depth)
  pure (parenthesised read.1 read.2 start)

/-- What stands in brackets: an array or a slice. -/
def readBracketed (depth : Nat) (start : Position) : Reader TypeExpr := do
  let element ← readAt depth
  if (← token? .semi).isSome then
    let length ← whole Expr.read
    pure (.array element length.node start)
  else
    expectEnd
    pure (.slice element start)

/-- A placeholder or a path. -/
def readNamed (depth : Nat) (start : Position) : Reader TypeExpr := do
  if ← word? "_" then pure (.infer start)
  else if ← pathNext then
    let rooted := (← token? .pathSep).isSome
    pure (.path rooted (← readSegments depth) start)
  else fail .malformedItem (.noItem .type)

/-- The generic arguments of a segment, which can be absent. -/
def readGenerics (depth : Nat) : Reader (List GenericArg) := do
  if (← token? .langle).isSome then readArgs depth
  else pure []

/-- What stands behind a segment of a path, given that segment. -/
def readBehindSegment (depth : Nat) (name : String) (args : List GenericArg) :
    Reader (List PathSegment) := do
  if (← token? .pathSep).isSome then
    pure (.mk name args :: (← readSegments depth))
  else pure [.mk name args]

/-- A path is next where `::` or a word that can start a path is in front. -/
theorem pathNext_eq_true_iff {c d : Cursor} :
    pathNext c = .ok true d ↔ d = c ∧ ∃ t later, c.rest = .token t :: later ∧
      (t.kind = .ident ∧ startsPath t.text ∨ t.kind = .pathSep) := by
  obtain ⟨consumed, trees, finish⟩ := c
  constructor
  · intro isRead
    rcases trees with - | ⟨t | _, later⟩
    · cases (EStateM.Result.ok.inj isRead).1
    · obtain ⟨isPath, rfl⟩ := EStateM.Result.ok.inj isRead
      exact ⟨rfl, t, later, rfl, by simpa using isPath⟩
    · cases (EStateM.Result.ok.inj isRead).1
  · rintro ⟨rfl, t, later, rest, isPath⟩
    obtain rfl : trees = .token t :: later := rest
    have isNext : (t.kind = .ident && startsPath t.text || t.kind = .pathSep) = true := by
      simpa using isPath
    exact congrArg (EStateM.Result.ok · _) isNext

/-- The reader of types chooses an alternative by the tree in front. -/
theorem readAt_succ (depth : Nat) (c : Cursor) :
    readAt (depth + 1) c = match c.rest with
      | .token t :: _ =>
          if t.kind = .amp then readReference depth c.position (c.skip 1)
          else if t.kind = .star then readPointer depth c.position (c.skip 1)
          else readNamed depth c.position c
      | .group .paren _ closing inner :: _ =>
          readParens depth c.position (.ofTrees inner closing) (c.skip 1)
      | .group .bracket _ closing inner :: _ =>
          inside (.ofTrees inner closing) (readBracketed depth c.position) (c.skip 1)
      | _ => fail .malformedItem (.noItem .type) c := by
  rcases rest : c.rest with - | ⟨t | ⟨delimiter, opening, closing, inner⟩, later⟩
  · obtain ⟨consumed, _, finish⟩ := c
    obtain rfl := rest
    rfl
  · have noGroup {delimiter : Delimiter} : group? delimiter c = .ok none c :=
      group?_of_other fun opening closing inner later' rest' => by
        rw [rest] at rest'
        cases rest'
    unfold readAt
    refine (bind_of_ok rfl).trans ?_
    dsimp only
    split_ifs with isAmp isStar
    · rw [← isAmp, bind_of_ok (token?_of_kind rest)]
      rfl
    · rw [bind_of_ok (token?_of_kind_ne rest isAmp)]
      refine (bind_of_ok (v := some t) ?_).trans rfl
      rw [← isStar]
      exact token?_of_kind rest
    · rw [bind_of_ok (token?_of_kind_ne rest isAmp)]
      exact (bind_of_ok (token?_of_kind_ne rest isStar)).trans
        ((bind_of_ok noGroup).trans (bind_of_ok noGroup))
  · obtain ⟨consumed, _, finish⟩ := c
    obtain rfl := rest
    cases delimiter with
    | paren =>
        refine congrArg (fun k => (inside (.ofTrees inner closing) (readElements depth) >>= k) _)
          (funext fun read => ?_)
        rcases read with ⟨_ | ⟨first, _ | ⟨second, later⟩⟩, _ | _⟩ <;> rfl
    | brace => rfl
    | bracket => rfl

section Front

variable {depth : Nat} {c d : Cursor} {opening closing : Position} {inner : List Tree}

theorem readAt_token {t : Token} (inFront : c.Takes [.token t] d) :
    readAt (depth + 1) c = if t.kind = .amp then readReference depth t.position d
      else if t.kind = .star then readPointer depth t.position d
      else readNamed depth t.position c := by
  rw [readAt_succ, inFront.rest, inFront.position_eq, inFront.moved]
  rfl

theorem readAt_named {t : Token} {kind : TokenKind} (isKind : t.kind = kind) (notAmp : kind ≠ .amp)
    (notStar : kind ≠ .star) (inFront : c.Takes [.token t] d) :
    readAt (depth + 1) c = readNamed depth t.position c := by
  rw [readAt_token inFront, isKind, if_neg notAmp, if_neg notStar]

theorem readAt_paren (inFront : c.Takes [.group .paren opening closing inner] d) :
    readAt (depth + 1) c = readParens depth opening (.ofTrees inner closing) d := by
  rw [readAt_succ, inFront.rest, inFront.position_eq, inFront.moved]
  rfl

theorem readAt_bracket (inFront : c.Takes [.group .bracket opening closing inner] d) :
    readAt (depth + 1) c = inside (.ofTrees inner closing) (readBracketed depth opening) d := by
  rw [readAt_succ, inFront.rest, inFront.position_eq, inFront.moved]
  rfl

end Front

/-- The reader of segments as the readers of what a segment is, and of what is behind it. -/
theorem readSegments_succ (depth : Nat) :
    readSegments (depth + 1) = (do
      let name ← expect .ident " in type path" .malformedItem
      let args ← readGenerics depth
      readBehindSegment depth name.text args) := by
  unfold readSegments readGenerics
  congr 1
  funext name
  rw [bind_assoc]
  congr 1
  funext left
  cases left <;> rfl

/-! ## Whole types -/

section Whole

variable {c d : Cursor} {t : Spelled TypeExpr}

theorem read_eq (c : Cursor) :
    read c = match readAt (depthBound c) c with
      | .ok node e => .ok ⟨node, e.since c.index⟩ e
      | .error failure e => .error failure e := by
  have spelled : read c =
      (withTrees (readAt (depthBound c)) >>= fun read => pure (Spelled.mk read.1 read.2)) c := rfl
  have withTheirTrees : withTrees (readAt (depthBound c)) c =
      (readAt (depthBound c) >>= fun node => get >>= fun e => pure (node, e.since c.index)) c := rfl
  rw [spelled]
  cases isRead : readAt (depthBound c) c with
  | ok node e => exact bind_of_ok (withTheirTrees.trans (bind_of_ok isRead))
  | error failure e =>
      exact bind_eq_error_iff.2 (.inl (withTheirTrees.trans (bind_eq_error_iff.2 (.inl isRead))))

theorem read_eq_ok_iff :
    read c = .ok t d ↔ readAt (depthBound c) c = .ok t.node d ∧ t.trees = d.since c.index := by
  rw [read_eq]
  constructor
  · intro isRead
    split at isRead
    · rename_i node e isNode
      obtain ⟨rfl, rfl⟩ := EStateM.Result.ok.inj isRead
      exact ⟨isNode, rfl⟩
    · cases isRead
  · rintro ⟨isNode, trees⟩
    simp only [isNode, ← trees]

theorem read_eq_error_iff {failure : Failure} :
    read c = .error failure d ↔ readAt (depthBound c) c = .error failure d := by
  rw [read_eq]
  cases readAt (depthBound c) c with
  | ok node e => exact ⟨nofun, nofun⟩
  | error failure' e =>
      constructor
      · intro same
        obtain ⟨rfl, rfl⟩ := EStateM.Result.error.inj same
        rfl
      · intro same
        obtain ⟨rfl, rfl⟩ := EStateM.Result.error.inj same
        rfl

theorem depthBound_eq (c : Cursor) : depthBound c = 3 * c.weight + 3 :=
  rfl

end Whole

end TypeExpr

end AttrGrammar
