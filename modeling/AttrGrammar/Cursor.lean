import AttrGrammar.Error

/-!
Contract: a cursor over one level of trees, and readers that move it.

Owns:
- the cursor, with what was consumed and what is left;
- looking at trees, and consuming one tree, one token or one group;
- the trees consumed since a mark;
- lists of items that are separated by commas.

A reader that fails still says where it left the cursor. The trees inside a group are read by a cursor of
their own, so that failing inside a group leaves the outer cursor behind the group.
-/

namespace AttrGrammar

/-- A cursor: the trees that were consumed, the latest first, the trees that are left, and the place where
they end. -/
structure Cursor where
  consumed : List Tree
  rest : List Tree
  finish : Position

namespace Cursor

/-- The cursor in front of trees that end at a place. -/
def ofTrees (trees : List Tree) (finish : Position) : Cursor :=
  ⟨[], trees, finish⟩

/-- All trees of the level, consumed or not. -/
def trees (c : Cursor) : List Tree :=
  c.consumed.reverse ++ c.rest

/-- How many trees were consumed. -/
def index (c : Cursor) : Nat :=
  c.consumed.length

/-- Whether all trees were consumed. -/
def isEmpty (c : Cursor) : Bool :=
  c.rest.isEmpty

def current? (c : Cursor) (offset : Nat := 0) : Option Tree :=
  c.rest[offset]?

/-- The place of the next tree, or of the end. -/
def position (c : Cursor) : Position :=
  match c.rest with
  | [] => c.finish
  | tree :: _ => tree.position

def found (c : Cursor) : Found :=
  .ofTree? c.current?

/-- Whether the next tree is missing: the input ends, or a comma follows. -/
def isAbsent (c : Cursor) : Bool :=
  match c.rest with
  | [] => true
  | tree :: _ => tree.isComma

/-- Whether the tree that is some trees ahead is as asked for. -/
def peek (c : Cursor) (wanted : Pattern) (offset : Nat := 0) : Bool :=
  (c.current? offset).any wanted.holds

/-- The trees consumed since the index was at a mark. -/
def since (c : Cursor) (mark : Nat) : List Tree :=
  (c.consumed.take (c.index - mark)).reverse

/-- The cursor after consuming some trees. -/
def skip (c : Cursor) (count : Nat) : Cursor :=
  ⟨(c.rest.take count).reverse ++ c.consumed, c.rest.drop count, c.finish⟩

@[simp] theorem trees_skip (c : Cursor) (count : Nat) : (c.skip count).trees = c.trees := by
  simp [trees, skip]

def error (c : Cursor) (kind : ErrorKind) (problem : Problem) : ParseError :=
  ⟨kind, problem, c.position⟩

/-- The error for a group that was required at the cursor. -/
def groupError (c : Cursor) (delimiter : Delimiter) (context : String) : ParseError :=
  c.error (if c.isAbsent then .missingPayload else .wrongDelimiter)
    (.missing (.group delimiter) context c.found)

/-- The error when none of several trees was found. A missing tree has a kind of its own. -/
def lookaheadError (c : Cursor) (wanted : List Pattern) (kind : ErrorKind := .ambiguousBracket) :
    ParseError :=
  c.error (if c.isAbsent then .missingPayload else kind) (.noneOf wanted c.found)

end Cursor

/-- A reader moves a cursor and yields a value, or fails. -/
abbrev Reader (α : Type) :=
  EStateM Failure Cursor α

namespace Reader

def reject {α : Type} (e : ParseError) : Reader α :=
  throw (.rejected e)

def fail {α : Type} (kind : ErrorKind) (problem : Found → Problem) : Reader α := do
  let c ← get
  reject (c.error kind (problem c.found))

/-- Whether the next tree is as asked for. -/
def peek (wanted : Pattern) : Reader Bool := do
  pure ((← get).peek wanted)

def advance : Reader Tree := do
  let c ← get
  match c.rest with
  | [] => fail .missingPayload fun _ => .endOfInput
  | tree :: _ =>
      set (c.skip 1)
      pure tree

def token? (kind : TokenKind) : Reader (Option Token) := do
  let c ← get
  match c.rest with
  | .token t :: _ =>
      if t.kind = kind then
        set (c.skip 1)
        pure (some t)
      else pure none
  | _ => pure none

def expect (kind : TokenKind) (context : String := "")
    (errorKind : ErrorKind := .unexpectedToken) : Reader Token := do
  match ← token? kind with
  | some t => pure t
  | none => fail errorKind (.missing (.token kind) context)

/-- Consumes the next tree if it is the given word. -/
def word? (word : String) : Reader Bool := do
  let c ← get
  match c.rest with
  | tree :: _ =>
      if tree.isWord word then
        set (c.skip 1)
        pure true
      else pure false
  | [] => pure false

/-- Consumes a group with given brackets, if it is next: yields its place and the cursor over its trees. -/
def group? (wanted : Delimiter) : Reader (Option (Position × Cursor)) := do
  let c ← get
  match c.rest with
  | .group delimiter opening closing trees :: _ =>
      if delimiter = wanted then
        set (c.skip 1)
        pure (some (opening, .ofTrees trees closing))
      else pure none
  | _ => pure none

/-- Consumes a group with given brackets and yields the cursor over its trees. -/
def openGroup (wanted : Delimiter) (context : String := "") : Reader Cursor := do
  match ← group? wanted with
  | some (_, inner) => pure inner
  | none => reject ((← get).groupError wanted context)

/-- Reads with a cursor of its own. -/
def inside {α : Type} (inner : Cursor) (r : Reader α) : Reader α := fun outer =>
  match r inner with
  | .ok value _ => .ok value outer
  | .error failure _ => .error failure outer

/-- Requires that all trees were consumed. -/
def expectEnd : Reader Unit := do
  if !(← get).isEmpty then fail .unexpectedToken .leftover

/-- Reads, and then requires that all trees were consumed. -/
def whole {α : Type} (r : Reader α) : Reader α := do
  let value ← r
  expectEnd
  pure value

/-- Reads at most so many items up to the end, a comma between them and perhaps behind the last. -/
def itemsUpTo {α : Type} (item : Reader α) : Nat → Reader (List α)
  | 0 => pure []
  | count + 1 => do
      if (← get).isEmpty then pure []
      else
        let first ← item
        if (← get).isEmpty then pure [first]
        else
          let _ ← expect .comma " between items"
          pure (first :: (← itemsUpTo item count))

/-- Reads items up to the end, a comma between them and perhaps behind the last. There are no more items than
trees, since a comma follows each item but the last. -/
def terminated {α : Type} (item : Reader α) : Reader (List α) := do
  itemsUpTo item (← get).rest.length

/-- Reads, and yields the consumed trees beside the value. -/
def withTrees {α : Type} (r : Reader α) : Reader (α × List Tree) := do
  let mark := (← get).index
  let value ← r
  pure (value, (← get).since mark)

end Reader

end AttrGrammar
