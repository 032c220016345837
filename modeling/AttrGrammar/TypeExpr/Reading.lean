import AttrGrammar.Cursor.Words
import AttrGrammar.Expr.Reading
import AttrGrammar.TypeExpr

/-!
Contract: types read from trees.

Owns:
- the readers of references, pointers, tuples, arrays, slices, placeholders and paths;
- the readers of generic arguments, which close one `>` at a time, so that `>>` closes two lists.

The readers call each other once for every part of a type. Of three nested calls one consumes a tree, so the
weight of the trees bounds the depth of the calls.
-/

namespace AttrGrammar

namespace TypeExpr

open Reader

def startsPath (word : String) : Bool :=
  word ∉ reservedWords || word ∈ pathWords

def pathNext : Reader Bool := do
  match (← get).rest with
  | .token t :: _ => pure ((t.kind = .ident && startsPath t.text) || t.kind = .pathSep)
  | _ => pure false

/-- Reads what a pointer allows: `mut`, or `const`. -/
def readPointerMode : Reader Bool := do
  if ← word? "mut" then pure true
  else if ← word? "const" then pure false
  else fail .malformedItem .noPointerMode

mutual

/-- Reads a type, with calls of bounded depth. -/
def readAt : Nat → Reader TypeExpr
  | 0 => fail .malformedItem (.noItem .type)
  | depth + 1 => do
      let start := (← get).position
      if (← token? .amp).isSome then
        let lifetime := (← token? .lifetime).map Token.text
        let isMutable ← word? "mut"
        pure (.reference lifetime isMutable (← readAt depth) start)
      else if (← token? .star).isSome then
        let isMutable ← readPointerMode
        pure (.pointer isMutable (← readAt depth) start)
      else
        match ← group? .paren with
        | some (_, inner) =>
            let (elements, commaLast) ← inside inner (readElements depth)
            match elements, commaLast with
            | [only], false => pure only
            | _, _ => pure (.tuple elements start)
        | none =>
            match ← group? .bracket with
            | some (_, inner) =>
                inside inner do
                  let element ← readAt depth
                  if (← token? .semi).isSome then
                    let length ← whole Expr.read
                    pure (.array element length.node start)
                  else
                    expectEnd
                    pure (.slice element start)
            | none =>
                if ← word? "_" then pure (.infer start)
                else if ← pathNext then
                  let rooted := (← token? .pathSep).isSome
                  pure (.path rooted (← readSegments depth) start)
                else fail .malformedItem (.noItem .type)

/-- Reads the elements of a tuple type up to the end, and tells whether a comma stands behind the last. -/
def readElements : Nat → Reader (List TypeExpr × Bool)
  | 0 => pure ([], false)
  | depth + 1 => do
      if (← get).isEmpty then pure ([], true)
      else
        let first ← readAt depth
        if (← get).isEmpty then pure ([first], false)
        else
          let _ ← expect .comma " in tuple type" .malformedItem
          let (later, commaLast) ← readElements depth
          pure (first :: later, commaLast)

def readSegments : Nat → Reader (List PathSegment)
  | 0 => pure []
  | depth + 1 => do
      let name ← expect .ident " in type path" .malformedItem
      let args ←
        if (← token? .langle).isSome then readArgs depth
        else pure []
      if (← token? .pathSep).isSome then
        pure (.mk name.text args :: (← readSegments depth))
      else pure [.mk name.text args]

/-- Reads generic arguments up to the closing `>`, which is consumed. -/
def readArgs : Nat → Reader (List GenericArg)
  | 0 => pure []
  | depth + 1 => do
      if (← token? .rangle).isSome then pure []
      else
        let first ← readArg depth
        if (← token? .comma).isSome then
          pure (first :: (← readArgs depth))
        else
          let _ ← expect .rangle " to close generic arguments" .malformedItem
          pure [first]

def readArg : Nat → Reader GenericArg
  | 0 => fail .malformedItem (.noItem .type)
  | depth + 1 => do
      match ← token? .lifetime with
      | some t => pure (.lifetime t.text)
      | none =>
          match ← literal? with
          | some read => pure (.literal read.literal read.token.position)
          | none => pure (.type (← readAt depth))

end

/-- A bound for the depth of the calls that read a type at a cursor. -/
def depthBound (c : Cursor) : Nat :=
  3 * Tree.weightAll c.rest + 3

def read : Reader (Spelled TypeExpr) := do
  let bound := depthBound (← get)
  let (node, trees) ← withTrees (readAt bound)
  pure ⟨node, trees⟩

end TypeExpr

end AttrGrammar
