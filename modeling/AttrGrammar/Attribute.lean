import AttrGrammar.Cursor

/-!
Contract: attributes, that is, keywords with what belongs to them.

Owns:
- the four shapes that attributes can have, over grammars for what belongs to the keyword;
- what an attribute holds, over what these grammars yield;
- the readers of the four shapes.

Does not own: which attributes there are.
-/

namespace AttrGrammar

/-- The shapes of attributes: a keyword alone, with a value behind `=` or in parentheses, with a list in
parentheses, or with a list in parentheses or braces. -/
inductive Shape (γ : Type) where
  | void
  | value (payload : γ)
  | list (item : γ)
  | enclosed (parenItem braceItem : γ)
deriving DecidableEq, Repr

namespace Shape

/-- A shape over other grammars. -/
def map {γ δ : Type} (f : γ → δ) : Shape γ → Shape δ
  | void => void
  | value payload => value (f payload)
  | list item => list (f item)
  | enclosed parenItem braceItem => enclosed (f parenItem) (f braceItem)

/-- The name of a shape in the names of nodes. -/
def form {γ : Type} : Shape γ → String
  | void => "MetaVoid"
  | value _ => "MetaValue"
  | list _ => "MetaList"
  | enclosed .. => "MetaEnclosedList"

def params {γ : Type} : Shape γ → List γ
  | void => []
  | value payload => [payload]
  | list item => [item]
  | enclosed parenItem braceItem => [parenItem, braceItem]

end Shape

structure Node (γ : Type) where
  keyword : String
  shape : Shape γ
deriving DecidableEq, Repr

namespace Node

/-- An attribute over other grammars. -/
def map {γ δ : Type} (f : γ → δ) (n : Node γ) : Node δ :=
  ⟨n.keyword, n.shape.map f⟩

/-- The name of a keyword in the names of nodes. -/
def keywordName (keyword : String) : String :=
  "kw_" ++ keyword

/-- The name of a node: its shape with its keyword and the names of its grammars. -/
def name {γ : Type} (nameOf : γ → String) (n : Node γ) : String :=
  n.shape.form ++ "[" ++ ", ".intercalate (keywordName n.keyword :: n.shape.params.map nameOf) ++ "]"

end Node

/-- The brackets that an enclosed list stood in. -/
inductive Enclosure where
  | paren
  | brace
deriving DecidableEq, Repr

/-- What belongs to a keyword. -/
inductive Content (α : Type) where
  | void
  | value (value : α)
  | list (items : List α)
  | enclosed (enclosure : Enclosure) (items : List α)

/-- An attribute: its keyword with its place, and what belongs to it. -/
structure Attribute (α : Type) where
  keyword : String
  position : Position
  content : Content α

namespace Attribute

open Reader

def readKeyword (keyword : String) : Reader Position := do
  let c ← get
  if ← word? keyword then pure c.position
  else fail .keywordMismatch (.missing (.keyword keyword) "")

def failPayload {α : Type} (form : PayloadForm) (keyword : String) : Reader α := do
  let c ← get
  fail (if c.isAbsent then .missingPayload else .wrongDelimiter) (.noPayload form keyword)

def readVoid {α : Type} (keyword : String) : Reader (Attribute α) := do
  let position ← readKeyword keyword
  pure ⟨keyword, position, .void⟩

/-- Reads a keyword with a value: the value in parentheses takes all of them, and behind `=` as much as it
can. -/
def readValue {α : Type} (keyword : String) (payload : Reader α) : Reader (Attribute α) := do
  let position ← readKeyword keyword
  match ← group? .paren with
  | some (_, inner) => pure ⟨keyword, position, .value (← inside inner (whole payload))⟩
  | none =>
      if (← token? .equals).isSome then pure ⟨keyword, position, .value (← payload)⟩
      else failPayload .value keyword

def readList {α : Type} (keyword : String) (items : Reader (List α)) : Reader (Attribute α) := do
  let position ← readKeyword keyword
  match ← group? .paren with
  | some (_, inner) => pure ⟨keyword, position, .list (← inside inner items)⟩
  | none => failPayload .items keyword

def readEnclosed {α : Type} (keyword : String) (parenItems braceItems : Reader (List α)) :
    Reader (Attribute α) := do
  let position ← readKeyword keyword
  match ← group? .paren with
  | some (_, inner) => pure ⟨keyword, position, .enclosed .paren (← inside inner parenItems)⟩
  | none =>
      match ← group? .brace with
      | some (_, inner) => pure ⟨keyword, position, .enclosed .brace (← inside inner braceItems)⟩
      | none => reject ((← get).lookaheadError [.group .paren, .group .brace])

end Attribute

/-- The places of each keyword among attributes, the keywords in the order in which they first appear. -/
def keywordPositions {α : Type} (attributes : List (Attribute α)) :
    List (String × List Position) :=
  let keywords := (attributes.map Attribute.keyword).eraseDups
  keywords.map fun keyword =>
    (keyword, (attributes.filter fun a => a.keyword = keyword).map Attribute.position)

end AttrGrammar
