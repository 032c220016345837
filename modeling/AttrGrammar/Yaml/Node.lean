import AttrGrammar.Yaml.Lexer

/-!
Contract: from the tokens of a YAML text to its one node.

Owns:
- nodes: scalars, sequences and mappings;
- the nesting of collections, each built when it closes, from the marks and nodes within it;
- what may stand in a collection of each kind, and around the node of a document.

Within a collection every mark starts a section: a list is its items, a mapping its keys and values.
-/

namespace AttrGrammar.Yaml

/-- A node. A scalar is plain if it stands without quotes. -/
inductive Node where
  | scalar (plain : Bool) (text : String)
  | sequence (items : List Node)
  | mapping (entries : List (Node × Node))

namespace Node

/-- The node that is left out: what is not written is null. -/
def absent : Node :=
  scalar true ""

/-- What a collection holds while it is read. -/
inductive Part where
  | mark (m : Mark)
  | node (n : Node)

/-- A mark with the parts behind it up to the next one. -/
structure Section where
  mark : Mark
  parts : List Part

/-- Parts cut before each of the marks that are asked for: what stands in front of the first one, and the
sections. -/
def sections (starts : Mark → Bool) : List Part → List Part × List Section
  | [] => ([], [])
  | part :: later =>
      let (lead, behind) := sections starts later
      match part with
      | .mark m => if starts m then ([], ⟨m, lead⟩ :: behind) else (part :: lead, behind)
      | .node _ => (part :: lead, behind)

/-- At most one node. -/
def optional? : List Part → Option Node
  | [] => some absent
  | [.node n] => some n
  | _ => none

/-- The items of a block, each behind its mark. -/
def items? (parts : List Part) : Option (List Node) :=
  match sections (· = .entry) parts with
  | ([], entries) => entries.mapM fun entry => optional? entry.parts
  | _ => none

/-- A key or a value in a block: at most one node, or items that are not indented. -/
def slot? (parts : List Part) : Option Node :=
  match parts with
  | .mark .entry :: _ => (items? parts).map sequence
  | _ => optional? parts

/-- The entries of a mapping, given how a key or a value is read. A value needs its key. -/
def entries? (read? : List Part → Option Node) : List Section → Option (List (Node × Node))
  | [] => some []
  | ⟨.key, key⟩ :: ⟨.value, value⟩ :: later => do
      let entry := (← read? key, ← read? value)
      pure (entry :: (← entries? read? later))
  | ⟨.key, key⟩ :: later => do
      let entry := (← read? key, absent)
      pure (entry :: (← entries? read? later))
  | _ => none

/-- The entries that are written with marks for keys and values, and nothing in front of them. -/
def marked? (read? : List Part → Option Node) (parts : List Part) : Option (List (Node × Node)) :=
  match sections (fun m => m = .key || m = .value) parts with
  | ([], found) => entries? read? found
  | _ => none

/-- The one entry with a mark for its key within brackets. -/
def pair? (parts : List Part) : Option (Node × Node) :=
  match marked? optional? parts with
  | some [entry] => some entry
  | _ => none

/-- What stands between commas. Nothing may stand behind the last one. -/
def betweenCommas? (parts : List Part) : Option (List (List Part)) :=
  let (first, others) := sections (· = .comma) parts
  let all := first :: others.map Section.parts
  let written := if all.getLast?.any List.isEmpty then all.dropLast else all
  if written.any List.isEmpty then none else some written

/-- An item within brackets: a node, or an entry that is a mapping by itself. -/
def bracketItem? : List Part → Option Node
  | [.node n] => some n
  | parts => (pair? parts).map fun entry => mapping [entry]

/-- An entry within braces: a key alone has no value. -/
def braceEntry? : List Part → Option (Node × Node)
  | [.node n] => some (n, absent)
  | parts => pair? parts

/-- The collection that was opened and holds some parts. -/
def collection? (opening : Opening) (parts : List Part) : Option Node :=
  match opening with
  | .blockSequence => (items? parts).map sequence
  | .blockMapping => (marked? slot? parts).map mapping
  | .flowSequence => do
      let between ← betweenCommas? parts
      pure (sequence (← between.mapM bracketItem?))
  | .flowMapping => do
      let between ← betweenCommas? parts
      pure (mapping (← between.mapM braceEntry?))

/-- A collection that is open: what opened it, and the parts around it, the last first. -/
structure Open where
  opening : Opening
  before : List Part

/-- The parts outside of all collections. `within` are the parts of the innermost open one, the last first. -/
def partsFrom (opened : List Open) (within : List Part) : List Token → Option (List Part)
  | [] => if opened.isEmpty then some within.reverse else none
  | .scalar plain text :: later => partsFrom opened (.node (scalar plain text) :: within) later
  | .mark m :: later => partsFrom opened (.mark m :: within) later
  | .opening o :: later => partsFrom (⟨o, within⟩ :: opened) [] later
  | .closing c :: later =>
      match opened with
      | [] => none
      | innermost :: outer =>
          if innermost.opening.closing = c then do
            let n ← collection? innermost.opening within.reverse
            partsFrom outer (.node n :: innermost.before) later
          else none

/-- Whether nothing but ends of documents follows. -/
def isEnd (parts : List Part) : Bool :=
  parts.all fun
    | .mark .documentEnd => true
    | _ => false

/-- The node of a document whose start is not to be marked any more. -/
def document? : List Part → Option Node
  | .node n :: later => if isEnd later then some n else none
  | parts => if isEnd parts then some absent else none

/-- The node of a text with one document at most. A document that is not marked at its start is not empty, and a
text without a document has an absent node. -/
def ofTokens? (tokens : List Token) : Option Node := do
  match ← partsFrom [] [] tokens with
  | .mark .documentStart :: later => document? later
  | .mark _ :: _ => none
  | parts => document? parts

end Node

end AttrGrammar.Yaml
