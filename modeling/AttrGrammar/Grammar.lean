import AttrGrammar.Attribute
import AttrGrammar.Data
import AttrGrammar.Tree.Grouping
import AttrGrammar.Vocabulary

/-!
Contract: grammars for attributes, and what they yield.

Owns:
- the grammars: payloads, keywords, attributes, lists and sets, nested at will;
- their results, with the trees that these are spliced as and with their equality;
- reading trees by a grammar, and reading whole sources;
- reading attribute lists by a set.
-/

namespace AttrGrammar

/-- The forms of attribute grammars, as they are before they get a keyword and payloads. -/
inductive NodeForm where
  | void
  | value
  | list
  | enclosed
  | attrList
  | exprValue
  | typeValue
  | litValue
deriving DecidableEq, Repr

namespace NodeForm

def name : NodeForm → String
  | void => "MetaVoid"
  | value => "MetaValue"
  | list => "MetaList"
  | enclosed => "MetaEnclosedList"
  | attrList => "MetaAttrList"
  | exprValue => "MetaExpr"
  | typeValue => "MetaType"
  | litValue => "MetaLit"

def all : List NodeForm :=
  [void, value, list, enclosed, attrList, exprValue, typeValue, litValue]

def ofName? (text : String) : Option NodeForm :=
  all.find? fun form => form.name = text

/-- Why a form cannot be used as it is. The last three are mere abbreviations of values. -/
def misuse (form : NodeForm) : Misuse :=
  match form with
  | exprValue | typeValue | litValue => .abbreviation form.name
  | _ => .unspecialised form.name

end NodeForm

inductive Grammar where
  /-- A payload. -/
  | payload (p : Payload)
  /-- A keyword by itself. -/
  | keyword (ident : String)
  /-- An attribute. -/
  | node (n : Node Grammar)
  /-- A list in parentheses. -/
  | attrList (item : Grammar)
  /-- A list up to the end of the input. -/
  | terminated (item : Grammar)
  /-- One attribute of a set. -/
  | attrs (s : AttrSet Grammar)
  /-- One attribute of a set that needs no definition. -/
  | builtin (b : BuiltinSet)
  /-- A form of attributes without keyword and payloads: it cannot be used. -/
  | bare (form : NodeForm)
  /-- A plain value: it cannot be used. -/
  | foreign (d : Data)

inductive Parsed where
  | payload (p : PayloadValue)
  | keyword (ident : String) (position : Position)
  | attr (a : Attribute Parsed)
  | attrList (items : List Parsed)
  | terminated (items : List Parsed)

namespace Parsed

/-- The trees that a result is spliced as. An attribute with a value is spliced as the value: its keyword and its
brackets are dropped. -/
def splice? : Parsed → Option (List Tree)
  | payload p => p.splice?
  | keyword ident position => some [.token (.word ident position)]
  | attr ⟨_, _, .value v⟩ => v.splice?
  | _ => none

mutual

/-- Equality of results of one grammar. -/
def same : Parsed → Parsed → Bool
  | payload p, payload q => p.same q
  | keyword k _, keyword l _ => k = l
  | attr ⟨k, _, c⟩, attr ⟨l, _, d⟩ => k = l && sameContent c d
  | attrList as, attrList bs => sameAll as bs
  | terminated as, terminated bs => sameAll as bs
  | _, _ => false

/-- Equality of what belongs to keywords. -/
def sameContent : Content Parsed → Content Parsed → Bool
  | .void, .void => true
  | .value a, .value b => same a b
  | .list as, .list bs => sameAll as bs
  | .enclosed e as, .enclosed f bs => e = f && sameAll as bs
  | _, _ => false

/-- Equality of lists of results. -/
def sameAll : List Parsed → List Parsed → Bool
  | [], [] => true
  | a :: as, b :: bs => same a b && sameAll as bs
  | _, _ => false

end

end Parsed

/-- Reads an attribute of a set with payloads, given the reader for the attribute of each keyword. -/
def readByKeyword {α : Type} (set : String) (known : List String)
    (readerOf : String → Option (Reader α)) : Reader α := do
  let c ← get
  let unknown : Reader α := Reader.fail .keywordMismatch (.unknownAttribute set known)
  match c.rest with
  | .token t :: _ => if t.kind = .ident then (readerOf t.text).getD unknown else unknown
  | _ => unknown

namespace Attribute

/-- Reads an attribute of a shape, given how each of its grammars is read. -/
def read {γ α : Type} (readItem : γ → Reader α) (n : Node γ) : Reader (Attribute α) :=
  match n.shape with
  | .void => readVoid n.keyword
  | .value payload => readValue n.keyword (readItem payload)
  | .list item => readList n.keyword (Reader.terminated (readItem item))
  | .enclosed parenItem braceItem =>
      readEnclosed n.keyword (Reader.terminated (readItem parenItem))
        (Reader.terminated (readItem braceItem))

/-- An attribute over other values. -/
def map {α β : Type} (f : α → β) (a : Attribute α) : Attribute β :=
  ⟨a.keyword, a.position,
    match a.content with
    | .void => .void
    | .value value => .value (f value)
    | .list items => .list (items.map f)
    | .enclosed enclosure items => .enclosed enclosure (items.map f)⟩

end Attribute

def AttrSet.read (s : AttrSet Payload) : Reader (Attribute PayloadValue) :=
  readByKeyword s.name s.keywords fun keyword => (s.find? keyword).map (Attribute.read Payload.read)

namespace Grammar

/-- Why a grammar cannot even be asked to read, if so. -/
def misuse? : Grammar → Option Misuse
  | foreign d => some (.notGrammar d.shown)
  | _ => none

/-- Reads a list up to the end by the reader of a grammar, which has to be one even for an empty list. -/
def readItems (item : Grammar) (read : Reader Parsed) : Reader (List Parsed) :=
  match item.misuse? with
  | some m => throw (.unusable m)
  | none => Reader.terminated read

mutual

def read : Grammar → Reader Parsed
  | payload p => do pure (.payload (← p.read))
  | keyword ident => do pure (.keyword ident (← Attribute.readKeyword ident))
  | node n => readNode n
  | attrList item => do
      let inner ← Reader.openGroup .paren
      pure (.attrList (← Reader.inside inner (readItems item (read item))))
  | terminated item => do pure (.terminated (← readItems item (read item)))
  | attrs s => readSet s
  | builtin b => do pure (.attr ((← b.set.read).map .payload))
  | bare form => throw (.unusable form.misuse)
  | foreign d => throw (.unusable (.notGrammar d.shown))

def readNode : Node Grammar → Reader Parsed
  | ⟨ident, shape⟩ => do pure (.attr (← readShape ident shape))

def readShape (ident : String) : Shape Grammar → Reader (Attribute Parsed)
  | .void => Attribute.readVoid ident
  | .value content => Attribute.readValue ident (read content)
  | .list item => Attribute.readList ident (readItems item (read item))
  | .enclosed parenItem braceItem =>
      Attribute.readEnclosed ident (readItems parenItem (read parenItem))
        (readItems braceItem (read braceItem))

def readSet : AttrSet Grammar → Reader Parsed
  | ⟨set, nodes⟩ => readByKeyword set (nodes.map Node.keyword) (readerOf? nodes)

/-- The reader for the attribute with a keyword among some nodes. -/
def readerOf? : List (Node Grammar) → String → Option (Reader Parsed)
  | [], _ => none
  | n :: later, wanted => if n.keyword = wanted then some (readNode n) else readerOf? later wanted

end

mutual

/-- The name of a grammar in the names of nodes. -/
def name : Grammar → String
  | payload p => p.name
  | keyword ident => Node.keywordName ident
  | node n => nodeName n
  | attrList item => "MetaAttrList[" ++ name item ++ "]"
  | terminated _ => "<lambda>"
  | attrs s => s.shown
  | builtin b => b.set.shown
  | bare form => form.name
  | foreign d => d.shown

def nodeName : Node Grammar → String
  | ⟨ident, shape⟩ =>
      shape.form ++ "[" ++ ", ".intercalate (Node.keywordName ident :: shapeNames shape) ++ "]"

def shapeNames : Shape Grammar → List String
  | .void => []
  | .value content => [name content]
  | .list item => [name item]
  | .enclosed parenItem braceItem => [name parenItem, name braceItem]

end

mutual

/-- Whether two grammars are one. A list up to the end, and a set that has a definition, are made where they are
used, and none is the same as another. -/
def same : Grammar → Grammar → Bool
  | payload p, payload q => p = q
  | keyword k, keyword l => k = l
  | node m, node n => sameNode m n
  | attrList g, attrList h => same g h
  | builtin b, builtin c => b = c
  | bare f, bare g => f = g
  | _, _ => false

def sameNode : Node Grammar → Node Grammar → Bool
  | ⟨k, s⟩, ⟨l, t⟩ => k = l && sameShape s t

def sameShape : Shape Grammar → Shape Grammar → Bool
  | .void, .void => true
  | .value g, .value h => same g h
  | .list g, .list h => same g h
  | .enclosed g g', .enclosed h h' => same g h && same g' h'
  | _, _ => false

end

/-- The grammar of the attribute that a grammar yielded: a set chose it by the keyword. -/
def chosen (g : Grammar) (ident : String) : Grammar :=
  match g with
  | attrs s => (s.find? ident).elim g node
  | builtin b => (b.set.find? ident).elim g fun n => node (n.map payload)
  | _ => g

/-- Equality of results of two grammars: attributes and lists in parentheses are equal only if they were read by
one grammar. -/
def sameResult : Grammar → Grammar → Parsed → Parsed → Bool
  | terminated g, terminated h, .terminated as, .terminated bs =>
      as.length = bs.length && (as.zip bs).all fun pair => sameResult g h pair.1 pair.2
  | g, h, .attr a, .attr b =>
      same (g.chosen a.keyword) (h.chosen b.keyword) && Parsed.same (.attr a) (.attr b)
  | g, h, .attrList as, .attrList bs => same g h && Parsed.sameAll as bs
  | _, _, a, b => a.same b

/-! ## Whole inputs -/

def parseTrees (g : Grammar) (trees : List Tree) (finish : Position) : Except Failure Parsed :=
  match (Reader.whole g.read) (.ofTrees trees finish) with
  | .ok value _ => .ok value
  | .error failure _ => .error failure

end Grammar

/-- Why a source does not yield a result. -/
inductive SourceFailure where
  /-- It has no trees. -/
  | source (e : SourceError)
  /-- Reading its trees fails. -/
  | failure (f : Failure)
deriving DecidableEq, Repr

namespace Grammar

def parse (g : Grammar) (source : String) : Except SourceFailure Parsed := do
  let (trees, finish) ← (treesOf source).mapError .source
  (g.parseTrees trees finish).mapError .failure

end Grammar

namespace Parsed

/-- The attributes in the result of reading a list of them. -/
def attributes : Parsed → List (Attribute Parsed)
  | attr a => [a]
  | terminated items => items.filterMap fun
      | attr a => some a
      | _ => none
  | _ => []

end Parsed

/-- Reads a source as a list of attributes, by a grammar for one of them. -/
def parseAttributes (attrs : Grammar) (source : String) :
    Except SourceFailure (List (Attribute Parsed)) :=
  (Grammar.parse (.terminated attrs) source).map Parsed.attributes

/-- Reads a source as a list of attributes in parentheses, by a grammar for one of them. -/
def parseAttrList (attrs : Grammar) (source : String) : Except SourceFailure Parsed :=
  Grammar.parse (.attrList attrs) source

end AttrGrammar
