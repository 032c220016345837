import AttrGrammar.Yaml.Scalar

/-!
Contract: from the characters of a YAML text to its tokens.

Owns:
- the tokens: scalars, the brackets, those of blocks included, which the text shows by indentation alone, and the
  marks within brackets and between documents;
- the layout of the text so far: the open brackets, the indentation of the open blocks, and whether a key may
  stand next;
- the tokens that each character starts, and the change of the layout;
- blocks, which open where the indentation grows and close where it shrinks.

A scalar is a key if a colon stands behind it on its line, at most 1024 characters from its start. A scalar where
a block expects its next key has to be one. Anchors, aliases, tags, block scalars and directives are not read.
-/

namespace AttrGrammar.Yaml

/-! ## Tokens -/

/-- What opens a collection. Blocks open where the indentation grows. -/
inductive Opening where
  | blockSequence
  | blockMapping
  | flowSequence
  | flowMapping
deriving DecidableEq, Repr

inductive Closing where
  | block
  | flowSequence
  | flowMapping
deriving DecidableEq, Repr

def Opening.closing : Opening → Closing
  | blockSequence => .block
  | blockMapping => .block
  | flowSequence => .flowSequence
  | flowMapping => .flowMapping

/-- What stands before and between nodes. -/
inductive Mark where
  /-- An item of a block. -/
  | entry
  | key
  | value
  | comma
  | documentStart
  | documentEnd
deriving DecidableEq, Repr

/-- A token. A scalar is plain if it stands without quotes. -/
inductive Token where
  | scalar (plain : Bool) (text : String)
  | opening (o : Opening)
  | closing (c : Closing)
  | mark (m : Mark)
deriving DecidableEq, Repr

/-! ## Layout -/

/-- How many characters at most lie between the start of a key and the colon behind it. -/
def keyLimit : Nat := 1024

/-- The layout of a text up to a place: how many brackets are open, the columns of the open blocks with the
innermost first, and whether a key, or an item of a block, may start here. -/
structure Layout where
  brackets : Nat
  blocks : List Nat
  keyAllowed : Bool
deriving DecidableEq, Repr

namespace Layout

def start : Layout := ⟨0, [], true⟩

/-- Whether no bracket is open. -/
def inBlock (l : Layout) : Bool :=
  l.brackets = 0

/-- The layout with a block at a column, which opens if it is to the right of all that are open. -/
def indent (opening : Opening) (column : Nat) (l : Layout) : List Token × Layout :=
  if l.inBlock && l.blocks.all (· < column) then
    ([.opening opening], { l with blocks := column :: l.blocks })
  else ([], l)

/-- The layout without the blocks to the right of a column, which close. Within brackets none does. -/
def dedent (column : Nat) (l : Layout) : List Token × Layout :=
  if l.inBlock then
    ((l.blocks.takeWhile (column < ·)).map fun _ => .closing .block,
      { l with blocks := l.blocks.dropWhile (column < ·) })
  else ([], l)

/-- The layout at the end of a document: all blocks close. -/
def dedentAll (l : Layout) : List Token × Layout :=
  if l.inBlock then (l.blocks.map fun _ => .closing .block, { l with blocks := [] }) else ([], l)

/-- The layout behind a gap: a line end allows a key, except within brackets. -/
def afterGap (gap : List Spot) (l : Layout) : Layout :=
  if l.inBlock && gap.any Spot.isBreak then { l with keyAllowed := true } else l

/-- Whether what starts at a column has to be a key, because a block expects its next one there. -/
def expectsKey (column : Nat) (l : Layout) : Bool :=
  l.inBlock && l.keyAllowed && l.blocks.head? = some column

/-- The least column of the further lines of a scalar without quotes. -/
def scalarColumn (l : Layout) : Nat :=
  match l.blocks with
  | [] => 0
  | column :: _ => column + 1

end Layout

/-- How many characters a gap takes: spaces, line ends and comments. -/
def gapLength (inComment : Bool) : List Spot → Nat
  | [] => 0
  | s :: later =>
      if s.isBreak then gapLength false later + 1
      else if inComment || s.char = ' ' then gapLength inComment later + 1
      else if s.char = '#' then gapLength true later + 1
      else 0

/-- What starts at a place: its tokens, how many characters it takes behind the first one, and the layout behind
it. -/
abbrev Lexeme := Except Fault (List Token × Nat × Layout)

/-- A bracket that opens. A collection cannot be a key. -/
def lexOpening (opening : Opening) (column : Nat) (l : Layout) : Lexeme :=
  if l.expectsKey column then .error .malformed
  else .ok ([.opening opening], 0, { l with brackets := l.brackets + 1, keyAllowed := true })

def lexClosing (closing : Closing) (l : Layout) : Lexeme :=
  if l.inBlock then .error .malformed
  else .ok ([.closing closing], 0, { l with brackets := l.brackets - 1, keyAllowed := false })

/-- The mark of an item, an explicit key or a value in a block: it may stand where a key may, and a block opens if
none is open at its column. -/
def lexBlockMark (mark : Mark) (opening : Opening) (column : Nat) (l : Layout) : Lexeme :=
  if l.keyAllowed then
    let (opened, l) := l.indent opening column
    .ok (opened ++ [.mark mark], 0, { l with keyAllowed := true })
  else .error .malformed

/-- The mark of a key or of a value, in a block or within brackets. -/
def lexMappingMark (mark : Mark) (column : Nat) (l : Layout) : Lexeme :=
  if l.inBlock then lexBlockMark mark .blockMapping column l
  else .ok ([.mark mark], 0, { l with keyAllowed := false })

/-- Whether a colon is the mark of a value, judged by what follows it. -/
def marksValue (l : Layout) (later : List Spot) : Bool :=
  !l.inBlock || endsWord later

/-- A scalar with the characters behind it: it is a key, and the colon behind it is taken too, or it is a node. -/
def lexScalar (plain : Bool) (text : List Char) (first : Spot) (length : Nat) (behind : List Spot)
    (l : Layout) : Lexeme :=
  let scalar := Token.scalar plain (String.ofList text)
  let spaces := (behind.takeWhile fun s => s.char = ' ').length
  let asKey :=
    match behind.drop spaces with
    | colon :: later =>
        l.keyAllowed && colon.char = ':' && marksValue l later && colon.line = first.line &&
          colon.index ≤ first.index + keyLimit
    | [] => false
  if asKey then
    let (opened, l) := l.indent .blockMapping first.column
    .ok (opened ++ [.mark .key, scalar, .mark .value], length + spaces + 1, { l with keyAllowed := false })
  else if l.expectsKey first.column then .error .malformed
  else .ok ([scalar], length, { l with keyAllowed := false })

def lexQuoted (s : Spot) (later : List Spot) (l : Layout) : Lexeme := do
  let (text, length) ← quotedFrom s.char false [] later
  lexScalar false text s length (later.drop length) l

/-- Whether a scalar without quotes starts with a character. -/
def startsPlain (l : Layout) (s : Spot) (later : List Spot) : Bool :=
  s.char ∉ ['\t', '-', '?', ':', ',', '[', ']', '\x7b', '\x7d', '#', '&', '*', '!', '|', '>', '\'', '"',
    '%', '@', '\x60'] ||
    (!endsWord later && (s.char = '-' || (l.inBlock && (s.char = '?' || s.char = ':'))))

/-- What starts with a character. -/
def lex (l : Layout) (s : Spot) (later : List Spot) : Lexeme :=
  if atDocumentMark (s :: later) then
    let (closed, l) := l.dedentAll
    let mark := if s.char = '-' then Mark.documentStart else .documentEnd
    .ok (closed ++ [.mark mark], 2, { l with keyAllowed := false })
  else if s.char = '%' ∧ s.column = 0 then .error .malformed
  else if s.char = '[' then lexOpening .flowSequence s.column l
  else if s.char = '\x7b' then lexOpening .flowMapping s.column l
  else if s.char = ']' then lexClosing .flowSequence l
  else if s.char = '\x7d' then lexClosing .flowMapping l
  else if s.char = ',' then
    if l.inBlock then .error .malformed else .ok ([.mark .comma], 0, { l with keyAllowed := true })
  else if s.char = '-' ∧ endsWord later then
    if l.inBlock then lexBlockMark .entry .blockSequence s.column l else .error .malformed
  else if s.char = '?' ∧ marksValue l later then lexMappingMark .key s.column l
  else if s.char = ':' ∧ marksValue l later then lexMappingMark .value s.column l
  else if s.char = '\'' ∨ s.char = '"' then lexQuoted s later l
  else if startsPlain l s later then
    let (text, length) := plainFrom (!l.inBlock) l.scalarColumn [] (s :: later)
    lexScalar true text s (length - 1) (later.drop (length - 1)) l
  else .error .malformed

/-- The tokens of the rest of a text. -/
def tokensFrom (l : Layout) (spots : List Spot) : Except Fault (List Token) :=
  let gap := gapLength false spots
  match rest : spots.drop gap with
  | [] => .ok l.dedentAll.1
  | s :: later =>
      have _shorter : later.length < spots.length := by
        have whole : (spots.drop gap).length ≤ spots.length := by simp
        simp only [rest, List.length_cons] at whole
        omega
      let (closed, l) := (l.afterGap (spots.take gap)).dedent s.column
      match lex l s later with
      | .error fault => .error fault
      | .ok (tokens, length, l) =>
          (tokensFrom l (later.drop length)).map fun behind => closed ++ tokens ++ behind
termination_by spots.length

def tokenize (text : List Char) : Except Fault (List Token) :=
  if text.all isAllowed then tokensFrom .start (spots text) else .error .malformed

end AttrGrammar.Yaml
