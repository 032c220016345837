import AttrGrammar.Proofs.Attributes.Locality
import AttrGrammar.Proofs.Printing.Print
import AttrGrammar.Proofs.Reading.Outcomes
import AttrGrammar.Proofs.Reading.Payloads
import AttrGrammar.Proofs.Reading.Taken
import Mathlib.Data.List.Forall2

/-!
Contract: what is spliced survives printing.

Owns:
- emissions: results of reading sources by payloads that are spliced, or by attributes with such a value;
- the trees of a source that a payload is read from, which it is spliced as;
- the print of all emissions in a row has these trees, places aside;
- the print of one emission is read as the same payload, whose print is the same text.

The two halves meet at trees that can be printed: what readers accept is such trees, and such trees are found again
in their print.
-/

namespace AttrGrammar

open Cursor Reader

/-! ## Trees that can be printed -/

/-- Whether trees come from sources and hold no empty character. -/
structure Printable (trees : List Tree) : Prop where
  isFrom : FromSource trees
  hasCharacter : ∀ t ∈ Tree.leavesAll trees, t.HasCharacter

/-- An empty character has no value. -/
theorem not_decode_emptyCharacter (l : Literal) :
    Literal.decode .char Token.emptyCharacter ≠ .ok l := by
  intro decoded
  have fails : Literal.decode .char Token.emptyCharacter =
      .error (.notOneCodePoint Token.emptyCharacter) := by cbv
  rw [fails] at decoded
  cases decoded

namespace Printable

theorem nil : Printable [] :=
  ⟨.nil, nofun⟩

theorem append {front back : List Tree} (first : Printable front) (second : Printable back) :
    Printable (front ++ back) where
  isFrom := first.isFrom.append second.isFrom
  hasCharacter := by
    rw [Tree.leavesAll_append]
    exact List.forall_mem_append.2 ⟨first.hasCharacter, second.hasCharacter⟩

theorem flatten {splices : List (List Tree)} (printable : ∀ trees ∈ splices, Printable trees) :
    Printable splices.flatten := by
  induction splices with
  | nil => exact nil
  | cons first later inductionHypothesis =>
      obtain ⟨here, behind⟩ := List.forall_mem_cons.1 printable
      exact here.append (inductionHypothesis behind)

/-- Places do not count. -/
theorem of_alike {trees trees' : List Tree} (printable : Printable trees')
    (alike : Tree.unplacedAll trees = Tree.unplacedAll trees') : Printable trees where
  isFrom := printable.isFrom.of_alike alike
  hasCharacter := by
    refine Tree.leaves_of_alike alike ?_ printable.hasCharacter
    intro t u same hasCharacter isChar
    rw [Token.text_eq_of_alike same]
    exact hasCharacter ((Token.kind_eq_of_alike same).symm.trans isChar)

theorem rescans {trees : List Tree} (printable : Printable trees) :
    ∀ t ∈ Tree.leavesAll trees, t.Rescans := by
  intro t member
  have isScanned := printable.isFrom.scanned t member
  refine isScanned.rescans fun isEmpty => ?_
  obtain ⟨l, decoded⟩ := printable.hasCharacter t member (isScanned.kind_of_emptyCharacter isEmpty)
  rw [isEmpty] at decoded
  exact not_decode_emptyCharacter l decoded

/-- Trees that can be printed are found again in their print. -/
theorem treesOf_printAll {trees : List Tree} (printable : Printable trees) :
    ∃ trees' finish, treesOf (Tree.printAll trees) = .ok (trees', finish) ∧
      Tree.unplacedAll trees' = Tree.unplacedAll trees :=
  AttrGrammar.treesOf_printAll printable.rescans printable.isFrom.plain printable.isFrom.meet

end Printable

/-! ## Payloads that are printed -/

section Payloads

variable {p : Payload} {c d : Cursor} {v : PayloadValue}

/-- A payload of a source is spliced as trees that can be printed. -/
theorem Payload.exists_printable (isSpliced : p.isSpliced) (isFrom : FromSource c.rest)
    (read : whole p.read c = .ok v d) :
    ∃ trees, v.splice? = some trees ∧ Tree.unplacedAll trees = Tree.unplacedAll c.rest ∧
      Printable trees := by
  obtain ⟨trees, spliced, alike⟩ := exists_splice isSpliced isFrom read
  have twin : Twin c c := isFrom.twin rfl
  obtain ⟨_, _, _, moves, _, atEnd⟩ := ((tracks_read p twin).whole twin).reads v d read
  have printable : Printable c.rest := ⟨isFrom, moves.hasCharacter atEnd⟩
  exact ⟨trees, spliced, alike, printable.of_alike alike⟩

theorem Grammar.read_payload : Grammar.read (.payload p) = (do pure (.payload (← p.read))) := by
  rw [Grammar.read]

theorem Grammar.whole_payload_eq_ok_iff {node : Parsed} :
    whole (Grammar.read (.payload p)) c = .ok node d ↔
      ∃ v, node = .payload v ∧ whole p.read c = .ok v d := by
  rw [Grammar.read_payload, whole_eq_ok_iff, bind_eq_ok_iff]
  constructor
  · rintro ⟨⟨v, e, read, last⟩, atEnd⟩
    obtain ⟨rfl, rfl⟩ := EStateM.Result.ok.inj last
    exact ⟨v, rfl, whole_eq_ok_iff.2 ⟨read, atEnd⟩⟩
  · rintro ⟨v, rfl, read⟩
    obtain ⟨read, atEnd⟩ := whole_eq_ok_iff.1 read
    exact ⟨⟨v, d, read, rfl⟩, atEnd⟩

/-- The print of a payload is read as the same payload, whose print is the same text. -/
theorem Payload.parse_printAll (isSpliced : p.isSpliced) (isFrom : FromSource c.rest)
    (read : whole p.read c = .ok v d) {trees : List Tree} (spliced : v.splice? = some trees) :
    ∃ v', Grammar.parse (.payload p) (Tree.printAll trees) = .ok (.payload v') ∧ v'.same v ∧
      ∃ trees', v'.splice? = some trees' ∧ Tree.printAll trees' = Tree.printAll trees := by
  obtain ⟨spliceTrees, isSplice, alike, printable⟩ := exists_printable isSpliced isFrom read
  obtain rfl := Option.some.inj (isSplice.symm.trans spliced)
  obtain ⟨again, finish, readTrees, alikeAgain⟩ := printable.treesOf_printAll
  have twin : Twin c (.ofTrees again finish) := isFrom.twin (alikeAgain.trans alike)
  obtain ⟨v', d', read', -, ⟨same, -⟩, -⟩ := ((tracks_read p twin).whole twin).reads v d read
  have isFromAgain : FromSource (Cursor.ofTrees again finish).rest := fromSource_of_treesOf readTrees
  obtain ⟨trees', spliced', alike'⟩ := exists_splice isSpliced isFromAgain read'
  refine ⟨v', ?_, same, trees', spliced', ?_⟩
  · exact Grammar.parse_eq_ok_iff.2
      ⟨again, finish, d', readTrees, Grammar.whole_payload_eq_ok_iff.2 ⟨v', rfl, read'⟩⟩
  · exact Tree.printAll_eq_of_alike (alike'.trans alikeAgain)

end Payloads

/-! ## Attributes with a value -/

section Values

variable {c d : Cursor}

/-- Whether trees are those of an attribute with a value: a keyword, and the trees of the value in parentheses or behind
an equals sign. -/
inductive Attribute.HasValue (keyword : String) (value : List Tree) : List Tree → Prop where
  | parens {word : Token} {opening closing : Position} (isWord : word.isWord keyword) :
      HasValue keyword value [.token word, .group .paren opening closing value]
  | equals {word equals : Token} (isWord : word.isWord keyword) (isEquals : equals.kind = .equals) :
      HasValue keyword value (.token word :: .token equals :: value)

theorem FromSource.of_hasValue {keyword : String} {trees value : List Tree} (isFrom : FromSource trees)
    (hasValue : Attribute.HasValue keyword value trees) : FromSource value := by
  cases hasValue with
  | parens => exact isFrom.of_group (List.mem_cons_of_mem _ (List.mem_cons_self ..))
  | equals => exact isFrom.drop 2

/-- The value of an attribute is read from all trees of the value. -/
theorem Attribute.exists_of_readValue {α : Type} {keyword : String} {payload : Reader α}
    {a : Attribute α} (read : whole (readValue keyword payload) c = .ok a d) :
    ∃ c' d' v position, HasValue keyword (Cursor.rest c') c.rest ∧ whole payload c' = .ok v d' ∧
      a = ⟨keyword, position, .value v⟩ := by
  obtain ⟨read, atEnd⟩ := whole_eq_ok_iff.1 read
  obtain ⟨position, c₁, isKeyword, read⟩ := bind_eq_ok_iff.1 read
  obtain ⟨word, behind, rest, isWord, rfl, rfl⟩ := readKeyword_eq_ok_iff.1 isKeyword
  obtain ⟨found, c₂, isFound, read⟩ := bind_eq_ok_iff.1 read
  have restBehind := rest_skip_one rest
  obtain ⟨opening, closing, inner, later, isGroup, rfl, rfl⟩ | ⟨rfl, rfl⟩ := group?_eq_ok isFound
  · obtain ⟨v, isInside, rfl⟩ := bind_pure_eq_ok_iff.1 read
    obtain ⟨isValue, rfl⟩ := inside_eq_ok_iff.1 isInside
    obtain ⟨f, isRead⟩ := outcome_eq_ok_iff.1 isValue
    obtain rfl : later = [] := (rest_skip_one isGroup).symm.trans atEnd
    refine ⟨.ofTrees inner closing, f, v, word.position, ?_, isRead, rfl⟩
    rw [rest, ← restBehind, isGroup]
    exact .parens isWord
  · obtain ⟨equals, c₃, isEquals, read⟩ := bind_eq_ok_iff.1 read
    obtain ⟨t, rfl, isKind, takes⟩ | ⟨rfl, -⟩ := token?_eq_ok isEquals
    · obtain ⟨v, isValue, rfl⟩ := bind_pure_eq_ok_iff.1 read
      refine ⟨c₃, d, v, word.position, ?_, whole_eq_ok_iff.2 ⟨isValue, atEnd⟩, rfl⟩
      rw [rest, ← restBehind, takes.rest]
      exact .equals isWord isKind
    · cases read

theorem Grammar.whole_node_eq_ok_iff {keyword : String} {content : Grammar} {node : Parsed} :
    whole (Grammar.read (.node ⟨keyword, .value content⟩)) c = .ok node d ↔
      ∃ a, node = .attr a ∧ whole (Attribute.readValue keyword content.read) c = .ok a d := by
  have reads : Grammar.read (.node ⟨keyword, .value content⟩) =
      (do pure (.attr (← Attribute.readValue keyword content.read))) := by
    rw [Grammar.read, readNode, readShape]
  rw [reads, whole_eq_ok_iff, bind_eq_ok_iff]
  constructor
  · rintro ⟨⟨a, e, read, last⟩, atEnd⟩
    obtain ⟨rfl, rfl⟩ := EStateM.Result.ok.inj last
    exact ⟨a, rfl, whole_eq_ok_iff.2 ⟨read, atEnd⟩⟩
  · rintro ⟨a, rfl, read⟩
    obtain ⟨read, atEnd⟩ := whole_eq_ok_iff.1 read
    exact ⟨⟨a, d, read, rfl⟩, atEnd⟩

end Values

/-! ## Emissions -/

/-- The grammar of a payload, or that of an attribute with a keyword whose value is this payload. -/
def Payload.grammar (p : Payload) : Option String → Grammar
  | none => .payload p
  | some keyword => .node ⟨keyword, .value (.payload p)⟩

/-- A result of reading a source by a payload that is spliced, or by an attribute with such a value. -/
structure Emission where
  payload : Payload
  isSpliced : payload.isSpliced
  keyword : Option String
  source : String
  node : Parsed
  parsed : (payload.grammar keyword).parse source = .ok node

/-- The payload of a result: the value of an attribute, or the result itself. -/
def Parsed.payloadOf : Parsed → Parsed
  | attr ⟨_, _, .value v⟩ => v
  | node => node

/-- The trees of results that are spliced one behind the other. -/
def Parsed.spliceAll? (nodes : List Parsed) : Option (List Tree) :=
  (nodes.mapM splice?).map List.flatten

namespace Emission

/-- Whether trees are those of the payload in the source of an emission: all trees of the source, or those of the value
of an attribute. -/
def Carries (e : Emission) (trees : List Tree) : Prop :=
  ∃ all finish, treesOf e.source = .ok (all, finish) ∧
    match e.keyword with
    | none => trees = all
    | some keyword => Attribute.HasValue keyword trees all

/-- The payload of an emission is read from all of its trees. -/
theorem exists_payload (e : Emission) :
    ∃ c d v, e.Carries (Cursor.rest c) ∧ FromSource (Cursor.rest c) ∧ whole e.payload.read c = .ok v d ∧
      e.node.payloadOf = .payload v ∧ e.node.splice? = v.splice? := by
  obtain ⟨p, isSpliced, keyword, source, node, parsed⟩ := e
  obtain ⟨trees, finish, d, isTrees, read⟩ := Grammar.parse_eq_ok_iff.1 parsed
  have isFrom : FromSource (Cursor.ofTrees trees finish).rest := fromSource_of_treesOf isTrees
  cases keyword with
  | none =>
      obtain ⟨v, rfl, isPayload⟩ := Grammar.whole_payload_eq_ok_iff.1 read
      exact ⟨_, d, v, ⟨trees, finish, isTrees, rfl⟩, isFrom, isPayload, rfl, rfl⟩
  | some keyword =>
      obtain ⟨a, rfl, isAttribute⟩ := Grammar.whole_node_eq_ok_iff.1 read
      obtain ⟨c', d', value, position, hasValue, isValue, rfl⟩ := Attribute.exists_of_readValue isAttribute
      obtain ⟨v, rfl, isPayload⟩ := Grammar.whole_payload_eq_ok_iff.1 isValue
      exact ⟨c', d', v, ⟨trees, finish, isTrees, hasValue⟩, isFrom.of_hasValue hasValue, isPayload, rfl, rfl⟩

/-- Emissions are spliced as the trees of their payloads, which can be printed. -/
theorem exists_splices (emissions : List Emission) :
    ∃ trees, Parsed.spliceAll? (emissions.map node) = some trees ∧ Printable trees ∧
      ∃ carried, List.Forall₂ Carries emissions carried ∧
        Tree.unplacedAll trees = Tree.unplacedAll carried.flatten := by
  induction emissions with
  | nil => exact ⟨[], rfl, .nil, [], .nil, rfl⟩
  | cons e later inductionHypothesis =>
      obtain ⟨c, d, v, carries, isFrom, read, -, splice⟩ := e.exists_payload
      obtain ⟨first, isFirst, alike, printable⟩ := Payload.exists_printable e.isSpliced isFrom read
      obtain ⟨behind, areBehind, printableBehind, carried, areCarried, alikeBehind⟩ := inductionHypothesis
      obtain ⟨splices, areSplices, rfl⟩ := Option.map_eq_some_iff.1 areBehind
      refine ⟨first ++ splices.flatten, ?_, printable.append printableBehind, c.rest :: carried,
        .cons carries areCarried, ?_⟩
      · rw [Parsed.spliceAll?, List.map_cons, List.mapM_cons, splice, isFirst, areSplices]
        rfl
      · rw [List.flatten_cons, Tree.unplacedAll_append, Tree.unplacedAll_append, alike, alikeBehind]

/-- Emissions survive printing: they are spliced as the trees that their payloads were read from, places aside; the print
of all of them in a row has these trees, places aside; and the print of each one by itself is read as the same payload,
whose print is the same text. -/
theorem survive_printing (emissions : List Emission) :
    (∃ trees, Parsed.spliceAll? (emissions.map node) = some trees ∧
      (∃ carried, List.Forall₂ Carries emissions carried ∧
        Tree.unplacedAll trees = Tree.unplacedAll carried.flatten) ∧
      ∃ printed finish, treesOf (Tree.printAll trees) = .ok (printed, finish) ∧
        Tree.unplacedAll printed = Tree.unplacedAll trees) ∧
    ∀ e ∈ emissions, ∃ trees, e.node.splice? = some trees ∧
      ∃ again, Grammar.parse (.payload e.payload) (Tree.printAll trees) = .ok again ∧
        again.same e.node.payloadOf ∧
        ∃ trees', again.splice? = some trees' ∧ Tree.printAll trees' = Tree.printAll trees := by
  constructor
  · obtain ⟨trees, spliced, printable, carried⟩ := exists_splices emissions
    exact ⟨trees, spliced, carried, printable.treesOf_printAll⟩
  · intro e _
    obtain ⟨c, d, v, -, isFrom, read, isPayload, splice⟩ := e.exists_payload
    obtain ⟨trees, spliced, -, -⟩ := Payload.exists_printable e.isSpliced isFrom read
    obtain ⟨v', parsed, same, trees', spliced', sameText⟩ :=
      Payload.parse_printAll e.isSpliced isFrom read spliced
    refine ⟨trees, splice.trans spliced, .payload v', parsed, ?_, trees', spliced', sameText⟩
    rw [isPayload, Parsed.same]
    exact same

/-- The tokens of `A<B<C>>`: the first `>` is joint with the second. -/
def nestedTokens : List Token :=
  [⟨.ident, "A", ⟨1, 1⟩, false⟩, ⟨.langle, "<", ⟨1, 2⟩, false⟩, ⟨.ident, "B", ⟨1, 3⟩, false⟩,
    ⟨.langle, "<", ⟨1, 4⟩, false⟩, ⟨.ident, "C", ⟨1, 5⟩, false⟩, ⟨.rangle, ">", ⟨1, 6⟩, true⟩,
    ⟨.rangle, ">", ⟨1, 7⟩, false⟩]

theorem lexed_nestedTokens :
    Lexer.Lexed .start "A<B<C>>".toList (nestedTokens ++ [Token.atEnd ⟨1, 8⟩]) :=
  @Lexer.Lexed.token _ [] 'A' ['<', 'B', '<', 'C', '>', '>'] .ident 0 _ rfl rfl <|
  @Lexer.Lexed.token _ [] '<' ['B', '<', 'C', '>', '>'] .langle 0 _ rfl rfl <|
  @Lexer.Lexed.token _ [] 'B' ['<', 'C', '>', '>'] .ident 0 _ rfl rfl <|
  @Lexer.Lexed.token _ [] '<' ['C', '>', '>'] .langle 0 _ rfl rfl <|
  @Lexer.Lexed.token _ [] 'C' ['>', '>'] .ident 0 _ rfl rfl <|
  @Lexer.Lexed.token _ [] '>' ['>'] .rangle 0 _ rfl rfl <|
  @Lexer.Lexed.token _ [] '>' [] .rangle 0 _ rfl rfl <| .finish rfl

/-- The type `A<B<C>>`. -/
def nestedType : Emission where
  payload := .type
  isSpliced := rfl
  keyword := none
  source := "A<B<C>>"
  node :=
    let innermost := TypeExpr.path false [.mk "C" []] ⟨1, 5⟩
    let inner := TypeExpr.path false [.mk "B" [.type innermost]] ⟨1, 3⟩
    .payload (.type ⟨.path false [.mk "A" [.type inner]] ⟨1, 1⟩, nestedTokens.map .token⟩)
  parsed := Grammar.parse_eq_ok_iff.2
    ⟨nestedTokens.map .token, ⟨1, 8⟩, _, treesOf_eq_ok_iff.2 ⟨rfl, _, lexed_nestedTokens, rfl⟩, rfl⟩

/-- The print of the type has spaces, but none between its joint tokens, and is read as the same type. -/
theorem survive_printing_nestedType :
    (∃ printed finish, treesOf "A < B < C >>" = .ok (printed, finish) ∧
      Tree.unplacedAll printed = Tree.unplacedAll (nestedTokens.map .token)) ∧
    ∃ again, Grammar.parse (.payload .type) "A < B < C >>" = .ok again ∧
      again.same nestedType.node := by
  obtain ⟨⟨trees, spliced, -, found⟩, each⟩ := survive_printing [nestedType]
  obtain rfl : nestedTokens.map .token = trees := Option.some.inj spliced
  obtain ⟨trees, spliced, again, parsed, same, -⟩ := each nestedType (List.mem_singleton_self _)
  obtain rfl : nestedTokens.map .token = trees := Option.some.inj spliced
  exact ⟨found, again, parsed, same⟩

end Emission

end AttrGrammar
