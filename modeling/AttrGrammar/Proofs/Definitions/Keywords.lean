import AttrGrammar.Proofs.Attributes.Rendering
import AttrGrammar.Proofs.Attributes.Spellings
import AttrGrammar.Proofs.Definitions.Validity
import AttrGrammar.Proofs.Lexing.Words
import AttrGrammar.Proofs.Trees.RoundTrip

/-!
Contract: the keywords of a definition in sources.

Owns:
- that the keywords of attributes that are read are words;
- which keywords of a definition can be written, and what a source that is such a keyword yields;
- that the others occur in no source.

A definition takes every identifier for a keyword. Some identifiers are no words: they have marks or connectors in
them, or start with a letter-like number.
-/

namespace AttrGrammar

open Lexer Reader

/-! ## Identifiers -/

/-- In ASCII, identifiers are words. -/
theorem spellsWord_of_ascii {cs : List Char} (isIdentifier : Unicode.isIdentifier cs)
    (ascii : ∀ c ∈ cs, c.toNat < 128) : spellsWord cs := by
  have starts : ∀ code < 128, Unicode.inRanges code Unicode.identifierStartRanges →
      startsWord (Char.ofNat code) := by decide +kernel
  have continues : ∀ code < 128, Unicode.inRanges code Unicode.identifierContinueRanges →
      continuesWord (Char.ofNat code) := by decide +kernel
  cases cs with
  | nil => cases isIdentifier
  | cons c more =>
      obtain ⟨asciiFirst, asciiMore⟩ := List.forall_mem_cons.1 ascii
      obtain ⟨isStart, areContinuing⟩ := Bool.and_eq_true_iff.1 isIdentifier
      refine Bool.and_eq_true_iff.2 ⟨?_, List.all_eq_true.2 fun d member => ?_⟩
      · have first := starts c.toNat asciiFirst isStart
        rwa [Char.ofNat_toNat] at first
      · have later := continues d.toNat (asciiMore d member) (List.all_eq_true.1 areContinuing d member)
        rwa [Char.ofNat_toNat] at later

/-! ## Attributes of sources -/

/-- The keyword of a rendered attribute is its first tree. -/
theorem Attribute.Renders.head {a : Attribute PayloadValue} {trees : List Tree} (renders : a.Renders trees) :
    trees.head? = some (.token (.word a.keyword a.position)) := by
  cases renders <;> rfl

namespace AttrSet

variable {s : AttrSet Payload}

/-- The keyword of an attribute that is read is a word. -/
theorem spellsWord_of_read {c d : Cursor} (lexed : c.LexedAhead) {a : Attribute PayloadValue}
    (isRead : s.read c = .ok a d) : spellsWord a.keyword.toList := by
  obtain ⟨trees, renders, count, rfl, alike⟩ := read_consumes lexed isRead
  obtain ⟨later, rfl⟩ := List.head?_eq_some_iff.1 renders.head
  obtain ⟨t, behind, front, same, -⟩ := Tree.exists_token_of_alike alike
  have rest : c.rest = .token t :: (behind ++ c.rest.drop count) := by
    rw [← List.cons_append, ← front, List.take_append_drop]
  have spells := (lexed.head rest).spellsWord (Token.kind_eq_of_alike same)
  rwa [Token.text_eq_of_alike same] at spells

theorem attributes_parsedList (attributes : List (Attribute PayloadValue)) :
    (Attribute.parsedList attributes).attributes = attributes.map (Attribute.map .payload) := by
  rw [Attribute.parsedList, Parsed.attributes, List.filterMap_map, ← List.filterMap_eq_map]
  rfl

/-- A source that is accepted as a list of attributes consists of items that are attributes by themselves. -/
theorem exists_entries_of_parse {source : String} {attributes : List (Attribute Parsed)}
    (isRead : parseAttributes (.attrs (s.map .payload)) source = .ok attributes) :
    ∃ (trees : List Tree) (finish : Position) (entries : List (List Tree × Attribute PayloadValue)),
      treesOf source = .ok (trees, finish) ∧
      (∀ entry ∈ entries, ReadsItem s.read entry.1 entry.2) ∧
      Separated (entries.map Prod.fst) trees ∧
      attributes = entries.map fun entry => entry.2.map .payload := by
  cases areTrees : treesOf source with
  | error e =>
      rw [parseAttributes, Grammar.parse_of_error areTrees] at isRead
      cases isRead
  | ok pair =>
      obtain ⟨trees, finish⟩ := pair
      have plain := (fromSource_of_treesOf areTrees).plain
      rw [parseAttributes_of_trees areTrees, parseTrees_listGrammar plain] at isRead
      cases result : outcome (terminated s.read) (.ofTrees trees finish) with
      | error failure =>
          rw [result] at isRead
          cases isRead
      | ok values =>
          rw [result] at isRead
          obtain rfl := Except.ok.inj isRead
          obtain ⟨d, areRead⟩ := outcome_eq_ok_iff.1 result
          have plainHere : IsPlainAhead (.ofTrees trees finish) := plain
          obtain ⟨entries, reads, separated, rfl, -⟩ :=
            s.isLocal_read.exists_entries trees.length plainHere (Nat.le_refl _) areRead
          refine ⟨trees, finish, entries, rfl, reads, separated, ?_⟩
          rw [attributes_parsedList, List.map_map]
          rfl

/-- The keywords of the attributes in a source are words. -/
theorem spellsWord_of_parse {source : String} {attributes : List (Attribute Parsed)}
    (isRead : parseAttributes (.attrs (s.map .payload)) source = .ok attributes) :
    ∀ a ∈ attributes, spellsWord a.keyword.toList := by
  intro a member
  obtain ⟨trees, finish, entries, areTrees, reads, separated, rfl⟩ := exists_entries_of_parse isRead
  obtain ⟨⟨item, b⟩, isEntry, rfl⟩ := List.mem_map.1 member
  have isFrom := fromSource_of_treesOf areTrees
  have inTrees := separated.leaves_subset (List.mem_map_of_mem isEntry)
  have lexed : (Cursor.ofTrees item finish).LexedAhead :=
    ⟨fun t inItem => isFrom.scanned t (inTrees inItem), fun t inItem => isFrom.plain t (inTrees inItem)⟩
  have isReadHere := (reads _ isEntry).2 (.ofTrees item finish) [] (List.append_nil item).symm trivial
  exact spellsWord_of_read lexed isReadHere

/-- A word that is the keyword of an attribute without a payload is read as that attribute. -/
theorem parseAttributes_void {keyword : String} (spells : spellsWord keyword.toList)
    (isNode : s.find? keyword = some ⟨keyword, .void⟩) :
    parseAttributes (.attrs (s.map .payload)) keyword = .ok [⟨keyword, .start, .void⟩] := by
  let word : Token := .word keyword .start
  have areTrees : treesOf keyword = .ok ([.token word], Position.start.after keyword.toList) :=
    treesOf_eq_ok_iff_lexed.2 ⟨tokensFrom_eq_ok_iff.1 (tokenize_eq_wordTokens_iff.2 spells), by
      simp [Tree.leavesAll, Tree.leaves, Token.IsPlain, Delimiter.ofOpen?, Delimiter.ofClose?, word,
        Token.word]⟩
  have reads : ReadsItem s.read [.token word] ⟨keyword, .start, .void⟩ := by
    refine ⟨List.cons_ne_nil _ _, fun c behind rest _ => ?_⟩
    have readsBy : s.read c = Attribute.readVoid keyword c := by
      refine readByKeyword_of_known rest rfl ?_
      rw [show word.text = keyword from rfl, isNode]
      rfl
    have isWord : word.isWord keyword := by simp [word, Token.word, Token.isWord]
    rw [readsBy]
    exact bind_pure_eq_ok_iff.2 ⟨_, Attribute.readKeyword_of_word rest isWord, rfl⟩
  let entries : List (List Tree × Attribute PayloadValue) := [([.token word], ⟨keyword, .start, .void⟩)]
  have areItems : ∀ entry ∈ entries, ReadsItem s.read entry.1 entry.2 := by
    simpa [entries] using reads
  rw [parseAttributes_of_trees areTrees, parseTrees_of_separated areItems (.last _)]
  exact congrArg Except.ok (attributes_parsedList _)

end AttrSet

namespace Definition

/-- The keywords that a definition declares are identifiers. -/
theorem Defines.isIdentifier {settings : List (Data × Data)} {definition : Definition}
    (defines : Defines settings definition) {n : Node Payload} (declared : n ∈ definition.nodes) :
    Unicode.isIdentifier n.keyword.toList := by
  obtain ⟨entries, -, declares⟩ := defines.attributes
  generalize definition.nodes = nodes at declared declares
  induction declares with
  | nil => cases declared
  | cons here _ inductionHypothesis =>
      rcases List.mem_cons.1 declared with rfl | isLater
      · exact here.2.1
      · exact inductionHypothesis isLater

/-- A keyword of a definition can be written exactly if it is a word, as all identifiers in ASCII are. A word without
a payload is then read as its attribute, and a keyword that is no word is the keyword of no attribute in any source. -/
theorem keyword_iff {source : String} {d : Data} {definition : Definition} (plain : d.IsPlain)
    (isRead : ofSourceData source d = .ok definition) {n : Node Payload} (declared : n ∈ definition.nodes) :
    (tokenize n.keyword = .ok (wordTokens n.keyword) ↔ spellsWord n.keyword.toList) ∧
    ((∀ c ∈ n.keyword.toList, c.toNat < 128) → spellsWord n.keyword.toList) ∧
    (spellsWord n.keyword.toList → n.shape = .void →
      parseAttributes (.attrs (definition.set.map .payload)) n.keyword =
        .ok [⟨n.keyword, .start, .void⟩]) ∧
    (¬spellsWord n.keyword.toList → ∀ text attributes,
      parseAttributes (.attrs (definition.set.map .payload)) text = .ok attributes →
        ∀ a ∈ attributes, a.keyword ≠ n.keyword) := by
  obtain ⟨settings, rfl, defines⟩ := ofData_eq_ok_iff.1 (ofSourceData_eq_ok_iff.1 isRead)
  refine ⟨tokenize_eq_wordTokens_iff, ?_, ?_, ?_⟩
  · exact spellsWord_of_ascii (defines.isIdentifier declared)
  · intro spells isVoid
    have isNode : n = ⟨n.keyword, .void⟩ := by rw [← isVoid]
    refine AttrSet.parseAttributes_void spells ?_
    rw [← isNode]
    exact find?_set (defines.distinctKeywords plain) declared
  · intro noWord text attributes areRead a member same
    exact noWord (same ▸ AttrSet.spellsWord_of_parse areRead a member)

/-- The keyword `checksum` of a definition is read as its attribute. -/
theorem keyword_iff_checksum :
    ofSourceData "<dict>" (.map packetSettings) = .ok packet ∧ ⟨"checksum", .void⟩ ∈ packet.nodes ∧
      tokenize "checksum" = .ok (wordTokens "checksum") ∧
      parseAttributes (.attrs (packet.set.map .payload)) "checksum" =
        .ok [⟨"checksum", ⟨1, 1⟩, .void⟩] := by
  have isRead : ofSourceData "<dict>" (.map packetSettings) = .ok packet :=
    ofSourceData_eq_ok_iff.2 (ofData_eq_ok_iff.2 ⟨packetSettings, rfl, defines_packet⟩)
  have declared : ⟨"checksum", .void⟩ ∈ packet.nodes := .head _
  obtain ⟨isToken, ascii, isVoid, -⟩ := keyword_iff isPlain_packetSettings isRead declared
  have isAscii : ("checksum".toList.all fun c => c.toNat < 128) = true := by decide
  have spells : spellsWord "checksum".toList :=
    ascii fun c member => of_decide_eq_true (List.all_eq_true.1 isAscii c member)
  exact ⟨isRead, declared, isToken.2 spells, isVoid spells rfl⟩

/-- A definition with an attribute that is spelled `a` with an acute accent, which is a character of its own. -/
def accentedSettings : List (Data × Data) :=
  [(.str "name", .str "n"), (.str "attributes", .map [(.str "a\u0301", .str "void")])]

def accented : Definition :=
  ⟨"n", none, [⟨"a\u0301", .void⟩]⟩

theorem defines_accented : Defines accentedSettings accented where
  keys := by simp [accentedSettings]
  name := rfl
  nameNotEmpty := by decide
  base := .none
  attributes := ⟨_, .map _, .cons ⟨rfl, by decide, .word⟩ .nil⟩
  notEmpty := .inl nofun

/-- The accented keyword is an identifier, which the definition declares, but no word: a source that is this keyword
has no tokens. -/
theorem keyword_accented :
    ofSourceData "<dict>" (.map accentedSettings) = .ok accented ∧ ⟨"a\u0301", .void⟩ ∈ accented.nodes ∧
      tokenize "a\u0301" = .error ⟨.unexpectedCharacter '\u0301', ⟨1, 2⟩⟩ := by
  refine ⟨ofSourceData_eq_ok_iff.2 (ofData_eq_ok_iff.2 ⟨_, rfl, defines_accented⟩), .head _, ?_⟩
  have first := @tokensFrom_token .start [] ['\u0301'] 'a' .ident 0 rfl (by rfl)
  have second := @tokensFrom_behind ⟨1, 2⟩ [] [] '\u0301' rfl
  have noToken : scan '\u0301' [] = .error (.unexpectedCharacter '\u0301') := by rfl
  rw [noToken] at second
  exact first.trans (congrArg _ second)

end Definition

end AttrGrammar
