import AttrGrammar.Proofs.Attributes.Answers
import AttrGrammar.Proofs.Attributes.Twins

/-!
Contract: places never influence what is read.

Owns:
- the tokens that come out of the lexer, whose values equal themselves and fit their types;
- outcomes that are the same, places aside: equal results that are re-emitted as the same texts, or errors of one kind
  with one message;
- that grammars have the same outcome on trees, and on sources, that differ in places only.
-/

namespace AttrGrammar

open Cursor Reader

/-! ## Tokens of the lexer -/

/-- Whether the lexer can produce a token, at some place. -/
def Token.IsLexed (t : Token) : Prop :=
  ∃ source tokens, tokenize source = .ok tokens ∧ t.unplaced ∈ tokens.map Token.unplaced

namespace Token

variable {t : Token}

/-- Tokens of the lexer are scanned, the end aside. -/
theorem IsLexed.isScanned_or (lexed : t.IsLexed) : t.IsScanned ∨ t.kind = .eof := by
  obtain ⟨source, tokens, isLexed, member⟩ := lexed
  obtain ⟨u, isToken, alike⟩ := List.mem_map.1 member
  obtain ⟨ts, rfl, areScanned⟩ := (Lexer.tokensFrom_eq_ok_iff.1 isLexed).tokens
  rcases List.mem_append.1 isToken with scanned | atEnd
  · exact .inl (isScanned_of_alike t u alike.symm (areScanned u scanned))
  · obtain rfl := List.mem_singleton.1 atEnd
    exact .inr (kind_eq_of_alike alike).symm

theorem IsLexed.isReflexive (lexed : t.IsLexed) : t.IsReflexive := by
  rcases lexed.isScanned_or with isScanned | isEnd
  · exact isScanned.isReflexive
  · intro l decoded
    rw [isEnd] at decoded
    cases decoded

theorem IsLexed.fits (lexed : t.IsLexed) : t.Fits := by
  rcases lexed.isScanned_or with isScanned | isEnd
  · exact isScanned.fits
  · rw [Fits, isEnd]
    intro decoded
    cases decoded

theorem fits_of_bracket {d : Delimiter} (isBracket : t.kind = d.openKind ∨ t.kind = d.closeKind) :
    t.Fits := by
  rcases isBracket with isOpen | isClose
  · rw [Fits, isOpen]
    intro decoded
    cases d <;> cases decoded
  · rw [Fits, isClose]
    intro decoded
    cases d <;> cases decoded

end Token

/-! ## Outcomes -/

/-- Whether two outcomes are equal results, which are re-emitted as the same texts as a whole and in all their parts,
or errors that are related. -/
def SameOutcome {ε : Type} (sameError : ε → ε → Prop) : (outcome' outcome : Except ε Parsed) → Prop
  | .ok v', .ok v => v'.same v ∧ v'.texts = v.texts
  | .error e', .error e => sameError e' e
  | _, _ => False

/-- Whether two failures reject trees with one kind and message. -/
def Failure.SameRejection : (failure' failure : Failure) → Prop
  | rejected e', rejected e => e'.kind = e.kind ∧ e'.message = e.message
  | _, _ => False

/-- Whether two sources are rejected with one kind and message, or have brackets that do not balance, with one
message. -/
def SourceFailure.SameRejection : (failure' failure : SourceFailure) → Prop
  | failure f', failure f => f'.SameRejection f
  | source (.unbalanced e'), source (.unbalanced e) => e'.message = e.message
  | _, _ => False

/-- What is the same for the trees of sources is so for the sources. -/
theorem SameOutcome.ofTrees {outcome' outcome : Except Failure Parsed}
    (same : SameOutcome Failure.SameRejection outcome' outcome) :
    SameOutcome SourceFailure.SameRejection (outcome'.mapError .failure) (outcome.mapError .failure) := by
  cases outcome' <;> cases outcome <;> exact same

theorem Failure.sameRejection_of_unplaced {failure' failure : Failure}
    (same : failure'.unplaced = failure.unplaced) (isRejected : ∃ e, failure = .rejected e) :
    failure'.SameRejection failure := by
  obtain ⟨e, rfl⟩ := isRejected
  cases failure' with
  | rejected e' =>
      obtain ⟨sameKind, sameProblem⟩ := ParseError.unplaced_eq_iff.1 (Failure.rejected.inj same)
      exact ⟨sameKind, congrArg Problem.message sameProblem⟩
  | _ => cases same

/-! ## Whole inputs -/

namespace Grammar

section Whole

variable {g : Grammar} {trees' trees : List Tree}

theorem sameOutcome_parseTrees (specialised : g.misuses = [])
    (reflexive : ∀ t ∈ Tree.leavesAll trees, t.IsReflexive) (fits : ∀ t ∈ Tree.leavesAll trees, t.Fits)
    (alike : Tree.unplacedAll trees' = Tree.unplacedAll trees) (finish' finish : Position) :
    SameOutcome Failure.SameRejection (g.parseTrees trees' finish') (g.parseTrees trees finish) := by
  have twin : Twin (.ofTrees trees finish) (.ofTrees trees' finish') := ⟨alike, reflexive⟩
  have tracks := (g.placeless_read _ _ twin).whole twin
  have keeps : Keeps .ofFitting g.read := g.keeps_read_of_misuses (by simp [specialised])
  have known : ∀ t ∈ Tree.flattenAll trees, Blame.ofFitting.token t := by
    intro t member
    rcases Tree.mem_flattenAll member with isLeaf | ⟨d, isBracket⟩
    · exact fits t isLeaf
    · exact Token.fits_of_bracket isBracket
  cases result : g.parseTrees trees finish with
  | ok v =>
      rw [parseTrees_eq, outcome_eq_ok_iff] at result
      obtain ⟨d, read⟩ := result
      obtain ⟨v', d', read', -, same, -⟩ := tracks.reads v d read
      rw [show g.parseTrees trees' finish' = .ok v' by
        rw [parseTrees_eq, outcome_eq_ok_iff]; exact ⟨d', read'⟩]
      exact same
  | error failure =>
      have isRejected := failure_of_parseTrees keeps known trivial result
      rw [parseTrees_eq] at result
      obtain ⟨d, fails⟩ := exists_of_outcome_eq_error result
      obtain ⟨failure', d', fails', same⟩ := tracks.fails failure d fails
      rw [parseTrees_eq, outcome, fails']
      exact Failure.sameRejection_of_unplaced same isRejected

/-- Sources whose tokens differ in their places only have the same outcome. -/
theorem sameOutcome_parse (specialised : g.misuses = []) {source' source : String}
    {tokens' tokens : List Token} (lexed' : tokenize source' = .ok tokens')
    (lexed : tokenize source = .ok tokens) (alike : tokens'.map Token.unplaced = tokens.map Token.unplaced) :
    SameOutcome SourceFailure.SameRejection (g.parse source') (g.parse source) := by
  have grouped := unplaced_groupTokens alike
  have read := treesOf_of_tokens lexed
  have read' := treesOf_of_tokens lexed'
  cases result : groupTokens tokens with
  | error e =>
      rw [result] at grouped read
      cases result' : groupTokens tokens' with
      | ok trees' =>
          rw [result'] at grouped
          cases grouped
      | error e' =>
          rw [result'] at grouped read'
          rw [parse_of_error read, parse_of_error read']
          have sameError : e'.unplaced = e.unplaced := by injection grouped
          have sameMessage : e'.unplaced.message = e.unplaced.message :=
            congrArg TreeError.message sameError
          exact sameMessage
  | ok trees =>
      rw [result] at grouped read
      cases result' : groupTokens tokens' with
      | error e' =>
          rw [result'] at grouped
          cases grouped
      | ok trees' =>
          rw [result'] at grouped read'
          have areScanned := (fromSource_of_treesOf read).scanned
          have sameTrees : Tree.unplacedAll trees' = Tree.unplacedAll trees := by injection grouped
          have sameOutcome := sameOutcome_parseTrees specialised
            (fun t member => (areScanned t member).isReflexive) (fun t member => (areScanned t member).fits)
            sameTrees (Position.start.after source'.toList) (Position.start.after source.toList)
          rw [parse_of_trees read, parse_of_trees read']
          exact sameOutcome.ofTrees

end Whole

/-- Places never influence what is read. A grammar has the same outcome on all trees of lexed tokens that differ in
places only, wherever they end: equal results that are re-emitted as the same texts, or errors of one kind with one
message. So it does on sources whose tokens differ in places only. -/
theorem parse_of_alike {g : Grammar} (specialised : g.misuses = []) :
    (∀ (trees' trees : List Tree) (finish' finish : Position), (∀ t ∈ Tree.leavesAll trees, t.IsLexed) →
      Tree.unplacedAll trees' = Tree.unplacedAll trees →
        SameOutcome Failure.SameRejection (g.parseTrees trees' finish') (g.parseTrees trees finish)) ∧
    ∀ (source' source : String) (tokens' tokens : List Token), tokenize source' = .ok tokens' →
      tokenize source = .ok tokens → tokens'.map Token.unplaced = tokens.map Token.unplaced →
        SameOutcome SourceFailure.SameRejection (g.parse source') (g.parse source) :=
  ⟨fun _ _ finish' finish lexed alike => sameOutcome_parseTrees specialised
      (fun t member => (lexed t member).isReflexive) (fun t member => (lexed t member).fits) alike
      finish' finish,
    fun _ _ _ _ lexed' lexed alike => sameOutcome_parse specialised lexed' lexed alike⟩

/-- The tokens of `len = u8` at some places. -/
def lenTokens (p q r finish : Position) : List Token :=
  [.word "len" p, ⟨.equals, "=", q, false⟩, .word "u8" r, .atEnd finish]

open Lexer in
theorem tokenize_len :
    tokenize "len = u8" = .ok (lenTokens ⟨1, 1⟩ ⟨1, 5⟩ ⟨1, 7⟩ ⟨1, 9⟩) ∧
      tokenize "len =\n  u8" = .ok (lenTokens ⟨1, 1⟩ ⟨1, 5⟩ ⟨2, 3⟩ ⟨2, 5⟩) := by
  constructor
  · refine tokensFrom_eq_ok_iff.2 ?_
    refine @Lexed.token _ [] 'l' ['e', 'n', ' ', '=', ' ', 'u', '8'] .ident 2 _ rfl rfl ?_
    refine @Lexed.token _ [' '] '=' [' ', 'u', '8'] .equals 0 _ rfl rfl ?_
    exact @Lexed.token _ [' '] 'u' ['8'] .ident 1 _ rfl rfl (.finish rfl)
  · refine tokensFrom_eq_ok_iff.2 ?_
    refine @Lexed.token _ [] 'l' ['e', 'n', ' ', '=', '\n', ' ', ' ', 'u', '8'] .ident 2 _ rfl rfl ?_
    refine @Lexed.token _ [' '] '=' ['\n', ' ', ' ', 'u', '8'] .equals 0 _ rfl rfl ?_
    exact @Lexed.token _ ['\n', ' ', ' '] 'u' ['8'] .ident 1 _ rfl rfl (.finish rfl)

/-- A type on the next line is the same type, and a keyword without its payload lacks it at every place. -/
theorem parse_of_alike_len :
    let g : Grammar := .terminated (.attrs ⟨"packet", [⟨"len", .value (.payload .type)⟩]⟩)
    let word (p : Position) : List Tree := [.token (.word "len" p)]
    (∃ node, g.parse "len = u8" = .ok node) ∧
      SameOutcome SourceFailure.SameRejection (g.parse "len =\n  u8") (g.parse "len = u8") ∧
      g.parseTrees (word ⟨1, 1⟩) ⟨1, 4⟩ =
        .error (.rejected ⟨.missingPayload, .noPayload .value "len" .nothing, ⟨1, 4⟩⟩) ∧
      SameOutcome Failure.SameRejection (g.parseTrees (word ⟨7, 7⟩) ⟨9, 1⟩) (g.parseTrees (word ⟨1, 1⟩) ⟨1, 4⟩) := by
  intro g word
  have specialised : g.misuses = [] := by decide
  obtain ⟨inLine, behindLine⟩ := tokenize_len
  have lexed : ∀ t ∈ Tree.leavesAll (word ⟨1, 1⟩), t.IsLexed := by
    intro t member
    obtain rfl := List.mem_singleton.1 member
    exact ⟨_, _, inLine, List.mem_cons_self⟩
  have isRead : ∃ node, g.parse "len = u8" = .ok node :=
    ⟨_, parse_eq_ok_iff.2 ⟨_, _, _, treesOf_of_tokens inLine, rfl⟩⟩
  obtain ⟨onTrees, onSources⟩ := parse_of_alike specialised
  exact ⟨isRead, onSources _ _ _ _ behindLine inLine rfl, rfl, onTrees _ _ _ _ lexed rfl⟩

end Grammar

end AttrGrammar
