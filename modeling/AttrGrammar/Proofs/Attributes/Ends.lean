import AttrGrammar.Proofs.Attributes.Walks
import AttrGrammar.Proofs.Lexing.Layout
import AttrGrammar.Proofs.Trees.RoundTrip

/-!
Contract: trees that come without the source that they stood in are read as they are with it, but for a last token that
is on several lines.

Owns:
- sources that end with their last token, and reading the trees of a source without it;
- when the place behind the last tree is the end of the source;
- what a grammar yields for trees with their source and without.

Behind a token that contains a line feed the place is taken for one in the line where the token starts. That line ends
before it, and only failures at the end of the trees show it.
-/

namespace AttrGrammar

open Cursor Lexer Reader

/-! ## Places behind characters -/

namespace Position

theorem line_after (p : Position) (cs : List Char) : (p.after cs).line = p.line + cs.count '\n' := by
  induction cs generalizing p with
  | nil => rfl
  | cons c cs inductionHypothesis =>
      rw [after_cons, inductionHypothesis, next]
      by_cases newline : c = '\n'
      · subst newline
        simp only [if_true, List.count_cons_self]
        omega
      · rw [if_neg newline, List.count_cons_of_ne newline]

theorem after_of_line {cs : List Char} (oneLine : '\n' ∉ cs) (p : Position) :
    p.after cs = ⟨p.line, p.column + cs.length⟩ := by
  induction cs generalizing p with
  | nil => rfl
  | cons c cs inductionHypothesis =>
      obtain ⟨notNewline, later⟩ := not_or.1 (mt List.mem_cons.2 oneLine)
      rw [after_cons, inductionHypothesis later, next, if_neg (Ne.symm notNewline), List.length_cons]
      simp only [Nat.add_assoc, Nat.add_comm 1]

/-- The place behind characters is as many columns further in the same line exactly if they are on one line. -/
theorem after_eq_iff (p : Position) (cs : List Char) :
    p.after cs = ⟨p.line, p.column + cs.length⟩ ↔ '\n' ∉ cs := by
  refine ⟨fun same newline => ?_, fun oneLine => after_of_line oneLine p⟩
  have sameLine := (p.line_after cs).symm.trans (congrArg line same)
  have some := List.count_pos_iff.2 newline
  simp only at sameLine
  omega

end Position

/-! ## Last tokens -/

/-- Whether a source is empty, or ends with its last token. -/
def EndsInToken (source : String) : Prop :=
  source = "" ∨ ∃ (front : List Token) (last : Token) (finish : Position) (before : List Char),
    tokenize source = .ok (front ++ [last, Token.atEnd finish]) ∧
      source.toList = before ++ last.text.toList ∧ last.position = .behind before

/-- Whether the last one of some trees does not contain a line feed, unless inside a group. -/
def Tree.EndOnOneLine (trees : List Tree) : Prop :=
  ∀ t, trees.getLast? = some (.token t) → '\n' ∉ t.text.toList

namespace Tree

theorem flatten_ne_nil (tree : Tree) : tree.flatten ≠ [] := by
  cases tree <;> simp [flatten]

theorem flattenAll_eq_nil_iff {trees : List Tree} : flattenAll trees = [] ↔ trees = [] := by
  cases trees with
  | nil => simp [flattenAll]
  | cons tree later => simp [flattenAll, flatten_ne_nil]

/-- The place behind trees is the one behind the last token that they are flattened to, if that is on one line. -/
theorem finishAll_eq_iff {trees : List Tree} {front : List Token} {last : Token}
    (flat : flattenAll trees = front ++ [last]) :
    finishAll trees = last.position.after last.text.toList ↔ EndOnOneLine trees := by
  rcases trees.eq_nil_or_concat with rfl | ⟨before, tree, rfl⟩
  · simp [flattenAll] at flat
  rw [List.concat_eq_append, flattenAll_append] at flat
  unfold finishAll EndOnOneLine
  rw [List.concat_eq_append, List.getLast?_concat]
  cases tree with
  | token t =>
      obtain rfl : t = last := by simpa [flattenAll, flatten] using List.append_inj_right' flat rfl
      show (⟨t.position.line, t.position.column + t.text.length⟩ : Position) = _ ↔ _
      rw [← String.length_toList, eq_comm, Position.after_eq_iff]
      constructor
      · intro oneLine u same
        obtain rfl := Tree.token.inj (Option.some.inj same)
        exact oneLine
      · exact fun oneLine => oneLine t rfl
  | group delimiter opening closing inner =>
      -- A closing bracket is a token of one character, at the place that the group keeps.
      have isClosing : last = ⟨delimiter.closeKind, delimiter.closeText, closing, false⟩ := by
        rw [flattenAll, flatten, flattenAll, List.append_nil, ← List.append_assoc] at flat
        exact (List.singleton_inj.1 (List.append_inj_right' flat rfl)).symm
      have behind : closing.after delimiter.closeText.toList = ⟨closing.line, closing.column + 1⟩ := by
        cases delimiter <;> rfl
      rw [isClosing, behind]
      refine iff_of_true rfl fun t same => ?_
      cases same

end Tree

/-! ## Reading without the source -/

namespace Grammar

/-- Reads the trees of a source as trees that come without it. -/
def parseByTrees (g : Grammar) (source : String) : Except SourceFailure Parsed := do
  let (trees, _) ← (treesOf source).mapError .source
  (g.parseTrees trees (Tree.finishAll trees)).mapError .failure

section Sources

variable {g : Grammar} {source : String} {trees : List Tree} {finish : Position}

theorem parseByTrees_of_error {e : SourceError} (fails : treesOf source = .error e) :
    g.parseByTrees source = .error (.source e) := by
  rw [parseByTrees, fails]
  rfl

theorem parseByTrees_of_trees (isRead : treesOf source = .ok (trees, finish)) :
    g.parseByTrees source = (g.parseTrees trees (Tree.finishAll trees)).mapError .failure := by
  rw [parseByTrees, isRead]
  rfl

end Sources

end Grammar

/-- The place behind the last tree of a source that ends with its last token is the end of the source exactly if that
token is on one line, unless it closes a group. -/
theorem EndsInToken.finishAll_eq_iff {source : String} {trees : List Tree} {finish : Position}
    (ends : EndsInToken source) (isRead : treesOf source = .ok (trees, finish)) :
    Tree.finishAll trees = finish ↔ Tree.EndOnOneLine trees := by
  have lexed := tokenize_of_treesOf isRead
  obtain rfl := (treesOf_eq_ok_iff.1 isRead).1
  rcases ends with rfl | ⟨front, last, finish, before, lexed', split, isPlace⟩
  · have noTokens : tokenize "" = .ok [Token.atEnd .start] := tokensFrom_eq_ok_iff.2 (.finish rfl)
    have flat : Tree.flattenAll trees = [] :=
      List.append_inj_left' (Except.ok.inj (lexed.symm.trans noTokens)) rfl
    rw [Tree.flattenAll_eq_nil_iff.1 flat]
    refine iff_of_true rfl fun t same => ?_
    cases same
  · have flat : Tree.flattenAll trees = front ++ [last] := by
      have same := Except.ok.inj (lexed.symm.trans lexed')
      rw [List.append_cons front] at same
      exact List.append_inj_left' same rfl
    have behind : Position.start.after source.toList = last.position.after last.text.toList := by
      rw [isPlace, Position.after_behind, ← split]
      exact Position.after_behind [] _
    rw [behind, Tree.finishAll_eq_iff flat]

/-- The trees of a source that ends with its last token are read the same without the source, if that token is on one
line or closes a group: then the place behind the last tree is the end of the source. If it is not, a grammar still
yields the same node, and fails alike, but for a failure at the end, which is the same at the other end. -/
theorem Grammar.parseByTrees_of_endsInToken {source : String} (ends : EndsInToken source) :
    (∀ trees finish, treesOf source = .ok (trees, finish) →
      (Tree.finishAll trees = finish ↔ Tree.EndOnOneLine trees)) ∧
    ∀ g : Grammar,
      ((∀ trees finish, treesOf source = .ok (trees, finish) → Tree.EndOnOneLine trees) →
        g.parseByTrees source = g.parse source) ∧
      (∀ node, g.parseByTrees source = .ok node ↔ g.parse source = .ok node) ∧
      ∀ failure, g.parse source = .error failure → ∃ failure', g.parseByTrees source = .error failure' ∧
        (failure' = failure ∨ ∃ trees finish kind problem, treesOf source = .ok (trees, finish) ∧
          failure' = .failure (.rejected ⟨kind, problem, Tree.finishAll trees⟩) ∧
          failure = .failure (.rejected ⟨kind, problem, finish⟩)) := by
  refine ⟨fun trees finish isRead => ends.finishAll_eq_iff isRead, fun g => ?_⟩
  cases isRead : treesOf source with
  | error e =>
      rw [parse_of_error isRead, parseByTrees_of_error isRead]
      exact ⟨fun _ => rfl, fun _ => Iff.rfl, fun failure fails => ⟨failure, fails, .inl rfl⟩⟩
  | ok read =>
      obtain ⟨trees, finish⟩ := read
      rw [parse_of_trees isRead, parseByTrees_of_trees isRead]
      refine ⟨fun oneLine => ?_, fun node => ?_, fun failure fails => ?_⟩
      · rw [(ends.finishAll_eq_iff isRead).2 (oneLine trees finish rfl)]
      · rw [Reader.mapError_eq_ok_iff, Reader.mapError_eq_ok_iff]
        exact ⟨fun parsed => parseTrees_of_ok parsed finish, fun parsed => parseTrees_of_ok parsed _⟩
      · obtain ⟨f, failsHere, rfl⟩ := Reader.mapError_eq_error_iff.1 fails
        obtain ⟨f', fails', same⟩ := parseTrees_of_error failsHere (Tree.finishAll trees)
        refine ⟨.failure f', Reader.mapError_eq_error_iff.2 ⟨f', fails', rfl⟩, ?_⟩
        rcases same with rfl | ⟨kind, problem, rfl, rfl⟩
        · exact .inl rfl
        · exact .inr ⟨trees, finish, kind, problem, rfl, rfl, rfl⟩

/-- The trees of `V<"a"`. -/
def openArgs : List Tree :=
  [.token ⟨.ident, "V", ⟨1, 1⟩, false⟩, .token ⟨.langle, "<", ⟨1, 2⟩, false⟩,
    .token ⟨.str, "\"a\"", ⟨1, 3⟩, false⟩]

/-- A text on one line, behind which the generic arguments should go on. -/
theorem Grammar.parseByTrees_of_endsInToken_text :
    EndsInToken "V<\"a\"" ∧ (payload .type).parseByTrees "V<\"a\"" = (payload .type).parse "V<\"a\"" := by
  have isRead : treesOf "V<\"a\"" = .ok (openArgs, ⟨1, 6⟩) := by
    refine treesOf_eq_ok_iff_lexed.2 ⟨?_, by decide⟩
    refine @Lexed.token _ [] 'V' ['<', '"', 'a', '"'] .ident 0 _ rfl (by rfl) ?_
    refine @Lexed.token _ [] '<' ['"', 'a', '"'] .langle 0 _ rfl rfl ?_
    exact @Lexed.token _ [] '"' ['a', '"'] .str 2 _ rfl rfl (.finish rfl)
  have ends : EndsInToken "V<\"a\"" :=
    .inr ⟨[⟨.ident, "V", ⟨1, 1⟩, false⟩, ⟨.langle, "<", ⟨1, 2⟩, false⟩], _, _, ['V', '<'],
      tokenize_of_treesOf isRead, rfl, rfl⟩
  refine ⟨ends, ((parseByTrees_of_endsInToken ends).2 (payload .type)).1 fun trees finish read t last => ?_⟩
  obtain ⟨rfl, -⟩ := Prod.mk.inj (Except.ok.inj (isRead.symm.trans read))
  obtain rfl := Tree.token.inj (Option.some.inj last)
  decide

/-- The trees of `V<"a` and `b"`, the text being broken in two. -/
def brokenText : List Tree :=
  [.token ⟨.ident, "V", ⟨1, 1⟩, false⟩, .token ⟨.langle, "<", ⟨1, 2⟩, false⟩,
    .token ⟨.str, "\"a\nb\"", ⟨1, 3⟩, false⟩]

theorem treesOf_brokenText : treesOf "V<\"a\nb\"" = .ok (brokenText, ⟨2, 3⟩) := by
  refine treesOf_eq_ok_iff_lexed.2 ⟨?_, by decide⟩
  refine @Lexed.token _ [] 'V' ['<', '"', 'a', '\n', 'b', '"'] .ident 0 _ rfl (by rfl) ?_
  refine @Lexed.token _ [] '<' ['"', 'a', '\n', 'b', '"'] .langle 0 _ rfl rfl ?_
  exact @Lexed.token _ [] '"' ['a', '\n', 'b', '"'] .str 4 _ rfl rfl (.finish rfl)

/-- Behind a literal there has to be a comma or the end of the generic arguments. -/
theorem Grammar.parseTrees_brokenText (finish : Position) :
    (payload .type).parseTrees brokenText finish = .error (.rejected
      ⟨.malformedItem, .missing (.token .rangle) " to close generic arguments" .nothing, finish⟩) := by
  obtain ⟨l, decoded⟩ : ∃ l, Literal.decode .str "\"a\nb\"" = .ok l :=
    ⟨⟨.str ("a\nb".toList.map CodePoint.ofChar), ""⟩, by cbv⟩
  let ahead : Cursor := .ofTrees brokenText finish
  have isLiteral : literal? (ahead.skip 2) =
      .ok (some ⟨l, ⟨.str, "\"a\nb\"", ⟨1, 3⟩, false⟩⟩) (ahead.skip 3) := by
    rw [literal?_of_literal rfl rfl, decoded]
    rfl
  have isArg : TypeExpr.readArg 9 (ahead.skip 2) = .ok (.literal l ⟨1, 3⟩) (ahead.skip 3) :=
    bind_of_ok (c := ahead.skip 2) (r := literal?) isLiteral
  let failure : Failure := .rejected
    ⟨.malformedItem, .missing (.token .rangle) " to close generic arguments" .nothing, finish⟩
  have noArgs : TypeExpr.readArgs 10 (ahead.skip 2) = .error failure (ahead.skip 3) :=
    bind_of_ok (c := ahead.skip 2) (r := TypeExpr.readArg 9) isArg
  have noSegments : TypeExpr.readSegments 11 ahead = .error failure (ahead.skip 3) :=
    bind_eq_error_iff.2 (.inr ⟨_, _, rfl, bind_eq_error_iff.2 (.inr ⟨_, _, rfl, bind_eq_error_iff.2 (.inl noArgs)⟩)⟩)
  have noType : TypeExpr.readAt 12 ahead = .error failure (ahead.skip 3) :=
    (bind_eq_error_iff (c := ahead) (r := TypeExpr.readSegments 11)).2 (.inl noSegments)
  have noPayload : Payload.type.read ahead = .error failure (ahead.skip 3) :=
    bind_eq_error_iff.2 (.inl (TypeExpr.read_eq_error_iff.2 noType))
  have fails : whole (payload .type).read ahead = .error failure (ahead.skip 3) := by
    rw [read]
    exact bind_eq_error_iff.2 (.inl (bind_eq_error_iff.2 (.inl noPayload)))
  rw [parseTrees_eq, outcome, fails]

/-- A text on two lines. -/
theorem Grammar.parseByTrees_ne_parse :
    EndsInToken "V<\"a\nb\"" ∧
    (payload .type).parse "V<\"a\nb\"" = .error (.failure (.rejected
      ⟨.malformedItem, .missing (.token .rangle) " to close generic arguments" .nothing, ⟨2, 3⟩⟩)) ∧
    (payload .type).parseByTrees "V<\"a\nb\"" = .error (.failure (.rejected
      ⟨.malformedItem, .missing (.token .rangle) " to close generic arguments" .nothing, ⟨1, 8⟩⟩)) := by
  refine ⟨.inr ⟨[⟨.ident, "V", ⟨1, 1⟩, false⟩, ⟨.langle, "<", ⟨1, 2⟩, false⟩], _, _, ['V', '<'],
    tokenize_of_treesOf treesOf_brokenText, rfl, rfl⟩, ?_, ?_⟩
  · rw [parse_of_trees treesOf_brokenText, parseTrees_brokenText]
    rfl
  · rw [parseByTrees_of_trees treesOf_brokenText, parseTrees_brokenText]
    rfl

end AttrGrammar
