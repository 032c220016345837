import AttrGrammar.Lint
import AttrGrammar.Proofs.Attributes.Failures
import AttrGrammar.Proofs.Lexing.Places
import AttrGrammar.Proofs.Trees.RoundTrip

/-!
Contract: every error points into its source.

Owns:
- that brackets which do not balance are reported at one of the tokens;
- that trees of a source are rejected at one of its tokens, whatever grammar they are read by;
- the places of all errors, and those of what is found wrong with a line.
-/

namespace AttrGrammar

/-! ## Brackets -/

namespace Grouping

/-- Brackets that do not balance are reported at a token, or at the opening bracket of a group that was open. -/
theorem exists_of_treesFrom_error {tokens : List Token} {e : TreeError} :
    ∀ {opened : List OpenGroup} {current : List Tree}, treesFrom opened current tokens = .error e →
      ∃ t, (t ∈ tokens ∨ t ∈ opened.map OpenGroup.opener) ∧ t.position = e.position := by
  have unclosed {opened : List OpenGroup} {current : List Tree}
      (fails : finish opened current = .error e) :
      ∃ t, t ∈ opened.map OpenGroup.opener ∧ t.position = e.position := by
    cases opened with
    | nil => cases fails
    | cons innermost outer =>
        obtain rfl := Except.error.inj fails
        exact ⟨innermost.opener, by simp, rfl⟩
  induction tokens with
  | nil =>
      intro opened current fails
      obtain ⟨t, isOpener, place⟩ := unclosed fails
      exact ⟨t, .inr isOpener, place⟩
  | cons t later inductionHypothesis =>
      intro opened current fails
      rw [treesFrom] at fails
      split at fails
      · obtain ⟨u, isOpener, place⟩ := unclosed fails
        exact ⟨u, .inr isOpener, place⟩
      split at fails
      · obtain ⟨u, among, place⟩ := inductionHypothesis fails
        exact ⟨u, by simpa [or_assoc, or_left_comm] using among, place⟩
      · obtain ⟨u, among, place⟩ := inductionHypothesis fails
        exact ⟨u, among.imp_left (List.mem_cons_of_mem t), place⟩
      · split at fails
        · obtain rfl := Except.error.inj fails
          exact ⟨t, .inl List.mem_cons_self, rfl⟩
        · split at fails
          · obtain ⟨u, among, place⟩ := inductionHypothesis fails
            exact ⟨u, among.imp (List.mem_cons_of_mem t) (List.mem_cons_of_mem _), place⟩
          · obtain rfl := Except.error.inj fails
            exact ⟨t, .inl List.mem_cons_self, rfl⟩

end Grouping

/-! ## Tokens -/

/-- Whether a place is that of a token of a source, the end included. -/
def IsTokenPlace (source : String) (p : Position) : Prop :=
  ∃ tokens, tokenize source = .ok tokens ∧ ∃ t ∈ tokens, t.position = p

theorem IsTokenPlace.isIn {source : String} {p : Position} (isPlace : IsTokenPlace source p) :
    p.IsIn source.toList := by
  obtain ⟨tokens, lexed, t, member, rfl⟩ := isPlace
  exact (Lexer.tokensFrom_eq_ok_iff.1 lexed).isIn t member

/-- Tokens at some places, for which trees are rejected at one of the places. -/
def Blame.ofPlaces (isPlace : Position → Prop) : Blame where
  token t := isPlace t.position
  place := isPlace
  failure f := ∀ e, f = .rejected e → isPlace e.position
  place_of_token known := known
  failure_of_place known := by
    rintro e ⟨⟩
    exact known
  failure_of_literal {t fault} known _ := by
    rintro e isRejected
    cases fault <;> cases isRejected <;> exact known

section Errors

variable {source : String}

theorem isFaultPlace_of_lexical {e : LexError} (fails : treesOf source = .error (.lexical e)) :
    IsFaultPlace source e.position := by
  rcases treesOf_eq_error_iff.1 fails with ⟨fault, lexed, same⟩ | ⟨tokens, fault, -, -, same⟩
  · obtain rfl := SourceError.lexical.inj same
    exact isFaultPlace_of_tokenize lexed
  · cases same

theorem isTokenPlace_of_unbalanced {e : TreeError} (fails : treesOf source = .error (.unbalanced e)) :
    IsTokenPlace source e.position := by
  rcases treesOf_eq_error_iff.1 fails with ⟨fault, -, same⟩ | ⟨tokens, fault, lexed, grouped, same⟩
  · cases same
  · obtain rfl := SourceError.unbalanced.inj same
    obtain ⟨t, isToken | isOpener, place⟩ := Grouping.exists_of_treesFrom_error grouped
    · exact ⟨tokens, lexed, t, isToken, place⟩
    · cases isOpener

/-- The trees of a source are rejected at a token. -/
theorem isTokenPlace_of_rejected {g : Grammar} {trees : List Tree} {finish : Position} {e : ParseError}
    (isRead : treesOf source = .ok (trees, finish))
    (fails : g.parseTrees trees finish = .error (.rejected e)) : IsTokenPlace source e.position := by
  obtain ⟨lexed, -, -⟩ := flattenAll_of_treesOf isRead
  have isPlace {t : Token} (member : t ∈ Tree.flattenAll trees ++ [Token.atEnd finish]) :
      IsTokenPlace source t.position :=
    ⟨_, Lexer.tokensFrom_eq_ok_iff.2 lexed, t, member, rfl⟩
  have keeps : Reader.Keeps (.ofPlaces (IsTokenPlace source)) g.read := g.keeps_read fun m e same => nomatch same
  refine Grammar.failure_of_parseTrees keeps (fun t member => ?_) ?_ fails e rfl
  · exact isPlace (List.mem_append_left _ member)
  · exact isPlace (t := Token.atEnd finish) (List.mem_append_right _ List.mem_cons_self)

end Errors

/-! ## Failures -/

/-- The place that a failure is reported at, if it is. -/
def SourceFailure.place? : SourceFailure → Option Position
  | source e => some e.position
  | failure (.rejected e) => some e.position
  | failure _ => none

section Failures

variable {g : Grammar} {source : String}

theorem Grammar.treesOf_of_parse {e : SourceError} (fails : g.parse source = .error (.source e)) :
    treesOf source = .error e := by
  rcases Grammar.parse_eq_error_iff.1 fails with ⟨e', noTrees, same⟩ | ⟨trees, finish, -, f, -, same⟩
  · obtain rfl := SourceFailure.source.inj same
    exact noTrees
  · cases same

theorem isTokenPlace_of_parse {e : ParseError}
    (fails : g.parse source = .error (.failure (.rejected e))) : IsTokenPlace source e.position := by
  rcases Grammar.parse_eq_error_iff.1 fails with ⟨e', -, same⟩ | ⟨trees, finish, isRead, f, isRejected, same⟩
  · cases same
  · obtain rfl := SourceFailure.failure.inj same
    exact isTokenPlace_of_rejected isRead isRejected

/-- Failures are reported in the source. -/
theorem isIn_of_parse {failure : SourceFailure} {p : Position} (fails : g.parse source = .error failure)
    (isPlace : failure.place? = some p) : p.IsIn source.toList := by
  match failure, isPlace with
  | .source (.lexical e), rfl => exact (isFaultPlace_of_lexical (Grammar.treesOf_of_parse fails)).isIn
  | .source (.unbalanced e), rfl =>
      exact (isTokenPlace_of_unbalanced (Grammar.treesOf_of_parse fails)).isIn
  | .failure (.rejected e), rfl => exact (isTokenPlace_of_parse fails).isIn

/-- What is found wrong with a line is in it. -/
theorem Lint.isIn_of_line? {finding : Finding} (found : Lint.line? g source = .ok (some finding)) :
    finding.position.IsIn source.toList := by
  unfold Lint.line? Lint.check parseAttributes at found
  cases result : Grammar.parse (.terminated g) source with
  | ok parsed =>
      rw [result] at found
      cases found
  | error failure =>
      rw [result] at found
      match failure, found with
      | .source e, rfl => exact isIn_of_parse result rfl
      | .failure (.rejected e), rfl => exact isIn_of_parse result rfl

end Failures

end AttrGrammar
