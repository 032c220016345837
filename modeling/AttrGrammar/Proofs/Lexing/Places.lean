import AttrGrammar.Proofs.Lexing.Layout

/-!
Contract: the places that a source has.

Owns:
- which lines and columns the places of a source have;
- that tokens are at places of their source;
- the place of the fault of a source that has no tokens: a character behind whole tokens.
-/

namespace AttrGrammar

/-! ## Places of characters -/

namespace Position

/-- Whether a place is that of a character of a source, or of its end. -/
def IsIn (cs : List Char) (p : Position) : Prop :=
  ∃ before, before <+: cs ∧ p = .behind before

section IsIn

variable {cs : List Char} {p : Position}

theorem isIn_behind (before later : List Char) : IsIn (before ++ later) (.behind before) :=
  ⟨before, List.prefix_append before later, rfl⟩

theorem IsIn.ne_nowhere (isIn : p.IsIn cs) : p ≠ .nowhere := by
  obtain ⟨before, -, rfl⟩ := isIn
  intro same
  have noLine : 1 + before.count '\n' = 0 := congrArg line same
  omega

theorem IsIn.line_eq_one (isIn : p.IsIn cs) (oneLine : '\n' ∉ cs) : p.line = 1 := by
  obtain ⟨before, isPrefix, rfl⟩ := isIn
  have none : before.count '\n' = 0 :=
    List.count_eq_zero.2 fun member => oneLine (isPrefix.subset member)
  simp only [behind, none]

end IsIn

end Position

/-! ## Places of tokens -/

namespace Lexer

/-- Tokens are at places of their source. -/
theorem Lexed.isIn {cs : List Char} {tokens : List Token} (lexed : Lexed .start cs tokens) :
    ∀ t ∈ tokens, t.position.IsIn cs := by
  intro t member
  obtain ⟨pieces, last, split, rfl, -, stand⟩ := lexed.layout [] rfl
  rcases List.mem_append.1 member with isPiece | isEnd
  · obtain ⟨p, isAmong, rfl⟩ := List.mem_map.1 isPiece
    obtain ⟨front, back, shape⟩ := List.append_of_mem isAmong
    rw [(stand front p back shape).position_eq, split, shape]
    simpa [Piece.chars] using Position.isIn_behind (front.flatMap Piece.chars ++ p.gap)
      (p.token.text.toList ++ (back.flatMap Piece.chars ++ last))
  · obtain rfl := List.mem_singleton.1 isEnd
    simpa [Token.atEnd] using Position.isIn_behind cs []

end Lexer

/-! ## Faults -/

/-- Whether a place is that of a character of a source that starts no token: in front of it are whole tokens and gaps,
and it belongs to none of them. -/
def IsFaultPlace (source : String) (p : Position) : Prop :=
  ∃ (pieces : List Piece) (gap : List Char) (c : Char) (more : List Char),
    source.toList = pieces.flatMap Piece.chars ++ gap ++ c :: more ∧
    (∀ front piece back, pieces = front ++ piece :: back →
      piece.Stands (front.flatMap Piece.chars) (back.flatMap Piece.chars ++ gap ++ c :: more)) ∧
    Lexer.IsGap (c :: more) gap ∧
    c ∉ [' ', '\t', '\r', '\n'] ∧
    (∃ fault, Lexer.scan c more = .error fault) ∧
    p = .behind (pieces.flatMap Piece.chars ++ gap)

theorem IsFaultPlace.isIn {source : String} {p : Position} (isPlace : IsFaultPlace source p) :
    p.IsIn source.toList := by
  obtain ⟨pieces, gap, c, more, split, -, -, -, -, rfl⟩ := isPlace
  rw [split]
  exact Position.isIn_behind _ _

/-- The fault of a source that has no tokens is at such a character. -/
theorem isFaultPlace_of_tokenize {source : String} {e : LexError} (fails : tokenize source = .error e) :
    IsFaultPlace source e.position := by
  obtain ⟨tokens, finish, gap, c, more, scans, isGap, scanned, place⟩ :=
    Lexer.tokensFrom_eq_error_iff.1 fails
  obtain ⟨pieces, split, -, isFinish, stand⟩ := scans.layout [] rfl
  refine ⟨pieces, gap, c, more, ?_, ?_, Lexer.isGap_of_gapLength isGap, ?_, ⟨_, scanned⟩, ?_⟩
  · rw [split, List.append_assoc]
  · intro front piece back shape
    simpa using stand front piece back shape
  · rw [← Lexer.isBlank_iff, Lexer.isBlank_of_gapLength isGap]
    exact Bool.false_ne_true
  · rw [place, isFinish, Position.after_behind, List.nil_append]

end AttrGrammar
