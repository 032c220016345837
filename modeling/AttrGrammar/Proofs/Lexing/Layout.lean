import AttrGrammar.Proofs.Lexing.Lexed

/-!
Contract: the tokens of a source and the gaps between them are the whole source, and every place is right.

Owns:
- the place behind characters, as counts of lines and columns, and the order of places;
- how a token and the gap in front of it stand in a source;
- the layout of what a run of the lexer reads, and of every source that has tokens.
-/

namespace AttrGrammar

/-! ## Places -/

namespace Position

/-- The place behind the characters at the start of a source. -/
def behind (before : List Char) : Position :=
  ⟨1 + before.count '\n', 1 + (before.reverse.takeWhile (· ≠ '\n')).length⟩

/-- Whether a place is in an earlier line than another, or further left in the same line. -/
def Before (p q : Position) : Prop :=
  p.line < q.line ∨ p.line = q.line ∧ p.column < q.column

theorem next_behind (before : List Char) (c : Char) :
    (behind before).next c = behind (before ++ [c]) := by
  by_cases newline : c = '\n'
  · subst newline
    simp [behind, next, Nat.add_assoc]
  · simp [behind, next, newline, Nat.add_assoc]

theorem after_behind (before cs : List Char) :
    (behind before).after cs = behind (before ++ cs) := by
  induction cs generalizing before with
  | nil => simp
  | cons c cs inductionHypothesis =>
      rw [after_cons, next_behind, inductionHypothesis, List.append_assoc, List.singleton_append]

theorem Before.trans {p q r : Position} (first : p.Before q) (second : q.Before r) :
    p.Before r := by
  unfold Before at *
  omega

theorem before_next (p : Position) (c : Char) : p.Before (p.next c) := by
  unfold next Before
  split <;> simp

/-- Reading characters leads to a later place. -/
theorem before_after (p : Position) {cs : List Char} (some : cs ≠ []) : p.Before (p.after cs) := by
  induction cs generalizing p with
  | nil => exact absurd rfl some
  | cons c cs inductionHypothesis =>
      by_cases more : cs = []
      · subst more
        exact before_next p c
      · exact (before_next p c).trans (inductionHypothesis (p.next c) more)

theorem atMost_after (p : Position) (cs : List Char) :
    p.after cs = p ∨ p.Before (p.after cs) := by
  by_cases none : cs = []
  · exact .inl (none ▸ rfl)
  · exact .inr (p.before_after none)

end Position

/-! ## Pieces -/

/-- A token with the gap in front of it. -/
structure Piece where
  gap : List Char
  token : Token

namespace Piece

/-- The characters of a gap and a token. -/
def chars (p : Piece) : List Char :=
  p.gap ++ p.token.text.toList

/-- Whether a gap and a token are as they have to be between the characters before and behind them. -/
structure Stands (before later : List Char) (p : Piece) : Prop where
  isGap : Lexer.IsGap (p.token.text.toList ++ later) p.gap
  hasText : p.token.text.toList ≠ []
  isNoEnd : p.token.kind ≠ .eof
  position_eq : p.token.position = Position.behind (before ++ p.gap)
  joint_iff : p.token.joint ↔ p.token.kind = .rangle ∧ later.head? = some '>'

end Piece

namespace Lexer

theorem isGap_of_gapLength {gap later : List Char}
    (isGap : gapLength false (gap ++ later) = gap.length) : IsGap later gap := by
  have split := (isGap_take (gap ++ later)).1
  rwa [isGap, List.drop_left, List.take_left] at split

theorem stands_tokenAt {before gap more : List Char} {c : Char} {kind : TokenKind} {length : Nat}
    (isGap : gapLength false (gap ++ c :: more) = gap.length)
    (scanned : scan c more = .ok (kind, length)) :
    Piece.Stands before (more.drop length) ⟨gap,
      tokenAt kind ((Position.behind before).after gap) (c :: more.take length)
        (more.drop length)⟩ where
  isGap := by simpa [tokenAt] using isGap_of_gapLength isGap
  hasText := by simp [tokenAt]
  isNoEnd := scan_ne_eof scanned
  position_eq := Position.after_behind before gap
  joint_iff := by simp [tokenAt]

/-- A run of the lexer reads pieces, which stand in the source as they have to. -/
theorem Scans.layout {start finish : Position} {cs later : List Char} {tokens : List Token}
    (scans : Scans start cs tokens finish later) (before : List Char) (isStart : start = .behind before) :
    ∃ pieces : List Piece,
      cs = pieces.flatMap Piece.chars ++ later ∧
      tokens = pieces.map Piece.token ∧
      finish = .behind (before ++ pieces.flatMap Piece.chars) ∧
      ∀ front p back, pieces = front ++ p :: back →
        p.Stands (before ++ front.flatMap Piece.chars) (back.flatMap Piece.chars ++ later) := by
  induction scans generalizing before with
  | nothing => exact ⟨[], rfl, rfl, by simpa using isStart, by simp⟩
  | @token start finish gap later c more kind length tokens isGap scanned rest inductionHypothesis =>
      subst isStart
      obtain ⟨pieces, split, same, isFinish, stand⟩ :=
        inductionHypothesis (before ++ gap ++ c :: more.take length) (by
          rw [Position.after_behind, Position.after_behind])
      generalize isToken : tokenAt kind ((Position.behind before).after gap)
        (c :: more.take length) (more.drop length) = t
      have textOf : t.text.toList = c :: more.take length := by simp [← isToken, tokenAt]
      refine ⟨⟨gap, t⟩ :: pieces, ?_, ?_, ?_, ?_⟩
      · simp [Piece.chars, textOf, ← split]
      · simp [same]
      · simpa [Piece.chars, textOf] using isFinish
      · intro front p back shape
        cases front with
        | nil =>
            obtain ⟨rfl, rfl⟩ := List.cons.inj shape
            rw [← split, ← isToken]
            simpa using stands_tokenAt isGap scanned
        | cons q front =>
            obtain ⟨rfl, tail⟩ := List.cons.inj shape
            have stands := stand front p back tail
            simpa [Piece.chars, textOf] using stands

/-- The rest of a source consists of pieces and a last gap, and its tokens are those of the pieces and the end. -/
theorem Lexed.layout {start : Position} {cs : List Char} {tokens : List Token}
    (lexed : Lexed start cs tokens) (before : List Char) (isStart : start = .behind before) :
    ∃ (pieces : List Piece) (last : List Char),
      cs = pieces.flatMap Piece.chars ++ last ∧
      tokens = pieces.map Piece.token ++ [Token.atEnd (.behind (before ++ cs))] ∧
      IsGap [] last ∧
      ∀ front p back, pieces = front ++ p :: back →
        p.Stands (before ++ front.flatMap Piece.chars) (back.flatMap Piece.chars ++ last) := by
  obtain ⟨ts, finish, last, scans, onlyGap, rfl⟩ := lexed.scans
  obtain ⟨pieces, split, rfl, isFinish, stand⟩ := scans.layout before isStart
  have isLast : IsGap [] last := isGap_of_gapLength (by rw [List.append_nil, onlyGap])
  refine ⟨pieces, last, split, ?_, isLast, stand⟩
  rw [isFinish, Position.after_behind, List.append_assoc, ← split]

theorem Lexed.positions {start : Position} {cs : List Char} {tokens : List Token}
    (lexed : Lexed start cs tokens) :
    (∀ t ∈ tokens, t.position = start ∨ start.Before t.position) ∧
      tokens.Pairwise fun t u => t.position.Before u.position := by
  induction lexed with
  | @finish start cs onlyGap =>
      refine ⟨fun t member => ?_, List.pairwise_singleton ..⟩
      obtain rfl := List.mem_singleton.1 member
      exact start.atMost_after cs
  | @token start gap c more kind length tokens isGap scanned rest inductionHypothesis =>
      obtain ⟨later, increasing⟩ := inductionHypothesis
      have behindToken : ∀ u ∈ tokens, (start.after gap).Before u.position := by
        intro u member
        have strict := (start.after gap).before_after (List.cons_ne_nil c (more.take length))
        rcases later u member with same | behind
        · rwa [same]
        · exact strict.trans behind
      refine ⟨fun t member => ?_, List.pairwise_cons.2 ⟨behindToken, increasing⟩⟩
      rcases List.mem_cons.1 member with rfl | member
      · exact start.atMost_after gap
      · rcases start.atMost_after gap with same | front
        · exact .inr (same ▸ behindToken t member)
        · exact .inr (front.trans (behindToken t member))

end Lexer

/-- Where a source has tokens, it consists of them and of gaps, and the last token marks its end. Tokens are at the
places that their texts have in the source, in strictly increasing order, and a token is joint exactly if it is a `>`
with another one directly behind it. -/
theorem tokenize_layout {source : String} {tokens : List Token}
    (lexed : tokenize source = .ok tokens) :
    ∃ (pieces : List Piece) (last : List Char),
      source.toList = pieces.flatMap Piece.chars ++ last ∧
      tokens = pieces.map Piece.token ++ [Token.atEnd (.behind source.toList)] ∧
      Lexer.IsGap [] last ∧
      (∀ front p back, pieces = front ++ p :: back →
        p.Stands (front.flatMap Piece.chars) (back.flatMap Piece.chars ++ last)) ∧
      tokens.Pairwise fun t u => t.position.Before u.position := by
  have isLexed := Lexer.tokensFrom_eq_ok_iff.1 lexed
  obtain ⟨pieces, last, split, same, isLast, stand⟩ := isLexed.layout [] rfl
  exact ⟨pieces, last, split, same, isLast, by simpa using stand, isLexed.positions.2⟩

/-- Two joint `>` behind a word and a blank. -/
theorem tokenize_layout_joint :
    ∃ (pieces : List Piece) (last : List Char),
      "a >>".toList = pieces.flatMap Piece.chars ++ last ∧
      [⟨.ident, "a", ⟨1, 1⟩, false⟩, ⟨.rangle, ">", ⟨1, 3⟩, true⟩, ⟨.rangle, ">", ⟨1, 4⟩, false⟩,
          Token.atEnd ⟨1, 5⟩] =
        pieces.map Piece.token ++ [Token.atEnd (.behind "a >>".toList)] := by
  have lexed : tokenize "a >>" = .ok [⟨.ident, "a", ⟨1, 1⟩, false⟩,
      ⟨.rangle, ">", ⟨1, 3⟩, true⟩, ⟨.rangle, ">", ⟨1, 4⟩, false⟩, Token.atEnd ⟨1, 5⟩] := by
    refine Lexer.tokensFrom_eq_ok_iff.2 ?_
    refine @Lexer.Lexed.token _ [] 'a' [' ', '>', '>'] .ident 0 _ rfl (by rfl) ?_
    refine @Lexer.Lexed.token _ [' '] '>' ['>'] .rangle 0 _ rfl rfl ?_
    exact @Lexer.Lexed.token _ [] '>' [] .rangle 0 _ rfl rfl (.finish rfl)
  obtain ⟨pieces, last, split, same, -⟩ := tokenize_layout lexed
  exact ⟨pieces, last, split, same⟩

end AttrGrammar
