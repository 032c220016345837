import AttrGrammar.Token.Lexer

/-!
Contract: how a source and its tokens are laid out, as a relation.

Owns:
- what stands between tokens;
- the rules by which single tokens are scanned, and which kinds of tokens are spelled in one way;
- the relation between the rest of a source and its tokens, one rule for each way on, and that the lexer
  computes it;
- the runs of the lexer up to a place, and the fault that it reports where a run cannot go on.

Does not own: the texts of words and literals.
-/

namespace AttrGrammar

namespace Lexer

/-! ## Gaps -/

/-- Whether characters in front of others stand between tokens: they are blanks, and comments that run to the end of
their line or of the source. -/
inductive IsGap (later : List Char) : List Char → Prop where
  | nil : IsGap later []
  | blank {c : Char} {cs : List Char} (isBlank : c ∈ [' ', '\t', '\r', '\n'])
      (rest : IsGap later cs) : IsGap later (c :: cs)
  | comment {body cs : List Char} (inLine : '\n' ∉ body) (rest : IsGap later cs) :
      IsGap later ('/' :: '/' :: body ++ '\n' :: cs)
  | lastComment {body : List Char} (atEnd : later = []) (inLine : '\n' ∉ body) :
      IsGap later ('/' :: '/' :: body)

theorem isBlank_iff {c : Char} : isBlank c ↔ c ∈ [' ', '\t', '\r', '\n'] := by
  simp [isBlank, or_assoc]

/-- Within a comment, a gap goes on behind the end of the line, or the source ends first. -/
def IsCommentGap (later cs : List Char) : Prop :=
  (∃ body gap, cs = body ++ '\n' :: gap ∧ '\n' ∉ body ∧ IsGap later gap) ∨
    (later = [] ∧ '\n' ∉ cs)

theorem IsCommentGap.cons {later cs : List Char} {c : Char} (gap : IsCommentGap later cs)
    (inLine : c ≠ '\n') : IsCommentGap later (c :: cs) := by
  rcases gap with ⟨body, gap, rfl, bodyInLine, isGap⟩ | ⟨atEnd, restInLine⟩
  · exact .inl ⟨c :: body, gap, rfl, by simp [bodyInLine, inLine.symm], isGap⟩
  · exact .inr ⟨atEnd, by simp [restInLine, inLine.symm]⟩

/-- The second slash of a comment is in its line. -/
theorem IsCommentGap.isGap {later cs : List Char} (gap : IsCommentGap later ('/' :: cs)) :
    IsGap later ('/' :: '/' :: cs) := by
  rcases gap with ⟨body, gap, shape, inLine, isGap⟩ | ⟨atEnd, inLine⟩
  · cases body with
    | nil => cases shape
    | cons slash body =>
        obtain ⟨rfl, rfl⟩ := List.cons.inj shape
        exact .comment (fun member => inLine (List.mem_cons_of_mem _ member)) isGap
  · exact .lastComment atEnd fun member => inLine (List.mem_cons_of_mem _ member)

theorem isGap_take (cs : List Char) :
    IsGap (cs.drop (gapLength false cs)) (cs.take (gapLength false cs)) ∧
      IsCommentGap (cs.drop (gapLength true cs)) (cs.take (gapLength true cs)) := by
  induction cs with
  | nil => exact ⟨.nil, .inr ⟨rfl, by simp [gapLength]⟩⟩
  | cons c cs inductionHypothesis =>
      obtain ⟨isGap, isCommentGap⟩ := inductionHypothesis
      constructor
      · by_cases blank : isBlank c
        · simpa [gapLength, blank] using IsGap.blank (isBlank_iff.1 blank) isGap
        · by_cases slashes : c = '/' ∧ cs.head? = some '/'
          · obtain ⟨rfl, second⟩ := slashes
            obtain ⟨more, rfl⟩ : ∃ more, cs = '/' :: more := by
              cases cs <;> simp_all
            have opened : gapLength true ('/' :: more) = gapLength true more + 1 := by
              simp [gapLength]
            rw [opened] at isCommentGap
            simpa [gapLength, blank, opened] using isCommentGap.isGap
          · simpa [gapLength, blank, slashes] using IsGap.nil
      · by_cases newline : c = '\n'
        · subst newline
          have closed : IsCommentGap (cs.drop (gapLength false cs))
              ('\n' :: cs.take (gapLength false cs)) := .inl ⟨[], _, rfl, by simp, isGap⟩
          simpa [gapLength] using closed
        · simpa [gapLength, newline] using isCommentGap.cons newline

/-! ## Scanners -/

/-- Whether a character starts a token that is neither a word nor a literal, if it starts one. -/
structure IsOther (c : Char) : Prop where
  notWord : startsWord c = false
  notDigit : Unicode.isDigit c = false
  notQuote : c ≠ '"' ∧ c ≠ '\''

/-- How a token is scanned that starts with a character, given the characters behind that: the ways in which scanning
succeeds, of which at most one is open to each character. -/
inductive ScanRule : Char → List Char → TokenKind → Nat → Prop where
  | byteStr {more : List Char} {length : Nat} (closes : quotedLength? '"' more = some length) :
      ScanRule 'b' ('"' :: more) .byteStr (length + 1)
  | byte {more : List Char} {length : Nat} (closes : quotedLength? '\'' more = some length) :
      ScanRule 'b' ('\'' :: more) .byte (length + 1)
  | word {c : Char} {more : List Char} (starts : startsWord c)
      (noPrefix : c = 'b' → more.head? ≠ some '"' ∧ more.head? ≠ some '\'') :
      ScanRule c more .ident (runLength continuesWord more)
  | number {c : Char} {more : List Char} {kind : TokenKind} {length : Nat} (notWord : startsWord c = false)
      (isDigit : Unicode.isDigit c) (isNumber : scanNumber c more = (kind, length)) :
      ScanRule c more kind length
  | str {more : List Char} {length : Nat} (closes : quotedLength? '"' more = some length) :
      ScanRule '"' more .str length
  | singleQuote {more : List Char} {kind : TokenKind} {length : Nat}
      (scanned : scanSingleQuote more = .ok (kind, length)) : ScanRule '\'' more kind length
  | pair {c d : Char} {more : List Char} {kind : TokenKind} (isOther : IsOther c)
      (isPair : TokenKind.ofPair? c d = some kind) : ScanRule c (d :: more) kind 1
  | single {c : Char} {more : List Char} {kind : TokenKind} (isOther : IsOther c)
      (noPair : ∀ d ∈ more.head?, TokenKind.ofPair? c d = none) (isSingle : TokenKind.ofChar? c = some kind) :
      ScanRule c more kind 0

section Scanners

variable {c : Char} {more : List Char} {kind : TokenKind} {length : Nat}

theorem scanRule_of_scan (scanned : scan c more = .ok (kind, length)) : ScanRule c more kind length := by
  unfold scan at scanned
  split at scanned
  · rename_i isByteStr
    obtain ⟨rfl, first⟩ := isByteStr
    obtain ⟨rest, rfl⟩ := List.head?_eq_some_iff.1 first
    split at scanned <;> cases scanned
    rename_i closes
    exact .byteStr closes
  rename_i notByteStr
  split at scanned
  · rename_i isByte
    obtain ⟨rfl, first⟩ := isByte
    obtain ⟨rest, rfl⟩ := List.head?_eq_some_iff.1 first
    split at scanned <;> cases scanned
    rename_i closes
    exact .byte closes
  rename_i notByte
  split at scanned
  · rename_i starts
    cases scanned
    exact .word starts fun isB => ⟨fun first => notByteStr ⟨isB, first⟩, fun first => notByte ⟨isB, first⟩⟩
  rename_i noStart
  have notWord : startsWord c = false := Bool.eq_false_iff.2 noStart
  split at scanned
  · rename_i isDigit
    exact .number notWord isDigit (Except.ok.inj scanned)
  rename_i notDigit
  split at scanned
  · rename_i isStr
    subst isStr
    split at scanned <;> cases scanned
    rename_i closes
    exact .str closes
  rename_i notStr
  split at scanned
  · rename_i isSingle
    subst isSingle
    exact .singleQuote scanned
  rename_i notSingle
  have isOther : IsOther c := ⟨notWord, Bool.eq_false_iff.2 notDigit, notStr, notSingle⟩
  split at scanned
  · rename_i pair
    obtain ⟨d, first, isPair⟩ := Option.bind_eq_some_iff.1 pair
    obtain ⟨rest, rfl⟩ := List.head?_eq_some_iff.1 first
    cases scanned
    exact .pair isOther isPair
  · rename_i noPair
    split at scanned <;> cases scanned
    rename_i isSingle
    exact .single isOther (Option.bind_eq_none_iff.1 noPair) isSingle

theorem ne_of_notWord {d : Char} (notWord : startsWord c = false) (starts : startsWord d) : c ≠ d := by
  rintro rfl
  rw [notWord] at starts
  cases starts

theorem ScanRule.scan_eq (rule : ScanRule c more kind length) : scan c more = .ok (kind, length) := by
  cases rule with
  | byteStr closes => simp [scan, closes]
  | byte closes => simp [scan, closes]
  | word starts noPrefix =>
      rw [scan, if_neg fun isByteStr => (noPrefix isByteStr.1).1 isByteStr.2,
        if_neg fun isByte => (noPrefix isByte.1).2 isByte.2, if_pos starts]
  | number notWord isDigit isNumber =>
      have notB : c ≠ 'b' := ne_of_notWord notWord (by decide)
      rw [scan, if_neg fun isByteStr => notB isByteStr.1, if_neg fun isByte => notB isByte.1, notWord,
        if_neg Bool.false_ne_true, if_pos isDigit, isNumber]
  | str closes =>
      have notWord : startsWord '"' = false := by decide
      have notDigit : Unicode.isDigit '"' = false := by decide
      simp [scan, notWord, notDigit, closes]
  | singleQuote scanned =>
      have notWord : startsWord '\'' = false := by decide
      have notDigit : Unicode.isDigit '\'' = false := by decide
      simp [scan, notWord, notDigit, scanned]
  | pair isOther isPair =>
      obtain ⟨notWord, notDigit, notStr, notSingle⟩ := isOther
      have notB : c ≠ 'b' := ne_of_notWord notWord (by decide)
      simp [scan, notB, notWord, notDigit, notStr, notSingle, isPair]
  | single isOther noPair isSingle =>
      obtain ⟨notWord, notDigit, notStr, notSingle⟩ := isOther
      have notB : c ≠ 'b' := ne_of_notWord notWord (by decide)
      simp [scan, notB, notWord, notDigit, notStr, notSingle, Option.bind_eq_none_iff.2 noPair, isSingle]

end Scanners

/-! ## Kinds -/

/-- The kinds of words, and of literals other than numbers. -/
def wordKinds : List TokenKind :=
  [.ident, .lifetime, .str, .byteStr, .char, .byte]

def numberKinds : List TokenKind :=
  [.int, .float]

section Kinds

variable {c : Char} {more : List Char} {kind : TokenKind} {length : Nat}

theorem scanNumber_kind (c : Char) (more : List Char) : (scanNumber c more).1 ∈ numberKinds := by
  unfold scanNumber
  dsimp only
  split <;> simp [numberKinds]

theorem scanSingleQuote_kind (scanned : scanSingleQuote more = .ok (kind, length)) :
    kind ∈ wordKinds := by
  unfold scanSingleQuote at scanned
  split at scanned
  · split at scanned <;> cases scanned
    simp [wordKinds]
  · split at scanned <;> cases scanned
    simp [wordKinds]

/-- A token is a word or the like, or a number that starts with a digit, or it is spelled as its kind is. -/
theorem scan_kind (scanned : scan c more = .ok (kind, length)) :
    kind ∈ wordKinds ∨
      (kind ∈ numberKinds ∧ Unicode.isDigit c ∧ scanNumber c more = (kind, length)) ∨
      kind.spelling = c :: more.take length := by
  cases scanRule_of_scan scanned with
  | byteStr => exact .inl (by simp [wordKinds])
  | byte => exact .inl (by simp [wordKinds])
  | word => exact .inl (by simp [wordKinds])
  | number notWord isDigit isNumber =>
      have isKind := scanNumber_kind c more
      rw [isNumber] at isKind
      exact .inr (.inl ⟨isKind, isDigit, isNumber⟩)
  | str => exact .inl (by simp [wordKinds])
  | singleQuote isScanned => exact .inl (scanSingleQuote_kind isScanned)
  | pair _ isPair => exact .inr (.inr (TokenKind.spelling_ofPair? isPair))
  | single _ _ isSingle => exact .inr (.inr (TokenKind.spelling_ofChar? isSingle))

/-- The text of a token is the spelling of its kind, if it has one. -/
theorem text_of_spelling (scanned : scan c more = .ok (kind, length))
    (hasSpelling : kind.spelling ≠ []) : c :: more.take length = kind.spelling := by
  rcases scan_kind scanned with isWord | ⟨isNumber, -⟩ | spelled
  · simp only [wordKinds, List.mem_cons, List.not_mem_nil, or_false] at isWord
    rcases isWord with rfl | rfl | rfl | rfl | rfl | rfl <;> exact absurd rfl hasSpelling
  · simp only [numberKinds, List.mem_cons, List.not_mem_nil, or_false] at isNumber
    rcases isNumber with rfl | rfl <;> exact absurd rfl hasSpelling
  · exact spelled.symm

/-- No character starts the end of the source. -/
theorem scan_ne_eof (scanned : scan c more = .ok (kind, length)) : kind ≠ .eof := by
  rintro rfl
  rcases scan_kind scanned with isWord | ⟨isNumber, -⟩ | spelled
  · simp [wordKinds] at isWord
  · simp [numberKinds] at isNumber
  · cases spelled

end Kinds

/-! ## Tokens -/

/-- The token of a kind that is read at a place, with what stands behind it. -/
def tokenAt (kind : TokenKind) (position : Position) (text later : List Char) : Token where
  kind
  text := String.ofList text
  position
  joint := kind = .rangle && later.head? = some '>'

/-- Whether the rest of a source that starts at a place consists of tokens. -/
inductive Lexed : Position → List Char → List Token → Prop where
  | finish {start : Position} {cs : List Char} (onlyGap : gapLength false cs = cs.length) :
      Lexed start cs [Token.atEnd (start.after cs)]
  | token {start : Position} {gap : List Char} {c : Char} {more : List Char} {kind : TokenKind}
      {length : Nat} {tokens : List Token}
      (isGap : gapLength false (gap ++ c :: more) = gap.length)
      (scanned : scan c more = .ok (kind, length))
      (rest : Lexed ((start.after gap).after (c :: more.take length)) (more.drop length) tokens) :
      Lexed start (gap ++ c :: more)
        (tokenAt kind (start.after gap) (c :: more.take length) (more.drop length) :: tokens)

theorem gapLength_le (inComment : Bool) (cs : List Char) :
    gapLength inComment cs ≤ cs.length := by
  induction cs generalizing inComment with
  | nil => exact Nat.le_refl 0
  | cons c cs inductionHypothesis =>
      unfold gapLength
      split
      · exact Nat.succ_le_succ (inductionHypothesis _)
      · split
        · exact Nat.succ_le_succ (inductionHypothesis _)
        · split
          · exact Nat.succ_le_succ (inductionHypothesis _)
          · exact Nat.zero_le _

/-- The character behind a gap is no blank, or it would belong to the gap. -/
theorem isBlank_of_gapLength {inComment : Bool} {gap more : List Char} {c : Char}
    (isGap : gapLength inComment (gap ++ c :: more) = gap.length) : isBlank c = false := by
  induction gap generalizing inComment with
  | nil =>
      simp only [List.nil_append, List.length_nil, gapLength] at isGap
      split at isGap
      · cases isGap
      · split at isGap
        · cases isGap
        · rename_i notBlank
          exact Bool.eq_false_iff.2 notBlank
  | cons d gap inductionHypothesis =>
      simp only [List.cons_append, List.length_cons, gapLength] at isGap
      split at isGap
      · exact inductionHypothesis (Nat.succ.inj isGap)
      · split at isGap
        · exact inductionHypothesis (Nat.succ.inj isGap)
        · split at isGap
          · exact inductionHypothesis (Nat.succ.inj isGap)
          · cases isGap

/-- The lexer on a source that ends with a gap. -/
theorem tokensFrom_gap {start : Position} {cs : List Char}
    (onlyGap : gapLength false cs = cs.length) :
    tokensFrom start cs = .ok [Token.atEnd (start.after cs)] := by
  unfold tokensFrom
  have nothing : cs.drop (gapLength false cs) = [] := by simp [onlyGap]
  dsimp only
  split
  · rfl
  · rename_i rest
    rw [nothing] at rest
    cases rest

section Token

variable {start : Position} {gap more : List Char} {c : Char}

theorem tokensFrom_behind (isGap : gapLength false (gap ++ c :: more) = gap.length) :
    tokensFrom start (gap ++ c :: more) =
      match scan c more with
      | .error fault => .error ⟨fault, start.after gap⟩
      | .ok (kind, length) =>
          (tokensFrom ((start.after gap).after (c :: more.take length)) (more.drop length)).map
            (tokenAt kind (start.after gap) (c :: more.take length) (more.drop length) :: ·) := by
  conv => lhs; unfold tokensFrom
  have behind : (gap ++ c :: more).drop (gapLength false (gap ++ c :: more)) = c :: more := by
    rw [isGap, List.drop_left]
  have front : (gap ++ c :: more).take (gapLength false (gap ++ c :: more)) = gap := by
    rw [isGap, List.take_left]
  dsimp only
  split
  · rename_i rest
    rw [behind] at rest
    cases rest
  · rename_i rest
    rw [behind] at rest
    obtain ⟨rfl, rfl⟩ := List.cons.inj rest
    rw [front]
    rfl

theorem tokensFrom_token {kind : TokenKind} {length : Nat}
    (isGap : gapLength false (gap ++ c :: more) = gap.length)
    (scanned : scan c more = .ok (kind, length)) :
    tokensFrom start (gap ++ c :: more) =
      (tokensFrom ((start.after gap).after (c :: more.take length)) (more.drop length)).map
        (tokenAt kind (start.after gap) (c :: more.take length) (more.drop length) :: ·) := by
  rw [tokensFrom_behind isGap, scanned]

end Token

/-! ## Runs of the lexer -/

/-- Whether the rest of a source that starts at a place consists of tokens up to another place, with the rest that
starts there. -/
inductive Scans : Position → List Char → List Token → Position → List Char → Prop where
  | nothing {start : Position} {cs : List Char} : Scans start cs [] start cs
  | token {start finish : Position} {gap later : List Char} {c : Char} {more : List Char}
      {kind : TokenKind} {length : Nat} {tokens : List Token}
      (isGap : gapLength false (gap ++ c :: more) = gap.length)
      (scanned : scan c more = .ok (kind, length))
      (rest : Scans ((start.after gap).after (c :: more.take length)) (more.drop length) tokens
        finish later) :
      Scans start (gap ++ c :: more)
        (tokenAt kind (start.after gap) (c :: more.take length) (more.drop length) :: tokens)
        finish later

section Scans

variable {start finish : Position} {cs later : List Char} {tokens : List Token}

theorem Scans.tokensFrom_eq (scans : Scans start cs tokens finish later) :
    tokensFrom start cs = (tokensFrom finish later).map (tokens ++ ·) := by
  induction scans with
  | @nothing start cs => cases tokensFrom start cs <;> rfl
  | @token _ finish _ later _ _ _ _ _ isGap scanned _ inductionHypothesis =>
      rw [tokensFrom_token isGap scanned, inductionHypothesis]
      cases tokensFrom finish later <;> rfl

theorem Scans.lexed (scans : Scans start cs tokens finish later) {behind : List Token}
    (rest : Lexed finish later behind) : Lexed start cs (tokens ++ behind) := by
  induction scans with
  | nothing => exact rest
  | token isGap scanned _ inductionHypothesis => exact .token isGap scanned (inductionHypothesis rest)

/-- A source is read to its last gap. -/
theorem Lexed.scans (lexed : Lexed start cs tokens) :
    ∃ ts finish later, Scans start cs ts finish later ∧ gapLength false later = later.length ∧
      tokens = ts ++ [Token.atEnd (finish.after later)] := by
  induction lexed with
  | finish onlyGap => exact ⟨[], _, _, .nothing, onlyGap, rfl⟩
  | token isGap scanned _ inductionHypothesis =>
      obtain ⟨ts, finish, later, scans, onlyGap, rfl⟩ := inductionHypothesis
      exact ⟨_, finish, later, .token isGap scanned scans, onlyGap, rfl⟩

/-- A source is a gap, or it starts with one in front of a character that belongs to none. -/
theorem exists_gap (cs : List Char) :
    gapLength false cs = cs.length ∨
      ∃ gap c more, cs = gap ++ c :: more ∧ gapLength false (gap ++ c :: more) = gap.length := by
  have gapLe := gapLength_le false cs
  cases rest : cs.drop (gapLength false cs) with
  | nil => exact .inl (Nat.le_antisymm gapLe (List.drop_eq_nil_iff.1 rest))
  | cons c more =>
      have split : cs = cs.take (gapLength false cs) ++ c :: more := by
        rw [← rest, List.take_append_drop]
      refine .inr ⟨cs.take (gapLength false cs), c, more, split, ?_⟩
      rw [← split, List.length_take, Nat.min_eq_left gapLe]

/-- Tokens are read up to the last gap, or up to a fault. -/
theorem exists_scans (start : Position) (cs : List Char) :
    ∃ tokens finish later, Scans start cs tokens finish later ∧
      (gapLength false later = later.length ∨ ∃ gap c more fault, later = gap ++ c :: more ∧
        gapLength false (gap ++ c :: more) = gap.length ∧ scan c more = .error fault) := by
  generalize size : cs.length = n
  induction n using Nat.strongRecOn generalizing start cs with
  | ind n inductionHypothesis =>
      subst size
      rcases exists_gap cs with onlyGap | ⟨gap, c, more, rfl, isGap⟩
      · exact ⟨[], start, cs, .nothing, .inl onlyGap⟩
      cases scanned : scan c more with
      | error fault => exact ⟨[], start, _, .nothing, .inr ⟨gap, c, more, fault, rfl, isGap, scanned⟩⟩
      | ok token =>
          obtain ⟨kind, length⟩ := token
          have smaller : (more.drop length).length < (gap ++ c :: more).length := by
            simp only [List.length_drop, List.length_append, List.length_cons]
            omega
          obtain ⟨tokens, finish, later, scans, stops⟩ := inductionHypothesis _ smaller
            ((start.after gap).after (c :: more.take length)) (more.drop length) rfl
          exact ⟨_, finish, later, .token isGap scanned scans, stops⟩

theorem Scans.tokensFrom_atEnd (scans : Scans start cs tokens finish later)
    (onlyGap : gapLength false later = later.length) :
    tokensFrom start cs = .ok (tokens ++ [Token.atEnd (finish.after later)]) := by
  rw [scans.tokensFrom_eq, tokensFrom_gap onlyGap]
  rfl

theorem Scans.tokensFrom_fault {gap more : List Char} {c : Char} {fault : Fault}
    (scans : Scans start cs tokens finish (gap ++ c :: more))
    (isGap : gapLength false (gap ++ c :: more) = gap.length)
    (scanned : scan c more = .error fault) :
    tokensFrom start cs = .error ⟨fault, finish.after gap⟩ := by
  rw [scans.tokensFrom_eq, tokensFrom_behind isGap, scanned]
  rfl

end Scans

/-- The lexer computes the relation. -/
theorem tokensFrom_eq_ok_iff {start : Position} {cs : List Char} {tokens : List Token} :
    tokensFrom start cs = .ok tokens ↔ Lexed start cs tokens := by
  constructor
  · intro isRead
    obtain ⟨ts, finish, later, scans, onlyGap | ⟨gap, c, more, fault, rfl, isGap, scanned⟩⟩ :=
      exists_scans start cs
    · rw [scans.tokensFrom_atEnd onlyGap] at isRead
      obtain rfl := Except.ok.inj isRead
      exact scans.lexed (.finish onlyGap)
    · rw [scans.tokensFrom_fault isGap scanned] at isRead
      cases isRead
  · intro lexed
    obtain ⟨ts, finish, later, scans, onlyGap, rfl⟩ := lexed.scans
    exact scans.tokensFrom_atEnd onlyGap

/-- Where a source has no tokens, the fault is the first one behind tokens that it has. -/
theorem tokensFrom_eq_error_iff {start : Position} {cs : List Char} {e : LexError} :
    tokensFrom start cs = .error e ↔ ∃ tokens finish gap c more,
      Scans start cs tokens finish (gap ++ c :: more) ∧
        gapLength false (gap ++ c :: more) = gap.length ∧ scan c more = .error e.fault ∧
          e.position = finish.after gap := by
  constructor
  · intro fails
    obtain ⟨ts, finish, later, scans, onlyGap | ⟨gap, c, more, fault, rfl, isGap, scanned⟩⟩ :=
      exists_scans start cs
    · rw [scans.tokensFrom_atEnd onlyGap] at fails
      cases fails
    · rw [scans.tokensFrom_fault isGap scanned] at fails
      obtain rfl := Except.error.inj fails
      exact ⟨ts, finish, gap, c, more, scans, isGap, scanned, rfl⟩
  · rintro ⟨tokens, finish, gap, c, more, scans, isGap, scanned, place⟩
    rw [scans.tokensFrom_fault isGap scanned, ← place]

end Lexer

end AttrGrammar
