import AttrGrammar.Proofs.Lexing.Layout
import AttrGrammar.Proofs.Printing.Rescan

/-!
Contract: two sources that are joined by a line feed have the tokens of both, those of the second further down.

Owns:
- that a line feed behind a gap, a token or a run of the lexer leaves them as they are;
- places, tokens and faults that are moved down by some lines, as the lexer moves them if it starts further down;
- the tokens of two sources that are joined by a line feed, or their fault.

A scanner looks at most two characters ahead, and at the end of its source it sees none. A line feed goes on with no
token, so that a token cannot tell it from the end.
-/

namespace AttrGrammar

namespace Lexer

/-! ## Gaps -/

section Gaps

variable {inComment : Bool} {cs gap more later : List Char} {c : Char}

/-- A line feed ends a comment, and what is behind it is no comment any more. -/
theorem gapLength_of_onlyGap (onlyGap : gapLength inComment cs = cs.length) (later : List Char) :
    gapLength inComment (cs ++ '\n' :: later) = cs.length + 1 + gapLength false later := by
  induction cs generalizing inComment with
  | nil => cases inComment <;> simp [gapLength, isBlank, Nat.add_comm]
  | cons d cs inductionHypothesis =>
      simp only [List.cons_append, List.length_cons, gapLength] at onlyGap ⊢
      split at onlyGap
      · rename_i isComment
        rw [if_pos isComment, inductionHypothesis (Nat.succ.inj onlyGap)]
        omega
      rename_i noComment
      rw [if_neg noComment]
      split at onlyGap
      · rename_i blank
        rw [if_pos blank, inductionHypothesis (Nat.succ.inj onlyGap)]
        omega
      rename_i notBlank
      rw [if_neg notBlank]
      split at onlyGap
      · rename_i slashes
        have stillSlashes : d = '/' ∧ (cs ++ '\n' :: later).head? = some '/' := by
          obtain ⟨rfl, second⟩ := slashes
          obtain ⟨others, rfl⟩ := List.head?_eq_some_iff.1 second
          exact ⟨rfl, rfl⟩
        rw [if_pos stillSlashes, inductionHypothesis (Nat.succ.inj onlyGap)]
        omega
      · cases onlyGap

/-- A gap in front of a token does not depend on a line feed behind the token. -/
theorem gapLength_of_token (isGap : gapLength inComment (gap ++ c :: more) = gap.length) (later : List Char) :
    gapLength inComment (gap ++ c :: (more ++ '\n' :: later)) = gap.length := by
  induction gap generalizing inComment with
  | nil =>
      simp only [List.nil_append, List.length_nil, gapLength] at isGap ⊢
      split at isGap
      · cases isGap
      rename_i noComment
      rw [if_neg noComment]
      split at isGap
      · cases isGap
      rename_i notBlank
      rw [if_neg notBlank]
      split at isGap
      · cases isGap
      rename_i noSlashes
      refine if_neg fun slashes => noSlashes ⟨slashes.1, ?_⟩
      cases more with
      | nil => cases slashes.2
      | cons d more => exact slashes.2
  | cons d gap inductionHypothesis =>
      have sameFirst : (gap ++ c :: (more ++ '\n' :: later)).head? = (gap ++ c :: more).head? := by
        cases gap <;> rfl
      simp only [List.cons_append, List.length_cons, gapLength, sameFirst] at isGap ⊢
      split at isGap
      · rename_i isComment
        rw [if_pos isComment, inductionHypothesis (Nat.succ.inj isGap)]
      rename_i noComment
      rw [if_neg noComment]
      split at isGap
      · rename_i blank
        rw [if_pos blank, inductionHypothesis (Nat.succ.inj isGap)]
      rename_i notBlank
      rw [if_neg notBlank]
      split at isGap
      · rename_i slashes
        rw [if_pos slashes, inductionHypothesis (Nat.succ.inj isGap)]
      · cases isGap

end Gaps

/-! ## Tokens -/

section Tokens

variable {cs more : List Char} {c : Char} {kind : TokenKind} {length : Nat}

theorem runLength_newline {inClass : Char → Bool} (stops : inClass '\n' = false) (cs later : List Char) :
    runLength inClass (cs ++ '\n' :: later) = runLength inClass cs := by
  have same : runLength inClass (cs.take cs.length ++ '\n' :: later) = runLength inClass cs :=
    runLength_take_append (runLength_le inClass cs) (Nat.le_refl _) fun c first => Option.some.inj first ▸ stops
  rwa [List.take_length] at same

theorem runLength_digits_newline (cs later : List Char) :
    runLength continuesDigits (cs ++ '\n' :: later) = runLength continuesDigits cs :=
  runLength_newline rfl cs later

theorem quotedLength?_append {quote : Char} (isQuote : quote ≠ '\\')
    (found : quotedLength? quote cs = some length) (tail : List Char) :
    quotedLength? quote (cs ++ tail) = some length := by
  obtain ⟨-, again⟩ := quotedLength?_take isQuote found
  rw [← List.take_append_drop length cs, List.append_assoc]
  exact again _

theorem fractionLength_newline (cs later : List Char) :
    fractionLength (cs ++ '\n' :: later) = fractionLength cs := by
  by_cases point : cs.head? = some '.'
  · obtain ⟨rest, rfl⟩ := List.head?_eq_some_iff.1 point
    cases rest with
    | nil => rfl
    | cons digit rest =>
        simp only [List.cons_append, fractionLength, runLength_digits_newline]
  · rw [fractionLength_eq_zero point]
    refine fractionLength_eq_zero ?_
    cases cs with
    | nil =>
        intro isPoint
        cases isPoint
    | cons c cs => exact point

theorem exponentLength_newline (cs later : List Char) :
    exponentLength (cs ++ '\n' :: later) = exponentLength cs := by
  match cs with
  | [] =>
      refine exponentLength_eq_zero fun c first => ?_
      obtain rfl := Option.some.inj first
      decide
  | [mark] =>
      rw [List.singleton_append, exponentLength_cons, if_neg (fun isExponent => absurd isExponent.2 (by decide))]
      rfl
  | mark :: next :: cs =>
      rw [List.cons_append, List.cons_append, exponentLength_cons, exponentLength_cons,
        runLength_newline rfl]

theorem drop_newline {n : Nat} (nLe : n ≤ cs.length) (later : List Char) :
    (cs ++ '\n' :: later).drop n = cs.drop n ++ '\n' :: later :=
  List.drop_append_of_le_length nLe

theorem decimalLength_newline (cs later : List Char) :
    decimalLength (cs ++ '\n' :: later) = decimalLength cs := by
  have wholeLe := runLength_le continuesDigits cs
  have fractionLe := fractionLength_le (cs.drop (runLength continuesDigits cs))
  rw [List.length_drop] at fractionLe
  simp only [decimalLength, runLength_digits_newline, drop_newline wholeLe, fractionLength_newline]
  rw [drop_newline (by omega), exponentLength_newline]

theorem digitsLength_newline (first : Char) (cs later : List Char) :
    digitsLength first (cs ++ '\n' :: later) = digitsLength first cs := by
  cases cs with
  | nil =>
      have noMark : ∀ c, ('\n' :: later).head? = some c →
          ¬(first = '0' ∧ (c = 'x' ∨ c = 'o' ∨ c = 'b')) := by
        intro c isFirst
        obtain rfl := Option.some.inj isFirst
        exact fun isMark => absurd isMark.2 (by decide)
      rw [List.nil_append, digitsLength_decimal noMark]
      exact decimalLength_newline [] later
  | cons mark more =>
      have stops : continuesRadix mark '\n' = false := by simp [continuesRadix]
      have sameRun := runLength_newline stops more later
      have sameDecimal := decimalLength_newline (mark :: more) later
      rw [List.cons_append] at sameDecimal ⊢
      rw [digitsLength_cons, digitsLength_cons, sameRun, sameDecimal]

theorem scanNumber_newline (c : Char) (cs later : List Char) :
    scanNumber c (cs ++ '\n' :: later) = scanNumber c cs := by
  have digitsLe := digitsLength_le c cs
  have lengthLe : suffixed (digitsLength c cs).1 cs ≤ cs.length := (scanNumber_take_append ends_nil c cs).1
  have sameLength : suffixed (digitsLength c cs).1 (cs ++ '\n' :: later) =
      suffixed (digitsLength c cs).1 cs := by
    rw [suffixed, drop_newline digitsLe, runLength_newline rfl]
    rfl
  rw [scanNumber_eq, digitsLength_newline, sameLength, List.take_append_of_le_length lengthLe, scanNumber_eq]

theorem startsCharacter_newline (c : Char) (more later : List Char) :
    startsCharacter (c :: more ++ '\n' :: later) ↔ startsCharacter (c :: more) := by
  cases more <;> simp [startsCharacter]

theorem scanSingleQuote_newline (scanned : scanSingleQuote more = .ok (kind, length)) (later : List Char) :
    length ≤ more.length ∧ scanSingleQuote (more ++ '\n' :: later) = .ok (kind, length) := by
  cases more with
  | nil => cases scanned
  | cons c more =>
      rw [scanSingleQuote_eq] at scanned ⊢
      simp only [startsCharacter_newline]
      split at scanned
      · rename_i starts
        split at scanned
        · rename_i n found
          cases scanned
          rw [if_pos starts, quotedLength?_append (by decide) found]
          exact ⟨(quotedLength?_take (by decide) found).1, rfl⟩
        · cases scanned
      · rename_i notCharacter
        split at scanned
        · rename_i starts
          cases scanned
          rw [if_neg notCharacter, runLength_newline rfl]
          exact ⟨runLength_le continuesWord _, if_pos starts⟩
        · cases scanned

/-- A line feed goes on with no token, so that it does not count as the character behind one. -/
theorem head?_newline {quote : Char} (other : '\n' ≠ quote) (before : more.head? ≠ some quote) (later : List Char) :
    (more ++ '\n' :: later).head? ≠ some quote := by
  intro first
  cases more with
  | nil => exact other (Option.some.inj first)
  | cons d more => exact before first

theorem ofPair?_newline (noPair : ∀ d ∈ more.head?, TokenKind.ofPair? c d = none) (later : List Char) :
    ∀ d ∈ (more ++ '\n' :: later).head?, TokenKind.ofPair? c d = none := by
  intro d first
  cases more with
  | nil =>
      obtain rfl := Option.some.inj first
      unfold TokenKind.ofPair?
      split <;> simp_all
  | cons e more => exact noPair d first

/-- A token is scanned again if a line feed is put behind the characters behind it. -/
theorem scan_newline (scanned : scan c more = .ok (kind, length)) (later : List Char) :
    length ≤ more.length ∧ scan c (more ++ '\n' :: later) = .ok (kind, length) := by
  cases scanRule_of_scan scanned with
  | byteStr closes =>
      exact ⟨Nat.succ_le_succ (quotedLength?_take (by decide) closes).1,
        (ScanRule.byteStr (quotedLength?_append (by decide) closes _)).scan_eq⟩
  | byte closes =>
      exact ⟨Nat.succ_le_succ (quotedLength?_take (by decide) closes).1,
        (ScanRule.byte (quotedLength?_append (by decide) closes _)).scan_eq⟩
  | word starts noPrefix =>
      have isWord := ScanRule.word starts fun isB =>
        ⟨head?_newline (by decide) (noPrefix isB).1 later, head?_newline (by decide) (noPrefix isB).2 later⟩
      have again := isWord.scan_eq
      rw [runLength_newline rfl] at again
      exact ⟨runLength_le continuesWord more, again⟩
  | number notWord isDigit isNumber =>
      have lengthLe := (scanNumber_take_append ends_nil c more).1
      rw [isNumber] at lengthLe
      have again := (scanNumber_newline c more later).trans isNumber
      exact ⟨lengthLe, (ScanRule.number notWord isDigit again).scan_eq⟩
  | str closes =>
      exact ⟨(quotedLength?_take (by decide) closes).1,
        (ScanRule.str (quotedLength?_append (by decide) closes _)).scan_eq⟩
  | singleQuote isScanned =>
      obtain ⟨lengthLe, again⟩ := scanSingleQuote_newline isScanned later
      exact ⟨lengthLe, (ScanRule.singleQuote again).scan_eq⟩
  | pair isOther isPair =>
      exact ⟨Nat.succ_le_succ (Nat.zero_le _), (ScanRule.pair isOther isPair).scan_eq⟩
  | single isOther noPair isSingle =>
      exact ⟨Nat.zero_le _, (ScanRule.single isOther (ofPair?_newline noPair later) isSingle).scan_eq⟩

/-- A run of the lexer is one also if a line feed is put behind its source. -/
theorem Scans.newline {start finish : Position} {cs behind : List Char} {tokens : List Token}
    (scans : Scans start cs tokens finish behind) (later : List Char) :
    Scans start (cs ++ '\n' :: later) tokens finish (behind ++ '\n' :: later) := by
  induction scans with
  | nothing => exact .nothing
  | @token start finish gap behind c more kind length tokens isGap scanned rest inductionHypothesis =>
      obtain ⟨lengthLe, again⟩ := scan_newline scanned later
      have sameText : (more ++ '\n' :: later).take length = more.take length :=
        List.take_append_of_le_length lengthLe
      have sameRest : (more ++ '\n' :: later).drop length = more.drop length ++ '\n' :: later :=
        drop_newline lengthLe later
      have sameToken (position : Position) (text : List Char) :
          tokenAt kind position text (more.drop length ++ '\n' :: later) =
            tokenAt kind position text (more.drop length) := by
        cases rest : more.drop length <;> simp [tokenAt]
      have run := Scans.token (gapLength_of_token isGap later) again
        (by rw [sameText, sameRest]; exact inductionHypothesis)
      rw [sameText, sameRest, sameToken] at run
      rwa [List.append_assoc, List.cons_append]

end Tokens

end Lexer

/-! ## Further down -/

namespace Position

/-- The place some lines further down in the same column. -/
def down (lines : Nat) (p : Position) : Position :=
  ⟨p.line + lines, p.column⟩

theorem next_down (lines : Nat) (p : Position) (c : Char) :
    (p.down lines).next c = (p.next c).down lines := by
  unfold next down
  split
  · rw [Nat.add_right_comm]
  · rfl

theorem after_down (lines : Nat) (p : Position) (cs : List Char) :
    (p.down lines).after cs = (p.after cs).down lines := by
  induction cs generalizing p with
  | nil => rfl
  | cons c cs inductionHypothesis => rw [after_cons, after_cons, next_down, inductionHypothesis]

/-- Behind a line feed is the start of a source, as many lines further down as there are in front of it. -/
theorem behind_newline (before : List Char) :
    behind (before ++ ['\n']) = start.down (1 + before.count '\n') := by
  simp [behind, start, down, Nat.add_comm]

end Position

/-- A token some lines further down. -/
def Token.down (lines : Nat) (t : Token) : Token :=
  { t with position := t.position.down lines }

/-- A fault some lines further down. -/
def LexError.down (lines : Nat) (e : LexError) : LexError :=
  { e with position := e.position.down lines }

namespace Lexer

/-- The lexer reads the same tokens wherever it starts. -/
theorem Scans.down {start finish : Position} {cs later : List Char} {tokens : List Token}
    (scans : Scans start cs tokens finish later) (lines : Nat) :
    Scans (start.down lines) cs (tokens.map (Token.down lines)) (finish.down lines) later := by
  induction scans with
  | nothing => exact .nothing
  | @token start finish gap later c more kind length tokens isGap scanned rest inductionHypothesis =>
      rw [← Position.after_down, ← Position.after_down] at inductionHypothesis
      have run := Scans.token isGap scanned inductionHypothesis
      rw [Position.after_down] at run
      exact run

theorem tokensFrom_down (lines : Nat) (start : Position) (cs : List Char) :
    tokensFrom (start.down lines) cs =
      ((tokensFrom start cs).map (List.map (Token.down lines))).mapError (LexError.down lines) := by
  obtain ⟨tokens, finish, later, scans, onlyGap | ⟨gap, c, more, fault, rfl, isGap, scanned⟩⟩ :=
    exists_scans start cs
  · rw [scans.tokensFrom_atEnd onlyGap, (scans.down lines).tokensFrom_atEnd onlyGap, Position.after_down]
    show _ = Except.ok ((tokens ++ [Token.atEnd (finish.after later)]).map (Token.down lines))
    rw [List.map_append]
    rfl
  · rw [scans.tokensFrom_fault isGap scanned, (scans.down lines).tokensFrom_fault isGap scanned,
      Position.after_down]
    rfl

/-- What is read behind a gap and a line feed is what is read from there on. -/
theorem tokensFrom_behind_newline {gap : List Char} (onlyGap : gapLength false gap = gap.length)
    (start : Position) (later : List Char) :
    tokensFrom start (gap ++ '\n' :: later) = tokensFrom (start.after (gap ++ ['\n'])) later := by
  -- The gap goes on behind the line feed, so that the lexer skips both parts at once.
  have longer := gapLength_of_onlyGap onlyGap later
  have joined (cs : List Char) : gap ++ '\n' :: cs = (gap ++ ['\n']) ++ cs := by
    rw [List.append_assoc, List.singleton_append]
  rcases exists_gap later with noToken | ⟨front, c, more, rfl, isGap⟩
  · have onlyGapJoined : gapLength false (gap ++ '\n' :: later) = (gap ++ '\n' :: later).length := by
      rw [longer, noToken, List.length_append, List.length_cons]
      omega
    rw [tokensFrom_gap onlyGapJoined, tokensFrom_gap noToken, joined, Position.after_append]
  · have isGapJoined : gapLength false ((gap ++ '\n' :: front) ++ c :: more) =
        (gap ++ '\n' :: front).length := by
      rw [List.append_assoc, List.cons_append, longer, isGap, List.length_append, List.length_cons]
      omega
    have split : gap ++ '\n' :: (front ++ c :: more) = (gap ++ '\n' :: front) ++ c :: more := by
      rw [List.append_assoc, List.cons_append]
    rw [split, tokensFrom_behind isGapJoined, tokensFrom_behind isGap, joined, Position.after_append]

end Lexer

open Lexer

/-- How many lines further down a source stands that a line feed separates from the one in front of it. -/
def linesUpTo (source : String) : Nat :=
  1 + source.toList.count '\n'

/-- A source that has tokens, a line feed and another source have the tokens of both, in order: those of the first
without its end, and those of the second further down by the lines in front of it. If the second has no tokens, the
whole has none either, with the same fault as much further down. -/
theorem tokenize_append_newline {source : String} {tokens : List Token}
    (lexed : tokenize source = .ok tokens) :
    ∃ front finish, tokens = front ++ [Token.atEnd finish] ∧ ∀ later : String,
      (∀ behind, tokenize later = .ok behind → tokenize (source ++ "\n" ++ later) =
        .ok (front ++ behind.map (Token.down (linesUpTo source)))) ∧
      (∀ e, tokenize later = .error e → tokenize (source ++ "\n" ++ later) =
        .error (e.down (linesUpTo source))) ∧
      ((∃ joined, tokenize (source ++ "\n" ++ later) = .ok joined) ↔
        ∃ behind, tokenize later = .ok behind) := by
  obtain ⟨front, finish, gap, scans, onlyGap, rfl⟩ := (tokensFrom_eq_ok_iff.1 lexed).scans
  refine ⟨front, finish.after gap, rfl, fun later => ?_⟩
  obtain ⟨pieces, split, -, isFinish, -⟩ := scans.layout [] rfl
  have atBreak : finish.after (gap ++ ['\n']) = Position.start.down (linesUpTo source) := by
    rw [isFinish, Position.after_behind, List.nil_append, ← List.append_assoc, ← split,
      Position.behind_newline, linesUpTo]
  have joined : tokenize (source ++ "\n" ++ later) =
      (((tokenize later).map (List.map (Token.down (linesUpTo source)))).mapError
        (LexError.down (linesUpTo source))).map (front ++ ·) := by
    have chars : (source ++ "\n" ++ later).toList = source.toList ++ '\n' :: later.toList := by
      simp
    rw [tokenize, chars, (scans.newline later.toList).tokensFrom_eq, tokensFrom_behind_newline onlyGap,
      atBreak, tokensFrom_down]
    rfl
  rw [joined]
  cases tokenize later with
  | ok behind =>
      refine ⟨fun behind' same => ?_, fun e' same => ?_, fun _ => ⟨behind, rfl⟩, fun _ => ⟨_, rfl⟩⟩
      · obtain rfl := Except.ok.inj same
        rfl
      · cases same
  | error e =>
      refine ⟨fun behind same => ?_, fun e' same => ?_, fun isRead => ?_, fun isRead => ?_⟩
      · cases same
      · obtain rfl := Except.error.inj same
        rfl
      · obtain ⟨_, isRead⟩ := isRead
        cases isRead
      · obtain ⟨_, isRead⟩ := isRead
        cases isRead

/-- A `>` is not joint with one in the next line, and a quote by itself is as wrong there as it is alone. -/
theorem tokenize_append_newline_angles :
    tokenize "a >" = .ok [⟨.ident, "a", ⟨1, 1⟩, false⟩, ⟨.rangle, ">", ⟨1, 3⟩, false⟩, Token.atEnd ⟨1, 4⟩] ∧
    tokenize ("a >" ++ "\n" ++ ">") = .ok [⟨.ident, "a", ⟨1, 1⟩, false⟩, ⟨.rangle, ">", ⟨1, 3⟩, false⟩,
      ⟨.rangle, ">", ⟨2, 1⟩, false⟩, Token.atEnd ⟨2, 2⟩] ∧
    tokenize ("a >" ++ "\n" ++ "'") = .error ⟨.invalidCharacter, ⟨2, 1⟩⟩ := by
  have lexed : tokenize "a >" =
      .ok [⟨.ident, "a", ⟨1, 1⟩, false⟩, ⟨.rangle, ">", ⟨1, 3⟩, false⟩, Token.atEnd ⟨1, 4⟩] := by
    refine tokensFrom_eq_ok_iff.2 ?_
    refine @Lexed.token _ [] 'a' [' ', '>'] .ident 0 _ rfl (by rfl) ?_
    exact @Lexed.token _ [' '] '>' [] .rangle 0 _ rfl rfl (.finish rfl)
  have behind : tokenize ">" = .ok [⟨.rangle, ">", ⟨1, 1⟩, false⟩, Token.atEnd ⟨1, 2⟩] :=
    tokensFrom_eq_ok_iff.2 (@Lexed.token _ [] '>' [] .rangle 0 _ rfl rfl (.finish rfl))
  have fails : tokenize "'" = .error ⟨.invalidCharacter, ⟨1, 1⟩⟩ :=
    tokensFrom_eq_error_iff.2 ⟨[], .start, [], '\'', [], .nothing, rfl, rfl, rfl⟩
  obtain ⟨front, finish, same, joined⟩ := tokenize_append_newline lexed
  obtain rfl : [⟨.ident, "a", ⟨1, 1⟩, false⟩, ⟨.rangle, ">", ⟨1, 3⟩, false⟩] = front :=
    List.append_inj_left' same rfl
  exact ⟨lexed, (joined ">").1 _ behind, (joined "'").2.1 _ fails⟩

end AttrGrammar
