import Mathlib.Data.List.TakeWhile
import AttrGrammar.Proofs.Attributes.Places

/-!
Contract: what is found wrong with a text is what is wrong with its lines.

Owns:
- the lines of a text that end at line feeds, as the places of tokens count them;
- lines that are passed over though something is wrong with them: a character that is blank in running text stands in
  front, and it starts no token;
- that all else that is passed over is a gap, in which nothing is wrong;
- the findings of a text, line by line.
-/

namespace AttrGrammar

/-! ## Lines -/

namespace Unicode

section Lines

variable {line cs : List Char}

theorem endsLine_feed : endsLine '\n' = true := by decide

/-- No line has a line feed in it. -/
theorem feed_not_mem_splitLines (inLine : '\n' ∉ line) : ∀ l ∈ splitLines line cs, '\n' ∉ l := by
  fun_induction splitLines line cs with
  | case1 line => simp
  | case2 line => simp [inLine]
  | case3 line later inductionHypothesis => simpa [inLine] using inductionHypothesis (by simp)
  | case4 line c later notBoth ends inductionHypothesis =>
      simpa [inLine] using inductionHypothesis (by simp)
  | case5 line c later notBoth stays inductionHypothesis =>
      apply inductionHypothesis
      have other : '\n' ≠ c := by
        rintro rfl
        exact stays endsLine_feed
      simp [other, inLine]

/-- Where only line feeds end lines, a text has the lines between them, but for an empty one at its end. -/
theorem splitOnPPrepend_feed (onlyFeeds : ∀ c ∈ cs, endsLine c → c = '\n') :
    List.splitOnPPrepend (· == '\n') cs line = splitLines line cs ∨
      List.splitOnPPrepend (· == '\n') cs line = splitLines line cs ++ [[]] := by
  fun_induction splitLines line cs with
  | case1 line isEmpty => simp_all
  | case2 line notEmpty => simp
  | case3 line later inductionHypothesis =>
      exact absurd (onlyFeeds '\r' (by simp) (by decide)) (by decide)
  | case4 line c later notBoth ends inductionHypothesis =>
      obtain rfl := onlyFeeds c (by simp) ends
      simpa [List.splitOnPPrepend_cons_eq_if] using
        inductionHypothesis fun d member => onlyFeeds d (List.mem_cons_of_mem _ member)
  | case5 line c later notBoth stays inductionHypothesis =>
      have other : c ≠ '\n' := by
        rintro rfl
        exact stays endsLine_feed
      simpa [List.splitOnPPrepend_cons_eq_if, other] using
        inductionHypothesis fun d member => onlyFeeds d (List.mem_cons_of_mem _ member)

end Lines

end Unicode

/-! ## Blanks -/

namespace Unicode

theorem isLetter_of_isBlank {c : Char} (blank : isBlank c) : isLetter c = false := by
  refine Bool.eq_false_iff.2 fun letter => ?_
  have apart : ∀ r ∈ letterRanges, ∀ s ∈ blankRanges, r.2 < s.1 ∨ s.2 < r.1 := by
    decide +kernel
  obtain ⟨r, isRange, bounds⟩ := exists_range_of_inRanges letter
  obtain ⟨s, isBlankRange, blankBounds⟩ := exists_range_of_inRanges blank
  have := apart r isRange s isBlankRange
  omega

theorem isDigit_of_isBlank {c : Char} (blank : isBlank c) : isDigit c = false := by
  refine Bool.eq_false_iff.2 fun digit => ?_
  rw [isBlank_of_isDigit digit] at blank
  cases blank

end Unicode

namespace Lexer

/-- No spelling has a blank. -/
theorem isBlank_of_mem_spelling {kind : TokenKind} :
    ∀ c ∈ kind.spelling, Unicode.isBlank c = false := by
  have noBlank : kind.spelling.all (!Unicode.isBlank ·) := by cases kind <;> decide
  simpa using noBlank

theorem ofPair?_of_isBlank {c : Char} (blank : Unicode.isBlank c) (d : Char) :
    TokenKind.ofPair? c d = none := by
  cases isPair : TokenKind.ofPair? c d with
  | none => rfl
  | some kind =>
      have isSpelling := TokenKind.spelling_ofPair? isPair
      have notBlank := isBlank_of_mem_spelling c (isSpelling ▸ List.mem_cons_self)
      rw [notBlank] at blank
      cases blank

theorem ofChar?_of_isBlank {c : Char} (blank : Unicode.isBlank c) : TokenKind.ofChar? c = none := by
  cases isChar : TokenKind.ofChar? c with
  | none => rfl
  | some kind =>
      have isSpelling := TokenKind.spelling_ofChar? isChar
      have notBlank := isBlank_of_mem_spelling c (isSpelling ▸ List.mem_cons_self)
      rw [notBlank] at blank
      cases blank

/-- A character that is blank in running text starts no token. -/
theorem scan_of_isBlank {c : Char} (blank : Unicode.isBlank c) (more : List Char) :
    scan c more = .error (.unexpectedCharacter c) := by
  have other {d : Char} (notBlank : Unicode.isBlank d = false) : c ≠ d := by
    rintro rfl
    rw [notBlank] at blank
    cases blank
  have noWord : startsWord c = false := by
    simp [startsWord, Unicode.isLetter_of_isBlank blank, other (d := '_') (by decide)]
  have noPair : more.head?.bind (TokenKind.ofPair? c) = none :=
    Option.bind_eq_none_iff.2 fun d _ => ofPair?_of_isBlank blank d
  rw [scan, if_neg fun isByteStr => other (by decide) isByteStr.1,
    if_neg fun isByte => other (by decide) isByte.1, noWord, if_neg Bool.false_ne_true,
    Unicode.isDigit_of_isBlank blank, if_neg Bool.false_ne_true, if_neg (other (by decide)),
    if_neg (other (by decide)), noPair, ofChar?_of_isBlank blank]

section Gaps

variable {cs : List Char}

theorem gapLength_blanks_append {blanks : List Char} (areBlank : ∀ c ∈ blanks, isBlank c) :
    gapLength false (blanks ++ cs) = blanks.length + gapLength false cs := by
  induction blanks with
  | nil => simp
  | cons c blanks inductionHypothesis =>
      obtain ⟨here, behind⟩ := List.forall_mem_cons.1 areBlank
      simp [gapLength, here, inductionHypothesis behind, Nat.add_right_comm]

theorem gapLength_comment (oneLine : '\n' ∉ cs) : gapLength true cs = cs.length := by
  induction cs with
  | nil => rfl
  | cons c cs inductionHypothesis =>
      rw [List.mem_cons, not_or] at oneLine
      simp [gapLength, Ne.symm oneLine.1, inductionHypothesis oneLine.2]

/-- A line whose blanks all separate tokens is a gap if nothing but a comment stands behind them. -/
theorem gapLength_of_leading (oneLine : '\n' ∉ cs)
    (areBlank : ∀ c ∈ cs.takeWhile Unicode.isBlank, isBlank c)
    (behind : cs.dropWhile Unicode.isBlank = [] ∨
      ∃ body, cs.dropWhile Unicode.isBlank = '/' :: '/' :: body) :
    gapLength false cs = cs.length := by
  have split : cs.takeWhile Unicode.isBlank ++ cs.dropWhile Unicode.isBlank = cs :=
    List.takeWhile_append_dropWhile
  rw [← split, gapLength_blanks_append areBlank, List.length_append, Nat.add_left_cancel_iff]
  rcases behind with nothing | ⟨body, comment⟩
  · rw [nothing]
    rfl
  · have inLine : '\n' ∉ '/' :: body := by
      intro member
      apply oneLine
      rw [← split, comment]
      exact List.mem_append_right _ (List.mem_cons_of_mem _ member)
    have notBlank : isBlank '/' = false := by decide
    rw [comment, gapLength, notBlank]
    simp [gapLength_comment inLine]

/-- Behind the blanks that separate tokens, the first one that does not is a fault. -/
theorem exists_fault_of_foreign (foreign : (cs.takeWhile Unicode.isBlank).any fun c => !isBlank c) :
    ∃ gap c more, cs = gap ++ c :: more ∧ gapLength false (gap ++ c :: more) = gap.length ∧
      Unicode.isBlank c := by
  induction cs with
  | nil => cases foreign
  | cons d cs inductionHypothesis =>
      cases blank : Unicode.isBlank d with
      | false => simp [blank] at foreign
      | true =>
          cases separates : isBlank d with
          | false =>
              have notSlash : d ≠ '/' := by
                rintro rfl
                exact absurd blank (by decide)
              exact ⟨[], d, cs, rfl, by simp [gapLength, separates, notSlash], blank⟩
          | true =>
              rw [List.takeWhile_cons_of_pos blank] at foreign
              obtain ⟨gap, c, more, rfl, isGap, blankBehind⟩ :=
                inductionHypothesis (by simpa [separates] using foreign)
              exact ⟨d :: gap, c, more, rfl, by simp [gapLength, separates, isGap], blankBehind⟩

end Gaps

end Lexer

/-! ## Lines that are passed over -/

namespace Lint

/-- Whether a line is passed over though something is wrong with it: among the blanks in front of it is one that does
not separate tokens. -/
def hides (line : String) : Bool :=
  isPassedOver line && (line.toList.takeWhile Unicode.isBlank).any fun c => !Lexer.isBlank c

section PassedOver

variable {line : String}

/-- Behind its first blanks, a line that is passed over has nothing, or a comment. -/
theorem dropWhile_of_isPassedOver (passed : isPassedOver line) :
    line.toList.dropWhile Unicode.isBlank = [] ∨
      ∃ body, line.toList.dropWhile Unicode.isBlank = '/' :: '/' :: body := by
  have first := List.head?_dropWhile_not Unicode.isBlank line.toList
  unfold isPassedOver Unicode.trim at passed
  generalize line.toList.dropWhile Unicode.isBlank = cs at passed first
  have trimmed : (cs.reverse.dropWhile Unicode.isBlank).reverse <+: cs := by
    rw [← List.reverse_suffix, List.reverse_reverse]
    exact List.dropWhile_suffix _
  simp only [Bool.or_eq_true] at passed
  rcases passed with isEmpty | isComment
  · left
    cases cs with
    | nil => rfl
    | cons c cs =>
        have allBlank : ∀ d ∈ (c :: cs).reverse, Unicode.isBlank d := by
          rw [← List.dropWhile_eq_nil_iff]
          simpa using isEmpty
        have notBlank : Unicode.isBlank c = false := first
        rw [allBlank c (by simp)] at notBlank
        cases notBlank
  · right
    have isPrefix := String.startsWith_string_iff.1 isComment
    rw [String.toList_ofList, String.toList_ofList] at isPrefix
    obtain ⟨body, rfl⟩ := isPrefix.trans trimmed
    exact ⟨body, rfl⟩

/-- A line that is passed over and hides nothing is a gap. -/
theorem gapLength_of_isPassedOver (oneLine : '\n' ∉ line.toList) (passed : isPassedOver line)
    (shows : hides line = false) : Lexer.gapLength false line.toList = line.toList.length := by
  apply Lexer.gapLength_of_leading oneLine _ (dropWhile_of_isPassedOver passed)
  intro c member
  rw [hides, passed, Bool.true_and, List.any_eq_false] at shows
  simpa using shows c member

variable {attrs : Grammar}

/-- Nothing is wrong with a gap. -/
theorem line?_of_gap (isGrammar : attrs.misuse? = none)
    (onlyGap : Lexer.gapLength false line.toList = line.toList.length) :
    line? attrs line = .ok none := by
  have noTrees : treesOf line = .ok ([], Position.start.after line.toList) :=
    treesOf_eq_ok_iff_lexed.2 ⟨.finish onlyGap, by simp [Tree.leavesAll]⟩
  have nothing : (Grammar.terminated attrs).parseTrees [] (Position.start.after line.toList) =
      .ok (.terminated []) := by
    rw [Grammar.parseTrees, Grammar.read, Grammar.readItems, isGrammar]
    rfl
  rw [line?, check, parseAttributes, Grammar.parse_of_trees noTrees, nothing]
  rfl

/-- Behind a gap, a character that is blank in running text but separates no tokens is found wrong. -/
theorem line?_of_foreign {gap more : List Char} {c : Char} (split : line.toList = gap ++ c :: more)
    (isGap : Lexer.gapLength false (gap ++ c :: more) = gap.length) (blank : Unicode.isBlank c) :
    line? attrs line =
      .ok (some ⟨Position.start.after gap, (Lexer.Fault.unexpectedCharacter c).message⟩) := by
  have fails : tokenize line = .error ⟨.unexpectedCharacter c, Position.start.after gap⟩ := by
    rw [tokenize, split]
    exact Lexer.Scans.nothing.tokensFrom_fault isGap (Lexer.scan_of_isBlank blank more)
  rw [line?, check, parseAttributes, Grammar.parse_of_error (treesOf_eq_error_iff.2 (.inl ⟨_, fails, rfl⟩))]
  rfl

/-- Something is wrong with every line that hides it. -/
theorem exists_line?_of_hides (hidden : hides line) : ∃ finding, line? attrs line = .ok (some finding) := by
  rw [hides, Bool.and_eq_true] at hidden
  obtain ⟨gap, c, more, split, isGap, blank⟩ := Lexer.exists_fault_of_foreign hidden.2
  exact ⟨_, line?_of_foreign split isGap blank⟩

end PassedOver

/-! ## Texts -/

/-- The lines of a text that end at line feeds. -/
def feedLines (text : String) : List String :=
  (text.toList.splitOn '\n').map String.ofList

/-- What is wrong with a line by itself, at the number that the line has in its text. -/
def numbered? (attrs : Grammar) (line : String × Nat) : Except Failure (Option Finding) :=
  (line? attrs line.1).map (Option.map fun f => ⟨⟨line.2, f.position.column⟩, f.message⟩)

/-- What is wrong with numbered lines, each by itself. -/
def findingsOf (attrs : Grammar) (lines : List (String × Nat)) : Except Failure (List Finding) :=
  (lines.mapM (numbered? attrs)).map (List.filterMap id)

section Texts

variable {attrs : Grammar}

theorem findingsOf_cons (line : String × Nat) (later : List (String × Nat)) :
    findingsOf attrs (line :: later) =
      numbered? attrs line >>= fun found => (findingsOf attrs later).map (found.toList ++ ·) := by
  unfold findingsOf
  rw [List.mapM_cons]
  cases numbered? attrs line with
  | error failure => rfl
  | ok found =>
      cases later.mapM (numbered? attrs) with
      | error failure => rfl
      | ok behind => cases found <;> rfl

/-- A line in which nothing is wrong can be left out. -/
theorem findingsOf_cons_none {line : String} {number : Nat} (later : List (String × Nat))
    (nothing : line? attrs line = .ok none) :
    findingsOf attrs ((line, number) :: later) = findingsOf attrs later := by
  rw [findingsOf_cons, numbered?, nothing]
  show (findingsOf attrs later).map ([] ++ ·) = _
  cases findingsOf attrs later <;> rfl

/-- What is wrong with a line is in its only line, so it is at the number of the line in the text. -/
theorem onLine_of_check {line : String} {finding : Finding} (oneLine : '\n' ∉ line.toList)
    (found : check attrs line = .ok (.error finding)) (number : Nat) :
    finding.onLine number = ⟨⟨number, finding.position.column⟩, finding.message⟩ := by
  have isFound : line? attrs line = .ok (some finding) := by rw [line?, found]; rfl
  have first := (isIn_of_line? isFound).line_eq_one oneLine
  simp [Finding.onLine, first]

/-- Of the lines that are checked comes what is wrong with all lines, but for those that hide it. -/
theorem findings_of_checked (isGrammar : attrs.misuse? = none) {lines : List (String × Nat)}
    (oneLine : ∀ line ∈ lines, '\n' ∉ line.1.toList) :
    ((lines.filterMap fun line : String × Nat =>
        if isPassedOver line.1 then none else some (line.2, line.1)).mapM fun line =>
          (check attrs line.2).map (Except.mapError (Finding.onLine line.1))).map findings =
      findingsOf attrs (lines.filter fun line => !hides line.1) := by
  induction lines with
  | nil => rfl
  | cons first later inductionHypothesis =>
      obtain ⟨line, number⟩ := first
      obtain ⟨here, behind⟩ := List.forall_mem_cons.1 oneLine
      specialize inductionHypothesis behind
      cases passed : isPassedOver line with
      | true =>
          rw [List.filterMap_cons_none (by simp [passed]), inductionHypothesis]
          cases shows : hides line with
          | true => rw [List.filter_cons_of_neg (by simp [shows])]
          | false =>
              rw [List.filter_cons_of_pos (by simp [shows]),
                findingsOf_cons_none _ (line?_of_gap isGrammar (gapLength_of_isPassedOver here passed shows))]
      | false =>
          have shows : hides line = false := by rw [hides, passed, Bool.false_and]
          rw [List.filterMap_cons_some (by simp only [passed]; rfl), List.mapM_cons,
            List.filter_cons_of_pos (by simp [shows]), findingsOf_cons, ← inductionHypothesis, numbered?, line?]
          generalize List.mapM (m := Except Failure) _ (later.filterMap _) = rest
          cases isChecked : check attrs line with
          | error failure => rfl
          | ok result =>
              cases result with
              | ok attributes => cases rest <;> rfl
              | error finding =>
                  have isOnLine := onLine_of_check here isChecked number
                  cases rest with
                  | error failure => rfl
                  | ok results => exact congrArg (fun first => Except.ok (first :: findings results)) isOnLine

theorem feed_not_mem_lines {text : String} : ∀ line ∈ Unicode.lines text, '\n' ∉ line.toList := by
  intro line member
  obtain ⟨cs, isLine, rfl⟩ := List.mem_map.1 member
  rw [String.toList_ofList]
  exact Unicode.feed_not_mem_splitLines (by simp) cs isLine

section OnlyFeeds

variable {text : String} (onlyFeeds : ∀ c ∈ text.toList, Unicode.endsLine c → c = '\n')

include onlyFeeds

theorem feedLines_of_onlyFeeds :
    feedLines text = Unicode.lines text ∨ feedLines text = Unicode.lines text ++ [""] := by
  rcases @Unicode.splitOnPPrepend_feed [] text.toList onlyFeeds with same | more
  · exact .inl (congrArg _ same)
  · exact .inr ((congrArg _ more).trans List.map_append)

theorem feed_not_mem_feedLines : ∀ line ∈ feedLines text, '\n' ∉ line.toList := by
  rcases feedLines_of_onlyFeeds onlyFeeds with same | more
  · rw [same]
    exact feed_not_mem_lines
  · rw [more, List.forall_mem_append]
    exact ⟨feed_not_mem_lines, by simp⟩

/-- Where only line feeds end lines, the lines between them are checked. -/
theorem checkedLines_of_onlyFeeds :
    checkedLines text = ((feedLines text).zipIdx 1).filterMap fun line =>
      if isPassedOver line.1 then none else some (line.2, line.1) := by
  rcases feedLines_of_onlyFeeds onlyFeeds with same | more
  · rw [same]
    rfl
  · have passed : isPassedOver "" = true := by decide
    rw [more, List.zipIdx_append, List.filterMap_append, List.zipIdx_singleton,
      List.filterMap_cons_none (by simp [passed]), List.filterMap_nil, List.append_nil]
    rfl

end OnlyFeeds

end Texts

/-- An open bracket is found wrong. -/
theorem check_unclosed {attrs : Grammar} :
    check attrs "(" = .ok (.error ⟨⟨1, 1⟩, "Unclosed '('"⟩) := by
  have lexed : Lexer.Lexed .start "(".toList [⟨.lparen, "(", ⟨1, 1⟩, false⟩, Token.atEnd ⟨1, 2⟩] :=
    @Lexer.Lexed.token _ [] '(' [] .lparen 0 _ rfl rfl (.finish rfl)
  have noTrees : treesOf "(" = .error (.unbalanced ⟨.unclosed "(", ⟨1, 1⟩⟩) :=
    treesOf_eq_error_iff.2 (.inr ⟨_, _, Lexer.tokensFrom_eq_ok_iff.2 lexed, rfl, rfl⟩)
  rw [check, parseAttributes, Grammar.parse_of_error noTrees]
  rfl

/-- What is wrong with a text is what is wrong with its lines, each by itself and at its number, but for lines that
hide it. Its lines are those that line feeds end if nothing else in the text ends lines. -/
theorem source_eq_findingsOf {attrs : Grammar} (isGrammar : attrs.misuse? = none) (text : String) :
    source attrs text =
        findingsOf attrs (((Unicode.lines text).zipIdx 1).filter fun line => !hides line.1) ∧
      ((∀ c ∈ text.toList, Unicode.endsLine c → c = '\n') →
        source attrs text =
          findingsOf attrs (((feedLines text).zipIdx 1).filter fun line => !hides line.1)) ∧
      ∀ line, hides line → ∃ finding, line? attrs line = .ok (some finding) := by
  refine ⟨?_, fun onlyFeeds => ?_, fun line => exists_line?_of_hides⟩
  · exact findings_of_checked isGrammar fun line member =>
      feed_not_mem_lines line.1 (List.fst_mem_of_mem_zipIdx member)
  · rw [source, results, checkedLines_of_onlyFeeds onlyFeeds]
    exact findings_of_checked isGrammar fun line member =>
      feed_not_mem_feedLines onlyFeeds line.1 (List.fst_mem_of_mem_zipIdx member)

/-- An open bracket behind an empty line is reported in the second one. -/
theorem source_eq_findingsOf_unclosed :
    (Grammar.builtin .field).misuse? = none ∧ (∀ c ∈ "\n(".toList, Unicode.endsLine c → c = '\n') ∧
      source (.builtin .field) "\n(" = .ok [⟨⟨2, 1⟩, "Unclosed '('"⟩] ∧
      source (.builtin .field) "\n(" = findingsOf (.builtin .field) [("", 1), ("(", 2)] ∧
      hides "\u00a0" = true ∧ ∃ finding, line? (.builtin .field) "\u00a0" = .ok (some finding) := by
  have isGrammar : (Grammar.builtin .field).misuse? = none := rfl
  have onlyFeeds : ∀ c ∈ "\n(".toList, Unicode.endsLine c → c = '\n' := by
    have inLine : Unicode.endsLine '(' = false := by decide
    simp [inLine]
  have hidden : hides "\u00a0" = true := by decide
  obtain ⟨byLines, byFeeds, found⟩ := source_eq_findingsOf isGrammar "\n("
  refine ⟨isGrammar, onlyFeeds, ?_, byFeeds onlyFeeds, hidden, found _ hidden⟩
  have lines : (((Unicode.lines "\n(").zipIdx 1).filter fun line => !hides line.1) = [("", 1), ("(", 2)] := by
    decide
  rw [byLines, lines, findingsOf_cons_none _ (line?_of_gap isGrammar rfl), findingsOf_cons, numbered?, line?,
    check_unclosed]
  rfl

/-- A vertical tab ends a line that is checked, though places count no line there, and a no-break space is passed over,
though it starts no token. -/
theorem source_ne_findingsOf :
    (source (.builtin .field) "\x0b(" = .ok [⟨⟨2, 1⟩, "Unclosed '('"⟩] ∧
      findingsOf (.builtin .field) ((feedLines "\x0b(").zipIdx 1) =
        .ok [⟨⟨1, 1⟩, "Unexpected character: '\\x0b'"⟩]) ∧
    source (.builtin .field) "\u00a0" = .ok [] ∧
      findingsOf (.builtin .field) ((feedLines "\u00a0").zipIdx 1) =
        .ok [⟨⟨1, 1⟩, "Unexpected character: '\\xa0'"⟩] := by
  have checked : checkedLines "\x0b(" = [(2, "(")] := by decide
  have none : checkedLines "\u00a0" = [] := by decide
  have tab : line? (.builtin .field) "\x0b(" = .ok (some ⟨⟨1, 1⟩, "Unexpected character: '\\x0b'"⟩) :=
    @line?_of_foreign _ _ [] ['('] '\x0b' rfl rfl rfl
  have space : line? (.builtin .field) "\u00a0" = .ok (some ⟨⟨1, 1⟩, "Unexpected character: '\\xa0'"⟩) :=
    @line?_of_foreign _ _ [] [] '\u00a0' rfl rfl rfl
  refine ⟨⟨?_, ?_⟩, ?_, ?_⟩
  · simp only [source, results, checked, List.mapM_cons, check_unclosed]
    rfl
  · have lines : (feedLines "\x0b(").zipIdx 1 = [("\x0b(", 1)] := by decide
    rw [lines, findingsOf_cons, numbered?, tab]
    rfl
  · rw [source, results, none]
    rfl
  · have lines : (feedLines "\u00a0").zipIdx 1 = [("\u00a0", 1)] := by decide
    rw [lines, findingsOf_cons, numbered?, space]
    rfl

end Lint

end AttrGrammar
