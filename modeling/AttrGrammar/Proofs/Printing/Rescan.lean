import AttrGrammar.Proofs.Lexing.Lexed

/-!
Contract: a token of a source is scanned again when other characters follow it.

Owns:
- the characters that end every token;
- for each scanner, that it reads the same token where such characters follow.

A scanner looks at one or two characters behind its token. What followed the token in its source could not go on
with it, and neither can what follows it in a print.
-/

namespace AttrGrammar

namespace Lexer

/-- Whether characters end any token in front of them: there are none, or the first is a space or closes a
bracket. -/
def Ends (tail : List Char) : Prop :=
  ∀ c, tail.head? = some c → c ∈ [' ', ')', ']', '\x7d']

theorem ends_nil : Ends [] := nofun

theorem ends_space (cs : List Char) : Ends (' ' :: cs) := by
  intro c first
  obtain rfl := Option.some.inj first
  simp

section Classes

variable {tail : List Char} {c : Char}

theorem Ends.not_continuesWord (ends : Ends tail) (first : tail.head? = some c) :
    continuesWord c = false := by
  have among := ends c first
  simp only [List.mem_cons, List.not_mem_nil, or_false] at among
  rcases among with rfl | rfl | rfl | rfl <;> rfl

theorem Ends.not_digit (ends : Ends tail) (first : tail.head? = some c) :
    Unicode.isDigit c = false := by
  have among := ends c first
  simp only [List.mem_cons, List.not_mem_nil, or_false] at among
  rcases among with rfl | rfl | rfl | rfl <;> rfl

theorem Ends.not_continuesDigits (ends : Ends tail) (first : tail.head? = some c) :
    continuesDigits c = false := by
  have among := ends c first
  simp only [List.mem_cons, List.not_mem_nil, or_false] at among
  rcases among with rfl | rfl | rfl | rfl <;> rfl

theorem Ends.not_continuesRadix (ends : Ends tail) (first : tail.head? = some c) (mark : Char) :
    continuesRadix mark c = false := by
  have among := ends c first
  simp only [List.mem_cons, List.not_mem_nil, or_false] at among
  rcases among with rfl | rfl | rfl | rfl <;> simp [continuesRadix]

theorem Ends.ne_of_first (ends : Ends tail) (first : tail.head? = some c) {d : Char}
    (other : d ∉ [' ', ')', ']', '\x7d']) : c ≠ d := by
  rintro rfl
  exact other (ends c first)

end Classes

/-! ## Runs -/

theorem runLength_le (inClass : Char → Bool) (cs : List Char) :
    runLength inClass cs ≤ cs.length :=
  (List.takeWhile_sublist _).length_le

theorem runLength_cons (inClass : Char → Bool) (c : Char) (cs : List Char) :
    runLength inClass (c :: cs) = if inClass c then runLength inClass cs + 1 else 0 := by
  unfold runLength
  rw [List.takeWhile_cons]
  split <;> rfl

theorem runLength_eq_zero {inClass : Char → Bool} {cs : List Char}
    (stops : ∀ c, cs.head? = some c → inClass c = false) : runLength inClass cs = 0 := by
  cases cs with
  | nil => rfl
  | cons c cs => rw [runLength_cons, stops c rfl]; rfl

/-- A run ends where the first character of another class stands. -/
theorem takeWhile_append {inClass : Char → Bool} {front back : List Char} (inside : ∀ c ∈ front, inClass c)
    (stops : ∀ c, back.head? = some c → inClass c = false) : (front ++ back).takeWhile inClass = front := by
  have none : back.takeWhile inClass = [] := List.length_eq_zero_iff.1 (runLength_eq_zero stops)
  rw [List.takeWhile_append_of_pos inside, none, List.append_nil]

theorem runLength_append {inClass : Char → Bool} {front back : List Char} (inside : ∀ c ∈ front, inClass c)
    (stops : ∀ c, back.head? = some c → inClass c = false) : runLength inClass (front ++ back) = front.length :=
  congrArg List.length (takeWhile_append inside stops)

theorem dropWhile_append {inClass : Char → Bool} {front back : List Char} (inside : ∀ c ∈ front, inClass c)
    (stops : ∀ c, back.head? = some c → inClass c = false) : (front ++ back).dropWhile inClass = back := by
  have whole := @List.takeWhile_append_dropWhile _ inClass (front ++ back)
  rw [takeWhile_append inside stops] at whole
  exact List.append_cancel_left whole

theorem runLength_eq_length {inClass : Char → Bool} {cs : List Char} (inside : cs.all inClass) :
    runLength inClass cs = cs.length := by
  have whole := @runLength_append inClass cs [] (List.all_eq_true.1 inside) (by simp)
  rwa [List.append_nil] at whole

/-- A run does not depend on what stands behind it. -/
theorem runLength_take_append {inClass : Char → Bool} {cs tail : List Char} {length : Nat}
    (runLe : runLength inClass cs ≤ length) (lengthLe : length ≤ cs.length)
    (stops : ∀ c, tail.head? = some c → inClass c = false) :
    runLength inClass (cs.take length ++ tail) = runLength inClass cs := by
  induction cs generalizing length with
  | nil =>
      obtain rfl := Nat.le_zero.1 lengthLe
      exact runLength_eq_zero stops
  | cons c cs inductionHypothesis =>
      cases length with
      | zero =>
          rw [Nat.le_zero.1 runLe]
          exact runLength_eq_zero stops
      | succ length =>
          rw [List.take_succ_cons, List.cons_append, runLength_cons, runLength_cons]
          rw [runLength_cons] at runLe
          split
          · rename_i inside
            rw [if_pos inside] at runLe
            rw [inductionHypothesis (Nat.le_of_succ_le_succ runLe)
              (Nat.le_of_succ_le_succ lengthLe)]
          · rfl

/-! ## Quotes -/

theorem quotedLength?_cons {quote c : Char} (noEscape : c ≠ '\\') (cs : List Char) :
    quotedLength? quote (c :: cs) =
      if c = quote then some 1 else (quotedLength? quote cs).map (· + 1) := by
  rw [quotedLength?]
  exact fun _ _ isEscape _ => noEscape isEscape

/-- What stands behind a closing quote does not count. -/
theorem quotedLength?_take {quote : Char} (isQuote : quote ≠ '\\') {cs : List Char} {length : Nat}
    (found : quotedLength? quote cs = some length) :
    length ≤ cs.length ∧
      ∀ tail, quotedLength? quote (cs.take length ++ tail) = some length := by
  fun_induction quotedLength? quote cs generalizing length with
  | case1 => cases found
  | case2 d cs inductionHypothesis =>
      obtain ⟨length, inner, rfl⟩ := Option.map_eq_some_iff.1 found
      obtain ⟨lengthLe, again⟩ := inductionHypothesis inner
      refine ⟨by simpa using lengthLe, fun tail => ?_⟩
      simp [quotedLength?, again]
  | case3 cs noEscape =>
      obtain rfl := Option.some.inj found
      refine ⟨by simp, fun tail => ?_⟩
      rw [List.take_succ_cons, List.cons_append, quotedLength?_cons isQuote, if_pos rfl]
  | case4 c cs noEscape notClosing inductionHypothesis =>
      obtain ⟨length, inner, rfl⟩ := Option.map_eq_some_iff.1 found
      obtain ⟨lengthLe, again⟩ := inductionHypothesis inner
      refine ⟨by simpa using lengthLe, fun tail => ?_⟩
      have notEscape : c ≠ '\\' := by
        rintro rfl
        cases cs with
        | nil => cases inner
        | cons d cs => exact noEscape d cs rfl rfl
      rw [List.take_succ_cons, List.cons_append, quotedLength?_cons notEscape, if_neg notClosing,
        again]
      rfl

/-! ## Numbers -/

/-- The length of the digits of a decimal number behind its first one, and whether it has a fraction or an
exponent. -/
def decimalLength (cs : List Char) : Nat × Bool :=
  let whole := runLength continuesDigits cs
  let fraction := fractionLength (cs.drop whole)
  let exponent := exponentLength (cs.drop (whole + fraction))
  (whole + fraction + exponent, decide (fraction ≠ 0 ∨ exponent ≠ 0))

theorem digitsLength_cons (first mark : Char) (more : List Char) :
    digitsLength first (mark :: more) =
      if first = '0' ∧ (mark = 'x' ∨ mark = 'o' ∨ mark = 'b') then
        (runLength (continuesRadix mark) more + 1, false)
      else decimalLength (mark :: more) := rfl

theorem fractionLength_eq_zero {cs : List Char} (noPoint : cs.head? ≠ some '.') :
    fractionLength cs = 0 := by
  unfold fractionLength
  split
  · exact absurd rfl noPoint
  · rfl

theorem exponentLength_eq_zero {cs : List Char}
    (noMark : ∀ c, cs.head? = some c → c ≠ 'e' ∧ c ≠ 'E') : exponentLength cs = 0 := by
  unfold exponentLength
  split
  · rename_i mark next cs
    have other := noMark mark rfl
    rw [if_neg (by simp [other])]
  · rfl

section Numbers

variable {cs tail : List Char} {length : Nat}

theorem fractionLength_le (cs : List Char) : fractionLength cs ≤ cs.length := by
  unfold fractionLength
  split
  · rename_i digit cs
    split
    · exact Nat.succ_le_succ (Nat.succ_le_succ (runLength_le _ cs))
    · exact Nat.zero_le _
  · exact Nat.zero_le _

theorem exponentLength_le (cs : List Char) : exponentLength cs ≤ cs.length := by
  unfold exponentLength
  split
  · rename_i mark next cs
    split
    · exact Nat.succ_le_succ (Nat.succ_le_succ (runLength_le _ cs))
    · exact Nat.zero_le _
  · exact Nat.zero_le _

theorem Ends.noPoint (ends : Ends tail) : tail.head? ≠ some '.' :=
  fun first => ends.ne_of_first first (by decide) rfl

/-- A point without a digit behind it is not in a number; all else of a fraction is. -/
theorem fractionLength_take_append (ends : Ends tail) (fractionLe : fractionLength cs ≤ length)
    (lengthLe : length ≤ cs.length)
    (pointOutside : fractionLength cs = 0 → cs.head? = some '.' → length = 0) :
    fractionLength (cs.take length ++ tail) = fractionLength cs := by
  by_cases point : cs.head? = some '.'
  · obtain ⟨rest, rfl⟩ : ∃ rest, cs = '.' :: rest := List.head?_eq_some_iff.1 point
    by_cases none : fractionLength ('.' :: rest) = 0
    · rw [none, pointOutside none point]
      exact fractionLength_eq_zero ends.noPoint
    · cases rest with
      | nil => exact absurd rfl none
      | cons digit rest =>
          by_cases isDigit : Unicode.isDigit digit
          · simp only [fractionLength, isDigit, if_true] at fractionLe
            obtain ⟨length, rfl⟩ : ∃ more, length = more + 2 := ⟨length - 2, by omega⟩
            have same := runLength_take_append (Nat.le_of_add_le_add_right fractionLe)
              (by simpa using lengthLe) fun c first => ends.not_continuesDigits first
            simp [fractionLength, isDigit, same]
          · simp [fractionLength, isDigit] at none
  · rw [fractionLength_eq_zero point]
    refine fractionLength_eq_zero ?_
    cases length with
    | zero => exact ends.noPoint
    | succ length =>
        cases cs with
        | nil => exact ends.noPoint
        | cons c cs => simpa using point

/-- Whether a mark of an exponent and the character behind it start one. -/
theorem exponentLength_cons (mark next : Char) (cs : List Char) :
    exponentLength (mark :: next :: cs) =
      if (mark = 'e' ∨ mark = 'E') ∧ (Unicode.isDigit next ∨ next = '+' ∨ next = '-') then
        runLength Unicode.isDigit cs + 2
      else 0 := rfl

/-- A mark at the end of a number starts no exponent. -/
theorem exponentLength_mark (ends : Ends tail) (mark : Char) :
    exponentLength (mark :: tail) = 0 := by
  cases tail with
  | nil => rfl
  | cons next cs =>
      have noPlus : next ≠ '+' := ends.ne_of_first rfl (by decide)
      have noMinus : next ≠ '-' := ends.ne_of_first rfl (by decide)
      rw [exponentLength_cons, if_neg (by simp [ends.not_digit rfl, noPlus, noMinus])]

theorem exponentLength_take_append (ends : Ends tail) (exponentLe : exponentLength cs ≤ length)
    (lengthLe : length ≤ cs.length) :
    exponentLength (cs.take length ++ tail) = exponentLength cs := by
  have noExponent : exponentLength tail = 0 := exponentLength_eq_zero fun c first =>
    ⟨ends.ne_of_first first (by decide), ends.ne_of_first first (by decide)⟩
  match cs, length with
  | cs, 0 => rw [Nat.le_zero.1 exponentLe]; exact noExponent
  | [mark], length + 1 =>
      rw [List.take_succ_cons, List.take_nil]
      exact exponentLength_mark ends mark
  | mark :: next :: cs, 1 =>
      have noneHere : exponentLength (mark :: next :: cs) = 0 := by
        rw [exponentLength_cons] at exponentLe ⊢
        split
        · rename_i isExponent
          rw [if_pos isExponent] at exponentLe
          omega
        · rfl
      rw [noneHere]
      exact exponentLength_mark ends mark
  | mark :: next :: cs, length + 2 =>
      rw [List.take_succ_cons, List.take_succ_cons, List.cons_append, List.cons_append,
        exponentLength_cons, exponentLength_cons]
      rw [exponentLength_cons] at exponentLe
      split
      · rename_i isExponent
        rw [if_pos isExponent] at exponentLe
        rw [runLength_take_append (Nat.le_of_add_le_add_right exponentLe) (by simpa using lengthLe)
          fun c first => ends.not_digit first]
      · rfl

/-- The length of a number with its suffix, which takes all characters of words. -/
def suffixed (digits : Nat) (cs : List Char) : Nat :=
  digits + runLength continuesWord (cs.drop digits)

theorem drop_take_append {n : Nat} (nLe : n ≤ length) (lengthLe : length ≤ cs.length) :
    (cs.take length ++ tail).drop n = (cs.drop n).take (length - n) ++ tail := by
  have taken : n ≤ (cs.take length).length := by
    rw [List.length_take, Nat.min_eq_left lengthLe]
    exact nLe
  rw [List.drop_append_of_le_length taken, List.drop_take]

theorem decimalLength_le (cs : List Char) : (decimalLength cs).1 ≤ cs.length := by
  have wholeLe := runLength_le continuesDigits cs
  have fractionLe := fractionLength_le (cs.drop (runLength continuesDigits cs))
  have exponentLe := exponentLength_le (cs.drop (runLength continuesDigits cs +
    fractionLength (cs.drop (runLength continuesDigits cs))))
  simp only [List.length_drop] at fractionLe exponentLe
  simp only [decimalLength]
  omega

/-- What stands behind a decimal number and its suffix does not count. -/
theorem decimalLength_take_append (ends : Ends tail)
    (covers : suffixed (decimalLength cs).1 cs = length) :
    decimalLength (cs.take length ++ tail) = decimalLength cs := by
  have digitsLe := decimalLength_le cs
  have suffixLe := runLength_le continuesWord (cs.drop (decimalLength cs).1)
  simp only [suffixed, List.length_drop] at covers suffixLe
  have lengthLe : length ≤ cs.length := by omega
  simp only [decimalLength] at covers digitsLe suffixLe ⊢
  generalize wholeEq : runLength continuesDigits cs = whole at *
  generalize fractionEq : fractionLength (cs.drop whole) = fraction at *
  generalize exponentEq : exponentLength (cs.drop (whole + fraction)) = exponent at *
  have sameWhole : runLength continuesDigits (cs.take length ++ tail) = whole := by
    rw [← wholeEq]
    exact runLength_take_append (by omega) lengthLe fun c first => ends.not_continuesDigits first
  have sameFraction : fractionLength ((cs.take length ++ tail).drop whole) = fraction := by
    rw [drop_take_append (by omega) lengthLe, ← fractionEq]
    refine fractionLength_take_append ends (by omega) (by simp; omega) fun none point => ?_
    -- A number ends in front of a point without a digit behind it.
    have noExponent : exponent = 0 := by
      rw [← exponentEq, ← fractionEq, none, Nat.add_zero]
      refine exponentLength_eq_zero fun c first => ?_
      obtain rfl := Option.some.inj (point.symm.trans first)
      decide
    have noSuffix : runLength continuesWord (cs.drop (whole + fraction + exponent)) = 0 := by
      rw [noExponent, ← fractionEq, none]
      refine runLength_eq_zero fun c first => ?_
      obtain rfl := Option.some.inj (point.symm.trans first)
      rfl
    omega
  have sameExponent :
      exponentLength ((cs.take length ++ tail).drop (whole + fraction)) = exponent := by
    rw [drop_take_append (by omega) lengthLe, ← exponentEq]
    exact exponentLength_take_append ends (by omega) (by simp; omega)
  rw [sameWhole, sameFraction, sameExponent]

theorem digitsLength_le (first : Char) (cs : List Char) :
    (digitsLength first cs).1 ≤ cs.length := by
  cases cs with
  | nil => exact decimalLength_le []
  | cons mark more =>
      rw [digitsLength_cons]
      split
      · exact Nat.succ_le_succ (runLength_le _ more)
      · exact decimalLength_le (mark :: more)

/-- The digits of a number without a base mark are decimal. -/
theorem digitsLength_decimal {first : Char}
    (noMark : ∀ c, cs.head? = some c → ¬(first = '0' ∧ (c = 'x' ∨ c = 'o' ∨ c = 'b'))) :
    digitsLength first cs = decimalLength cs := by
  cases cs with
  | nil => rfl
  | cons mark more => rw [digitsLength_cons, if_neg (noMark mark rfl)]

theorem head?_take_append {c : Char} (first : (cs.take length ++ tail).head? = some c) :
    cs.head? = some c ∨ tail.head? = some c := by
  match cs, length with
  | [], _ => simp_all
  | _ :: _, 0 => simp_all
  | d :: cs, length + 1 => exact .inl first

theorem Ends.noMark (ends : Ends tail) (first : Char) (c : Char) (isFirst : tail.head? = some c) :
    ¬(first = '0' ∧ (c = 'x' ∨ c = 'o' ∨ c = 'b')) := by
  rintro ⟨-, rfl | rfl | rfl⟩ <;> exact ends.ne_of_first isFirst (by decide) rfl

theorem digitsLength_take_append (ends : Ends tail) {first : Char}
    (covers : suffixed (digitsLength first cs).1 cs = length) :
    digitsLength first (cs.take length ++ tail) = digitsLength first cs := by
  by_cases marked : ∃ c, cs.head? = some c ∧ first = '0' ∧ (c = 'x' ∨ c = 'o' ∨ c = 'b')
  · obtain ⟨mark, isFirst, isMark⟩ := marked
    obtain ⟨more, rfl⟩ := List.head?_eq_some_iff.1 isFirst
    rw [digitsLength_cons, if_pos isMark] at covers ⊢
    simp only [suffixed, List.drop_succ_cons] at covers
    have suffixLe := runLength_le continuesWord (more.drop (runLength (continuesRadix mark) more))
    have digitsLe := runLength_le (continuesRadix mark) more
    rw [List.length_drop] at suffixLe
    obtain ⟨length, rfl⟩ : ∃ n, length = n + 1 := ⟨length - 1, by omega⟩
    rw [List.take_succ_cons, List.cons_append, digitsLength_cons, if_pos isMark,
      runLength_take_append (by omega) (by omega) fun c first => ends.not_continuesRadix first mark]
  · have noMark : ∀ c, cs.head? = some c → ¬(first = '0' ∧ (c = 'x' ∨ c = 'o' ∨ c = 'b')) :=
      fun c isFirst isMark => marked ⟨c, isFirst, isMark⟩
    rw [digitsLength_decimal noMark] at covers ⊢
    rw [← decimalLength_take_append ends covers]
    refine digitsLength_decimal fun c isFirst => ?_
    rcases head?_take_append isFirst with inside | behind
    · exact noMark c inside
    · exact ends.noMark first c behind

theorem scanNumber_eq (c : Char) (cs : List Char) :
    scanNumber c cs =
      (if (digitsLength c cs).2 ||
          hasFloatSuffix (c :: cs.take (suffixed (digitsLength c cs).1 cs)) then .float
        else .int,
        suffixed (digitsLength c cs).1 cs) := rfl

/-- What stands behind a number does not count. -/
theorem scanNumber_take_append (ends : Ends tail) (c : Char) (cs : List Char) :
    (scanNumber c cs).2 ≤ cs.length ∧
      scanNumber c (cs.take (scanNumber c cs).2 ++ tail) = scanNumber c cs := by
  have digitsLe := digitsLength_le c cs
  have suffixLe := runLength_le continuesWord (cs.drop (digitsLength c cs).1)
  rw [List.length_drop] at suffixLe
  have isLength : (scanNumber c cs).2 = suffixed (digitsLength c cs).1 cs := rfl
  have lengthLe : (scanNumber c cs).2 ≤ cs.length := by
    rw [isLength, suffixed]
    omega
  refine ⟨lengthLe, ?_⟩
  generalize lengthEq : (scanNumber c cs).2 = length at *
  have sameDigits := digitsLength_take_append ends isLength.symm
  have sameSuffix : suffixed (digitsLength c cs).1 (cs.take length ++ tail) = length := by
    rw [suffixed] at isLength
    have sameRun : runLength continuesWord
        ((cs.drop (digitsLength c cs).1).take (length - (digitsLength c cs).1) ++ tail) =
          runLength continuesWord (cs.drop (digitsLength c cs).1) :=
      runLength_take_append (by omega) (by rw [List.length_drop]; omega)
        fun c first => ends.not_continuesWord first
    rw [suffixed, drop_take_append (by omega) lengthLe, sameRun, ← isLength]
  have sameText : (cs.take length ++ tail).take length = cs.take length := by
    rw [List.take_append_of_le_length (by rw [List.length_take]; omega), List.take_take,
      Nat.min_self]
  rw [scanNumber_eq, sameDigits, sameSuffix, sameText, scanNumber_eq c cs, ← isLength]

end Numbers

/-! ## Tokens -/

section Tokens

variable {c : Char} {more tail : List Char} {kind : TokenKind} {length : Nat}

theorem Ends.ne_quote (ends : Ends tail) {quote : Char} (isQuote : quote = '"' ∨ quote = '\'') :
    tail.head? ≠ some quote := by
  intro first
  rcases isQuote with rfl | rfl <;> exact ends.ne_of_first first (by decide) rfl

theorem continuesWord_of_startsWord (starts : startsWord c) : continuesWord c := by
  simp only [startsWord, continuesWord, Bool.or_eq_true, decide_eq_true_eq] at starts ⊢
  rcases starts with isLetter | isUnderscore
  · exact .inl (.inl isLetter)
  · exact .inr isUnderscore

/-- Whether a single quote starts a character and no lifetime. -/
def startsCharacter (cs : List Char) : Prop :=
  cs.head? = some '\\' ∨ cs[1]? = some '\''

instance (cs : List Char) : Decidable (startsCharacter cs) :=
  inferInstanceAs (Decidable (_ ∨ _))

theorem scanSingleQuote_eq (cs : List Char) :
    scanSingleQuote cs =
      if startsCharacter cs then
        match quotedLength? '\'' cs with
        | some length => .ok (.char, length)
        | none => .error .unterminatedCharacter
      else if cs.head?.any startsWord then .ok (.lifetime, runLength continuesWord cs)
      else .error .invalidCharacter := rfl

/-- The text of a character other than the empty one shows that it is a character. -/
theorem startsCharacter_take (starts : startsCharacter more)
    (found : quotedLength? '\'' more = some length) (notEmpty : more.take length ≠ ['\'']) :
    startsCharacter (more.take length ++ tail) := by
  cases more with
  | nil => cases found
  | cons c more =>
      by_cases escape : c = '\\'
      · subst escape
        cases length with
        | zero =>
            have atLeast := (quotedLength?_take (by decide) found).2 []
            cases atLeast
        | succ length => exact .inl rfl
      · have second : more.head? = some '\'' := by
          rcases starts with isEscape | isQuote
          · exact absurd (Option.some.inj isEscape) escape
          · simpa [List.head?_eq_getElem?] using isQuote
        obtain ⟨rest, rfl⟩ := List.head?_eq_some_iff.1 second
        rw [quotedLength?_cons escape] at found
        split at found
        · rename_i empty
          obtain rfl := Option.some.inj found
          exact absurd (by rw [empty]; rfl) notEmpty
        · rw [quotedLength?_cons (by decide), if_pos rfl] at found
          obtain rfl := Option.some.inj found
          exact .inr rfl

theorem not_startsCharacter_take (ends : Ends tail) (notCharacter : ¬startsCharacter (c :: more))
    (length : Nat) : ¬startsCharacter (c :: more.take length ++ tail) := by
  rintro (isEscape | isQuote)
  · exact notCharacter (.inl isEscape)
  · have first : (more.take length ++ tail).head? = some '\'' := by
      simpa [List.head?_eq_getElem?] using isQuote
    rcases head?_take_append first with inside | behind
    · exact notCharacter (.inr (by simpa [List.head?_eq_getElem?] using inside))
    · exact ends.ne_quote (.inr rfl) behind

theorem scanSingleQuote_take_append (ends : Ends tail)
    (scanned : scanSingleQuote more = .ok (kind, length)) (notEmpty : more.take length ≠ ['\'']) :
    length ≤ more.length ∧ scanSingleQuote (more.take length ++ tail) = .ok (kind, length) := by
  rw [scanSingleQuote_eq] at scanned ⊢
  split at scanned
  · rename_i starts
    split at scanned
    · rename_i n found
      cases scanned
      obtain ⟨lengthLe, again⟩ := quotedLength?_take (by decide) found
      rw [if_pos (startsCharacter_take starts found notEmpty), again]
      exact ⟨lengthLe, rfl⟩
    · cases scanned
  · rename_i notCharacter
    split at scanned
    · rename_i starts
      cases scanned
      cases more with
      | nil => cases starts
      | cons c more =>
          have runLe := runLength_le continuesWord (c :: more)
          have continues := continuesWord_of_startsWord (by simpa using starts)
          have same : runLength continuesWord
              ((c :: more).take (runLength continuesWord (c :: more)) ++ tail) =
                runLength continuesWord (c :: more) :=
            runLength_take_append (Nat.le_refl _) runLe fun d first => ends.not_continuesWord first
          refine ⟨runLe, ?_⟩
          rw [runLength_cons, if_pos continues] at same ⊢
          rw [List.take_succ_cons] at same ⊢
          rw [if_neg (not_startsCharacter_take ends notCharacter _), if_pos (by simpa using starts),
            same]
    · cases scanned

/-- A joint `>` is scanned alone. -/
theorem scan_rangle (next : tail.head? = some '>') : scan '>' tail = .ok (.rangle, 0) := by
  obtain ⟨more, rfl⟩ := List.head?_eq_some_iff.1 next
  rfl

theorem Ends.ofPair?_eq_none (ends : Ends tail) (c : Char) :
    tail.head?.bind (TokenKind.ofPair? c) = none := by
  cases tail with
  | nil => rfl
  | cons d cs =>
      have among := ends d rfl
      simp only [List.mem_cons, List.not_mem_nil, or_false] at among
      simp only [List.head?_cons, Option.bind_some]
      unfold TokenKind.ofPair?
      split <;> simp_all

/-- What stands behind a token and ends it does not count. The empty character is no token by itself. -/
theorem scan_take_append (ends : Ends tail) (scanned : scan c more = .ok (kind, length))
    (notEmpty : ¬(c = '\'' ∧ more.take length = ['\''])) :
    length ≤ more.length ∧ scan c (more.take length ++ tail) = .ok (kind, length) := by
  cases scanRule_of_scan scanned with
  | byteStr closes =>
      obtain ⟨lengthLe, again⟩ := quotedLength?_take (by decide) closes
      exact ⟨Nat.succ_le_succ lengthLe, (ScanRule.byteStr (again tail)).scan_eq⟩
  | byte closes =>
      obtain ⟨lengthLe, again⟩ := quotedLength?_take (by decide) closes
      exact ⟨Nat.succ_le_succ lengthLe, (ScanRule.byte (again tail)).scan_eq⟩
  | word starts noPrefix =>
      have runLe := runLength_le continuesWord more
      have sameRun : runLength continuesWord (more.take (runLength continuesWord more) ++ tail) =
          runLength continuesWord more :=
        runLength_take_append (Nat.le_refl _) runLe fun d first => ends.not_continuesWord first
      have noQuote {quote : Char} (isQuote : quote = '"' ∨ quote = '\'') (before : more.head? ≠ some quote) :
          (more.take (runLength continuesWord more) ++ tail).head? ≠ some quote := by
        intro first
        rcases head?_take_append first with inside | behind
        · exact before inside
        · exact ends.ne_quote isQuote behind
      have isWord := ScanRule.word starts fun isB =>
        ⟨noQuote (.inl rfl) (noPrefix isB).1, noQuote (.inr rfl) (noPrefix isB).2⟩
      have again := isWord.scan_eq
      rw [sameRun] at again
      exact ⟨runLe, again⟩
  | number notWord isDigit isNumber =>
      have again := scanNumber_take_append ends c more
      rw [isNumber] at again
      exact ⟨again.1, (ScanRule.number notWord isDigit again.2).scan_eq⟩
  | str closes =>
      obtain ⟨lengthLe, again⟩ := quotedLength?_take (by decide) closes
      exact ⟨lengthLe, (ScanRule.str (again tail)).scan_eq⟩
  | singleQuote isScanned =>
      obtain ⟨lengthLe, again⟩ := scanSingleQuote_take_append ends isScanned fun text => notEmpty ⟨rfl, text⟩
      exact ⟨lengthLe, (ScanRule.singleQuote again).scan_eq⟩
  | pair isOther isPair =>
      exact ⟨Nat.succ_le_succ (Nat.zero_le _), (ScanRule.pair isOther isPair).scan_eq⟩
  | single isOther _ isSingle =>
      have noPair := Option.bind_eq_none_iff.1 (ends.ofPair?_eq_none c)
      exact ⟨Nat.zero_le _, (ScanRule.single isOther noPair isSingle).scan_eq⟩

end Tokens

end Lexer

end AttrGrammar
