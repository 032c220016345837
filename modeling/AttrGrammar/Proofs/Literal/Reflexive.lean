import AttrGrammar.Proofs.Lexing.Lexed
import AttrGrammar.Literal.Decode

/-!
Contract: a literal of a source equals itself.

Owns:
- no decimal and no rounded integer is a NaN;
- a numeral whose first character is a digit is no NaN;
- the literal of a number that starts with a digit, and of every other token, equals itself.

A floating point number that is no number would not equal itself. Only a token that no source has spells one.
-/

namespace AttrGrammar

/-! ## Magnitudes -/

namespace Binary64

theorem nearestMagnitude_le (numerator denominator : Nat) :
    nearestMagnitude numerator denominator ≤ infiniteMagnitude := by
  unfold nearestMagnitude
  split
  · exact Nat.zero_le _
  · exact Nat.min_le_right ..

/-- A magnitude up to that of infinity is the one of a number. -/
theorem isNaN_ofMagnitude (negative : Bool) {magnitude : Nat}
    (bounded : magnitude ≤ infiniteMagnitude) : (ofMagnitude negative magnitude).isNaN = false := by
  have bits : (ofMagnitude negative magnitude).bits.toNat =
      if negative then Nat.pow 2 63 + magnitude else magnitude := by
    simp only [infiniteMagnitude, Nat.pow_eq] at bounded
    simp only [ofMagnitude, BitVec.toNat_ofNat, Nat.pow_eq]
    apply Nat.mod_eq_of_lt
    split <;> omega
  simp only [infiniteMagnitude, Nat.pow_eq] at bounded
  simp only [isNaN, isSpecial, exponentField, fractionField, bits, Bool.and_eq_false_iff,
    decide_eq_false_iff_not, Nat.pow_eq]
  by_cases special : (if negative then Nat.pow 2 63 + magnitude else magnitude) / Nat.pow 2 52 % Nat.pow 2 11 = 2047
  · refine .inr ?_
    split at special <;> simp_all <;> omega
  · exact .inl special

theorem isNaN_ofDecimal (d : Text.Decimal) : (ofDecimal d).isNaN = false := by
  unfold ofDecimal
  simp only
  split
  · exact isNaN_ofMagnitude _ (Nat.zero_le _)
  split
  · exact isNaN_ofMagnitude _ (Nat.le_refl _)
  split
  · exact isNaN_ofMagnitude _ (nearestMagnitude_le ..)
  · exact isNaN_ofMagnitude _ (nearestMagnitude_le ..)

theorem isNaN_of_ofNat? {n : Nat} {x : Binary64} (isNear : ofNat? n = some x) :
    x.isNaN = false := by
  unfold ofNat? at isNear
  simp only at isNear
  split at isNear
  · obtain rfl := Option.some.inj isNear
    exact isNaN_ofMagnitude _ (nearestMagnitude_le ..)
  · cases isNear

end Binary64

/-! ## Numerals -/

namespace Unicode

theorem isBlank_of_isDigit {c : Char} (digit : isDigit c) : isBlank c = false := by
  refine Bool.eq_false_iff.2 fun blank => ?_
  have apart : ∀ r ∈ digitRanges, ∀ s ∈ blankRanges, r.2 < s.1 ∨ s.2 < r.1 := by
    decide
  obtain ⟨r, isRange, bounds⟩ := exists_range_of_inRanges digit
  obtain ⟨s, isBlankRange, blankBounds⟩ := exists_range_of_inRanges blank
  have := apart r isRange s isBlankRange
  omega

/-- The digits of ASCII are the decimal ones. -/
theorem toNat_of_isDigit {c : Char} (digit : isDigit c) (ascii : c.toNat < 0x7f) :
    0x30 ≤ c.toNat ∧ c.toNat < 0x3a := by
  have apart : ∀ r ∈ digitRanges, (0x30 ≤ r.1 ∧ r.2 < 0x3a) ∨ 0x7f ≤ r.1 := by
    decide
  obtain ⟨r, isRange, bounds⟩ := exists_range_of_inRanges digit
  have := apart r isRange
  omega

theorem decimalValue?_lt {code value : Nat} (isValue : decimalValue? code = some value) :
    value < 10 := by
  unfold decimalValue? at isValue
  obtain ⟨first, found, rfl⟩ := Option.map_eq_some_iff.1 isValue
  have bounds := List.find?_some found
  simp only [Bool.and_eq_true, decide_eq_true_eq] at bounds
  omega

end Unicode

namespace Text

/-- What a digit becomes in a numeral: a digit of ASCII, or a character that is in no numeral. -/
def digitForms : List Char :=
  ['0', '1', '2', '3', '4', '5', '6', '7', '8', '9', '?']

theorem plainChar_mem_digitForms {c : Char} (digit : Unicode.isDigit c) :
    plainChar c ∈ digitForms := by
  have forms : ∀ value < 10, Char.ofNat ('0'.toNat + value) ∈ digitForms := by decide
  unfold plainChar
  split
  · rename_i ascii
    have bounds := Unicode.toNat_of_isDigit digit ascii
    have isForm := forms (c.toNat - 0x30) (by omega)
    rwa [show '0'.toNat + (c.toNat - 0x30) = c.toNat by
      have : '0'.toNat = 0x30 := rfl
      omega, Char.ofNat_toNat] at isForm
  · rw [if_neg (by simp [Unicode.isBlank_of_isDigit digit])]
    cases isValue : Unicode.decimalValue? c.toNat with
    | none => simp [digitForms]
    | some value => exact forms value (Unicode.decimalValue?_lt isValue)

/-- A numeral keeps its first character, if that is a digit. -/
theorem plainNumeral_cons {c : Char} (cs : List Char) (digit : Unicode.isDigit c) :
    ∃ more, plainNumeral (c :: cs) = plainChar c :: more := by
  have none : digitForms.all (fun form => !isAsciiBlank form) = true := by decide
  have noBlank : isAsciiBlank (plainChar c) = false := by
    simpa using List.all_eq_true.1 none _ (plainChar_mem_digitForms digit)
  rw [plainNumeral, List.map_cons, List.dropWhile_cons_of_neg (by simp [noBlank]),
    List.reverse_cons, List.dropWhile_append]
  split
  · exact ⟨[], by simp [noBlank]⟩
  · exact ⟨_, by simp; rfl⟩

/-- A numeral that starts with a digit is a decimal. -/
theorem realNumeral?_cons {c : Char} {cs : List Char} {numeral : RealNumeral}
    (digit : Unicode.isDigit c) (isNumeral : realNumeral? (c :: cs) = some numeral) :
    ∃ d, numeral = .decimal d := by
  have form := plainChar_mem_digitForms digit
  have noWord : digitForms.all (fun form => form ≠ '-' && form ≠ '+' && form.toLower ≠ 'i' &&
      form.toLower ≠ 'n') = true := by decide
  obtain ⟨⟨⟨noMinus, noPlus⟩, notI⟩, notN⟩ := by
    simpa only [Bool.and_eq_true, decide_eq_true_eq] using List.all_eq_true.1 noWord _ form
  obtain ⟨more, plain⟩ := plainNumeral_cons cs digit
  have noSign : splitSign (plainChar c :: more) = (false, plainChar c :: more) := by
    unfold splitSign
    split <;> simp_all
  have starts {text : String}
      (same : String.ofList ((plainChar c :: more).map Char.toLower) = text) :
      text.toList.head? = some (plainChar c).toLower := by
    rw [← same, String.toList_ofList]
    rfl
  unfold realNumeral? at isNumeral
  simp only [plain, noSign] at isNumeral
  split at isNumeral
  · rename_i isInfinite
    rcases isInfinite with same | same
    · exact absurd (Option.some.inj (starts same)).symm notI
    · exact absurd (Option.some.inj (starts same)).symm notI
  split at isNumeral
  · rename_i same
    exact absurd (Option.some.inj (starts same)).symm notN
  split at isNumeral
  · cases isNumeral
  · obtain ⟨exponent, -, rfl⟩ := Option.map_eq_some_iff.1 isNumeral
    exact ⟨_, rfl⟩

end Text

/-! ## Literals -/

namespace Literal

/-- Only a literal that is a NaN differs from itself. -/
theorem same_self {l : Literal} (number : ∀ x, l.value = .float x → x.isNaN = false) :
    l.same l := by
  obtain ⟨value, suffix⟩ := l
  cases value with
  | float x =>
      have isNumber : x.isNaN = false := number x rfl
      simp [same, LiteralValue.same, Binary64.same, isNumber]
  | _ => simp [same, LiteralValue.same]

theorem same_of_decodeInt {text : String} {l : Literal} (decoded : decodeInt text = .ok l) :
    l.same l := by
  refine same_self fun x isFloat => ?_
  unfold decodeInt at decoded
  simp only at decoded
  split at decoded
  · cases decoded
  split at decoded
  · cases decoded
  split at decoded
  · split at decoded
    · rename_i y isNear
      obtain rfl := Except.ok.inj decoded
      obtain rfl := LiteralValue.float.inj isFloat
      exact Binary64.isNaN_of_ofNat? isNear
    · cases decoded
  · obtain rfl := Except.ok.inj decoded
    cases isFloat

/-- What is in front of the suffix of a number that starts with a digit starts with this digit. -/
theorem splitFloatSuffix_cons {c : Char} (cs : List Char) (digit : Unicode.isDigit c) :
    ∃ more, (splitFloatSuffix (c :: cs)).1 = c :: more := by
  unfold splitFloatSuffix
  simp only
  split
  · rename_i isSuffix
    cases atSuffix : (c :: cs).length - 3 with
    | zero =>
        -- The whole text would be the suffix, which starts with a letter.
        rw [atSuffix, List.drop_zero] at isSuffix
        have starts : ∀ suffix ∈ floatSuffixes, suffix.toList.head? = some 'f' := by decide
        have isLetter := starts _ isSuffix
        rw [String.toList_ofList] at isLetter
        obtain rfl := Option.some.inj isLetter
        exact absurd digit (by decide)
    | succ count => exact ⟨cs.take count, rfl⟩
  · exact ⟨cs, rfl⟩

theorem same_of_decodeFloat {c : Char} {cs : List Char} {l : Literal}
    (digit : Unicode.isDigit c) (decoded : decodeFloat (String.ofList (c :: cs)) = .ok l) :
    l.same l := by
  refine same_self fun x isFloat => ?_
  obtain ⟨more, number⟩ := splitFloatSuffix_cons cs digit
  have kept : c ≠ '_' := by
    rintro rfl
    exact absurd digit (by decide)
  unfold decodeFloat at decoded
  simp only [String.toList_ofList, number] at decoded
  rw [List.filter_cons_of_pos (by simpa using kept), Binary64.read?] at decoded
  split at decoded
  · rename_i y isRead
    obtain ⟨numeral, isNumeral, rfl⟩ := Option.map_eq_some_iff.1 isRead
    obtain ⟨d, rfl⟩ := Text.realNumeral?_cons digit isNumeral
    obtain rfl := Except.ok.inj decoded
    obtain rfl := LiteralValue.float.inj isFloat
    exact Binary64.isNaN_ofDecimal d
  · cases decoded

/-- The literal of a token that is no number is no floating point number. -/
theorem value_ne_float_of_decode {kind : TokenKind} {text : String} {l : Literal}
    (notInt : kind ≠ .int) (notFloat : kind ≠ .float) (decoded : decode kind text = .ok l)
    (x : Binary64) : l.value ≠ .float x := by
  intro isFloat
  have yields {α : Type} {r : Except LiteralFault α} {f : α → LiteralValue}
      (read : (r >>= fun a => pure (plain (f a))) = .ok l) : ∃ a, l.value = f a := by
    cases r with
    | error fault => cases read
    | ok a =>
        obtain rfl := Except.ok.inj read
        exact ⟨a, rfl⟩
  unfold decode at decoded
  split at decoded
  case h_1 => exact notInt rfl
  case h_2 => exact notFloat rfl
  case h_3 =>
      obtain ⟨body, isStr⟩ := yields decoded
      cases isStr.symm.trans isFloat
  case h_4 =>
      cases body : decodeBody 2 text with
      | error fault => rw [body] at decoded; cases decoded
      | ok body' =>
          rw [body] at decoded
          obtain ⟨bytes, isBytes⟩ := yields decoded
          cases isBytes.symm.trans isFloat
  case h_5 =>
      obtain ⟨character, isChar⟩ := yields decoded
      cases isChar.symm.trans isFloat
  case h_6 =>
      cases one : decodeOne 2 text with
      | error fault => rw [one] at decoded; cases decoded
      | ok character =>
          rw [one] at decoded
          cases byte : character.toByte? with
          | none => simp [byte, bind, Except.bind, throw, throwThe, MonadExceptOf.throw] at decoded
          | some b =>
              simp only [byte, bind, Except.bind, pure, Except.pure] at decoded
              obtain rfl := Except.ok.inj decoded
              cases isFloat
  case h_7 =>
      split at decoded
      · obtain rfl := Except.ok.inj decoded
        cases isFloat
      split at decoded
      · obtain rfl := Except.ok.inj decoded
        cases isFloat
      · cases decoded
  case h_8 => cases decoded

theorem decode_int (text : String) : decode .int text = decodeInt text := by rw [decode]

theorem decode_float (text : String) : decode .float text = decodeFloat text := by rw [decode]

/-- The literal of a token of a source equals itself. -/
theorem same_of_scan {c : Char} {more : List Char} {kind : TokenKind} {length : Nat} {l : Literal}
    (scanned : Lexer.scan c more = .ok (kind, length))
    (decoded : decode kind (String.ofList (c :: more.take length)) = .ok l) : l.same l := by
  by_cases isInt : kind = .int
  · rw [isInt, decode_int] at decoded
    exact same_of_decodeInt decoded
  by_cases isFloat : kind = .float
  · rw [isFloat, decode_float] at decoded
    rw [isFloat] at scanned
    rcases Lexer.scan_kind scanned with isWord | ⟨-, digit, -⟩ | spelled
    · simp [Lexer.wordKinds] at isWord
    · exact same_of_decodeFloat digit decoded
    · cases spelled
  · exact same_self fun x isFloatValue =>
      absurd isFloatValue (value_ne_float_of_decode isInt isFloat decoded x)

end Literal

end AttrGrammar
