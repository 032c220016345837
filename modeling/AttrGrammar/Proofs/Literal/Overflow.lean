import AttrGrammar.Cursor.Words
import AttrGrammar.Proofs.Literal.Integers

/-!
Contract: how tokens fail that denote no literal.

Owns:
- the natural numbers that are too large for a finite number, by the rounding of the highest binade;
- the texts of integers that are too large for the floating point type that their suffix names;
- that a token of any kind and with any text denotes a literal or is rejected where it stands, but for these integers.

Does not own: that no source has such an integer.
-/

namespace AttrGrammar

/-! ## Numbers -/

namespace Binary64

/-- The least natural number that no finite number is nearest to. It is halfway from the greatest finite number to the
next power of two, and the tie goes to the latter. -/
def overflowBound : Nat :=
  Nat.pow 2 1024 - Nat.pow 2 970

/-- The exponents are named, so that no power is computed. -/
theorem exists_overflowBound_eq :
    ∃ m k : Nat, m = 1023 ∧ k = 970 ∧ overflowBound = Nat.pow 2 (m + 1) - Nat.pow 2 k :=
  ⟨1023, 970, rfl, rfl, by decide +kernel⟩

theorem overflowBound_eq {k : Nat} (isLast : k = 970) :
    overflowBound = Nat.pow 2 54 * Nat.pow 2 k - Nat.pow 2 k := by
  obtain ⟨m, k', isExponent, isLast', isBound⟩ := exists_overflowBound_eq
  obtain rfl : k' = k := by omega
  rw [isBound, show m + 1 = 54 + k' by omega]
  exact congrArg (· - Nat.pow 2 k') (Nat.pow_add 2 54 k')

theorem pow_lt_overflowBound {j : Nat} (small : j ≤ 1023) : Nat.pow 2 j < overflowBound := by
  obtain ⟨m, k, isExponent, isLast, isBound⟩ := exists_overflowBound_eq
  have doubled : Nat.pow 2 (m + 1) = Nat.pow 2 m * 2 := Nat.pow_succ 2 m
  have below : Nat.pow 2 j ≤ Nat.pow 2 m := Nat.pow_le_pow_right (by decide) (by omega)
  have less : Nat.pow 2 k < Nat.pow 2 m := Nat.pow_lt_pow_right (by decide) (by omega)
  omega

theorem overflowBound_le_pow {j : Nat} (large : 1024 ≤ j) : overflowBound ≤ Nat.pow 2 j := by
  obtain ⟨m, k, isExponent, -, isBound⟩ := exists_overflowBound_eq
  rw [isBound]
  exact Nat.le_trans (Nat.sub_le _ _) (Nat.pow_le_pow_right (by decide) (by omega))

theorem floorLog2_one {n : Nat} (notZero : n ≠ 0) : floorLog2 n 1 = n.log2 := by
  have guess : (n.log2 : Int) - (Nat.log2 1 : Nat) = n.log2 := by
    rw [show Nat.log2 1 = 0 by decide]
    exact Int.sub_zero _
  have reached : 1 * Nat.pow 2 (n.log2 : Int).toNat ≤ n := by
    rw [Int.toNat_natCast, Nat.one_mul]
    exact Nat.log2_self_le notZero
  unfold floorLog2
  dsimp only
  rw [guess]
  refine if_pos ?_
  rwa [if_pos (Int.natCast_nonneg _)]

/-- A quotient is rounded up exactly if its rest is above the half, or is the half and the quotient is odd. -/
theorem roundQuotient_cases (numerator denominator : Nat) :
    let quotient := numerator / denominator
    let rest := numerator % denominator
    (roundQuotient numerator denominator = quotient + 1 ∧
        (denominator < 2 * rest ∨ denominator = 2 * rest ∧ quotient % 2 = 1)) ∨
      roundQuotient numerator denominator = quotient ∧
        (2 * rest < denominator ∨ denominator = 2 * rest ∧ quotient % 2 = 0) := by
  intro quotient rest
  unfold roundQuotient
  dsimp only
  split_ifs with below above even
  · exact .inr ⟨rfl, .inl below⟩
  · exact .inl ⟨rfl, .inl above⟩
  · exact .inr ⟨rfl, .inr ⟨by omega, even⟩⟩
  · exact .inl ⟨rfl, .inr ⟨by omega, by omega⟩⟩

/-- Below the weight of the last significand bit of large numbers nothing is rounded. -/
theorem nearestMagnitude_small {n : Nat} (small : n.log2 < 52) : nearestMagnitude n 1 < infiniteMagnitude := by
  rcases Nat.eq_zero_or_pos n with rfl | positive
  · rw [nearestMagnitude, if_pos rfl]
    decide
  have notZero : n ≠ 0 := by omega
  have bound : n * Nat.pow 2 (52 - n.log2) < Nat.pow 2 53 := by
    calc n * Nat.pow 2 (52 - n.log2)
        < Nat.pow 2 (n.log2 + 1) * Nat.pow 2 (52 - n.log2) :=
          Nat.mul_lt_mul_of_pos_right Nat.lt_log2_self (Nat.pow_pos (by decide))
      _ = Nat.pow 2 53 := by
          simp only [Nat.pow_eq]
          rw [← Nat.pow_add, show n.log2 + 1 + (52 - n.log2) = 53 by omega]
  have exact (m : Nat) : roundQuotient m 1 = m := by
    simp [roundQuotient, Nat.mod_one]
  have weight : max ((n.log2 : Int) - 52) (-1074) = -((52 - n.log2 : Nat) : Int) := by omega
  unfold nearestMagnitude
  dsimp only
  rw [if_neg notZero, floorLog2_one notZero, weight, if_neg (by omega), Int.neg_neg, Int.toNat_natCast, exact]
  refine Nat.lt_of_le_of_lt (Nat.min_le_left _ _) ?_
  simp only [infiniteMagnitude, Nat.pow_eq] at bound ⊢
  omega

/-- From there on, the quotient by that weight is rounded. -/
theorem nearestMagnitude_large {n : Nat} (large : 52 ≤ n.log2) :
    nearestMagnitude n 1 =
      min ((n.log2 + 1022) * Nat.pow 2 52 + roundQuotient n (Nat.pow 2 (n.log2 - 52))) infiniteMagnitude := by
  have notZero : n ≠ 0 := by
    rintro rfl
    simp at large
  have weight : max ((n.log2 : Int) - 52) (-1074) = ((n.log2 - 52 : Nat) : Int) := by omega
  have exponent : (((n.log2 - 52 : Nat) : Int) + 1074).toNat = n.log2 + 1022 := by omega
  unfold nearestMagnitude
  dsimp only
  rw [if_neg notZero, floorLog2_one notZero, weight, if_pos (Int.natCast_nonneg _), exponent, Int.toNat_natCast,
    Nat.one_mul]

/-- The quotient by the weight of the last significand bit has 53 bits. -/
theorem quotient_bounds {n : Nat} (large : 52 ≤ n.log2) :
    Nat.pow 2 52 ≤ n / Nat.pow 2 (n.log2 - 52) ∧ n / Nat.pow 2 (n.log2 - 52) < Nat.pow 2 53 := by
  have positive : 0 < Nat.pow 2 (n.log2 - 52) := Nat.pow_pos (by decide)
  have product (k : Nat) : Nat.pow 2 k * Nat.pow 2 (n.log2 - 52) = Nat.pow 2 (k + (n.log2 - 52)) :=
    (Nat.pow_add 2 k (n.log2 - 52)).symm
  constructor
  · rw [Nat.le_div_iff_mul_le positive, product, show 52 + (n.log2 - 52) = n.log2 by omega]
    refine Nat.log2_self_le ?_
    rintro rfl
    simp at large
  · rw [Nat.div_lt_iff_lt_mul positive, product, show 53 + (n.log2 - 52) = n.log2 + 1 by omega]
    exact Nat.lt_log2_self

/-- In the highest binade of finite numbers, a number is too large if its significand is rounded up to the next power
of two. -/
theorem infinite_iff_of_highest {n : Nat} (highest : n.log2 = 1023) :
    infiniteMagnitude ≤ nearestMagnitude n 1 ↔ overflowBound ≤ n := by
  have large : 52 ≤ n.log2 := by omega
  have bounds := quotient_bounds large
  have rounded := roundQuotient_cases n (Nat.pow 2 (n.log2 - 52))
  have whole := Nat.div_add_mod n (Nat.pow 2 (n.log2 - 52))
  have rest : n % Nat.pow 2 (n.log2 - 52) < Nat.pow 2 (n.log2 - 52) := Nat.mod_lt n (Nat.pow_pos (by decide))
  have carried : infiniteMagnitude ≤ nearestMagnitude n 1 ↔
      Nat.pow 2 53 ≤ roundQuotient n (Nat.pow 2 (n.log2 - 52)) := by
    rw [nearestMagnitude_large large, highest, le_min_iff]
    simp only [infiniteMagnitude, Nat.pow_eq]
    omega
  have weight : Nat.pow 2 (n.log2 - 52) = 2 * Nat.pow 2 (n.log2 - 53) := by
    rw [show n.log2 - 52 = n.log2 - 53 + 1 by omega]
    exact Nat.pow_succ'
  rw [carried, overflowBound_eq (show n.log2 - 53 = 970 by omega)]
  rw [weight] at bounds rounded whole rest ⊢
  generalize Nat.pow 2 (n.log2 - 53) = half at *
  simp only [Nat.pow_eq] at *
  generalize n / (2 * half) = quotient at *
  generalize n % (2 * half) = left at *
  constructor
  · intro isPower
    obtain rfl : quotient = 2 ^ 53 - 1 := by omega
    omega
  · intro large
    have isGreatest : quotient = 2 ^ 53 - 1 := by
      by_contra other
      have : 2 * half * quotient ≤ 2 * half * (2 ^ 53 - 2) := Nat.mul_le_mul_left _ (by omega)
      omega
    subst isGreatest
    omega

/-- A natural number is too large for a finite number exactly from the bound on. -/
theorem ofNat?_eq_none_iff {n : Nat} : ofNat? n = none ↔ overflowBound ≤ n := by
  have isNone : ofNat? n = none ↔ infiniteMagnitude ≤ nearestMagnitude n 1 := by
    unfold ofNat?
    dsimp only
    split <;> simp <;> omega
  rw [isNone]
  rcases Nat.lt_trichotomy n.log2 1023 with below | highest | above
  · have tooSmall : n < overflowBound :=
      calc n < Nat.pow 2 (n.log2 + 1) := Nat.lt_log2_self
        _ < overflowBound := pow_lt_overflowBound below
    refine iff_of_false (Nat.not_le.2 ?_) (Nat.not_le.2 tooSmall)
    rcases Nat.lt_or_ge n.log2 52 with small | large
    · exact nearestMagnitude_small small
    · have rounded := roundQuotient_cases n (Nat.pow 2 (n.log2 - 52))
      have bounds := quotient_bounds large
      rw [nearestMagnitude_large large]
      refine Nat.lt_of_le_of_lt (Nat.min_le_left _ _) ?_
      simp only [infiniteMagnitude, Nat.pow_eq] at *
      omega
  · exact infinite_iff_of_highest highest
  · have large : 52 ≤ n.log2 := by omega
    have tooLarge : overflowBound ≤ n :=
      calc overflowBound ≤ Nat.pow 2 n.log2 := overflowBound_le_pow above
        _ ≤ n := Nat.log2_self_le (by rintro rfl; simp at large)
    refine iff_of_true ?_ tooLarge
    have rounded := roundQuotient_cases n (Nat.pow 2 (n.log2 - 52))
    have bounds := quotient_bounds large
    rw [nearestMagnitude_large large, le_min_iff]
    simp only [infiniteMagnitude, Nat.pow_eq] at *
    omega

end Binary64

/-! ## Texts -/

namespace Literal

open Text

/-- Whether a text is an integer that is too large for the floating point type that its suffix names. In base sixteen
there is no such suffix, as its characters are digits. -/
inductive SpellsTooLarge : List Char → Prop where
  | intro {base : Nat} {mark digits : List Char} {values : List Nat} {suffix : String}
      (isMark : (base, mark) ∈ baseMarks) (notHex : base ≠ 16) (spells : SpellsDigits base digits values)
      (notTooMany : base = 10 → values.length ≤ decimalDigitLimit) (isSuffix : suffix ∈ floatSuffixes)
      (tooLarge : Binary64.overflowBound ≤ Nat.ofDigits base values.reverse) :
      SpellsTooLarge (mark ++ digits ++ suffix.toList)

section TooLarge

variable {text : String}

theorem head_of_floatSuffix : ∀ suffix ∈ floatSuffixes, suffix.toList.head? = some 'f' := by
  simp [floatSuffixes]

/-- What it takes for an integer to be too large, once its base is known. -/
theorem decodeInt_tooLarge_iff_of_base {base : Nat} {body : List Char} (split : splitBase text.toList = (base, body)) :
    decodeInt text = .error .tooLarge ↔
      String.ofList (body.dropWhile (isDigitOf base)) ∈ floatSuffixes ∧
        ∃ n, integer? base (body.takeWhile (isDigitOf base)) = some n ∧ Binary64.overflowBound ≤ n := by
  unfold decodeInt
  dsimp only
  rw [split]
  dsimp only
  by_cases isFloat : String.ofList (body.dropWhile (isDigitOf base)) ∈ floatSuffixes
  · rw [if_neg (by simp [isFloat])]
    cases isNumber : integer? base (body.takeWhile (isDigitOf base)) with
    | none => simp
    | some n =>
        dsimp only
        rw [if_pos isFloat]
        cases isNear : Binary64.ofNat? n with
        | none => simpa [isFloat] using Binary64.ofNat?_eq_none_iff.1 isNear
        | some x =>
            have small : ¬Binary64.overflowBound ≤ n := fun large => by
              rw [Binary64.ofNat?_eq_none_iff.2 large] at isNear
              cases isNear
            simpa [isFloat] using small
  · refine iff_of_false (fun same => ?_) fun both => isFloat both.1
    split at same
    · cases same
    split at same
    · cases same
    cases same

theorem spellsTooLarge_of_decodeInt (tooLarge : decodeInt text = .error .tooLarge) : SpellsTooLarge text.toList := by
  obtain ⟨mark, isMark, whole⟩ := exists_mark text.toList
  generalize isBase : (splitBase text.toList).1 = base at isMark whole
  generalize isBody : (splitBase text.toList).2 = body at isMark whole
  obtain ⟨isFloat, n, isNumber, large⟩ := (decodeInt_tooLarge_iff_of_base (Prod.ext isBase isBody)).1 tooLarge
  obtain ⟨notEmpty, notTooMany, rfl⟩ := integer?_eq_some_iff.1 isNumber
  have spells : SpellsDigits base (body.takeWhile (isDigitOf base)) _ :=
    (spellsDigits_iff (le_of_mem_baseMarks isMark)).2 ⟨List.all_eq_true.1 List.all_takeWhile, rfl⟩
  have notHex : base ≠ 16 := by
    rintro rfl
    obtain ⟨width, shape, -⟩ := exists_of_mem_floatSuffixes isFloat
    have stopped : isDigitOf 16 'f' = false := by
      have first := List.head?_dropWhile_not (isDigitOf 16) body
      rwa [shape] at first
    exact absurd stopped (by decide)
  have spelled := SpellsTooLarge.intro isMark notHex spells notTooMany isFloat large
  rwa [String.toList_ofList, List.append_assoc, List.takeWhile_append_dropWhile, ← whole] at spelled

/-- The mark of the base is split off in front of digits that a suffix follows. A number without a mark that starts with
`0` has a digit or the suffix behind it, which is no mark. -/
theorem splitBase_of_floatSuffix {base : Nat} {mark digits : List Char} {suffix : String}
    (isMark : (base, mark) ∈ baseMarks) (areDigits : ∀ c ∈ digits, isDigitOf base c) (notEmpty : digits ≠ [])
    (isHead : suffix.toList.head? = some 'f') :
    splitBase (mark ++ digits ++ suffix.toList) = (base, digits ++ suffix.toList) := by
  rw [List.append_assoc]
  refine splitBase_eq isMark ?_
  rintro rfl c isSecond
  obtain rfl : base = 10 := by simpa [baseMarks] using isMark
  obtain ⟨d, ds, rfl⟩ := List.exists_cons_of_ne_nil notEmpty
  cases ds with
  | nil =>
      rw [List.cons_append, List.getElem?_cons_succ, ← List.head?_eq_getElem?] at isSecond
      obtain rfl := Option.some.inj (isHead.symm.trans isSecond)
      decide
  | cons d' ds =>
      obtain rfl := Option.some.inj isSecond
      have isDigit := areDigits d' (List.mem_cons_of_mem d List.mem_cons_self)
      exact fun member => not_mem_of_decimal (.inl isDigit) (List.mem_append_left ['.', 'e', 'E'] member)

theorem decodeInt_of_spellsTooLarge (tooLarge : SpellsTooLarge text.toList) :
    decodeInt text = .error .tooLarge := by
  generalize isText : text.toList = cs at tooLarge
  obtain ⟨isMark, notHex, spells, notTooMany, isSuffix, large⟩ := tooLarge
  rename_i base mark digits values suffix
  obtain ⟨areDigits, areValues⟩ := (spellsDigits_iff (le_of_mem_baseMarks isMark)).1 spells
  have notEmpty : values ≠ [] := by
    rintro rfl
    have positive : 0 < Binary64.overflowBound :=
      Nat.lt_trans (Nat.pow_pos (by decide)) (Binary64.pow_lt_overflowBound (Nat.zero_le _))
    exact absurd large (Nat.not_le.2 positive)
  have someDigits : digits ≠ [] := by
    rintro rfl
    exact notEmpty areValues.symm
  have isHead : suffix.toList.head? = some 'f' := head_of_floatSuffix suffix isSuffix
  have stops : ∀ c, suffix.toList.head? = some c → isDigitOf base c = false := by
    intro c isHere
    obtain rfl := Option.some.inj (isHead.symm.trans isHere)
    have apart : ∀ entry ∈ baseMarks, entry.1 ≠ 16 → isDigitOf entry.1 'f' = false := by decide
    exact apart _ isMark notHex
  have isNumber : integer? base digits = some (Nat.ofDigits base values.reverse) :=
    integer?_eq_some_iff.2 (by rw [areValues]; exact ⟨notEmpty, notTooMany, rfl⟩)
  have split : splitBase text.toList = (base, digits ++ suffix.toList) :=
    isText ▸ splitBase_of_floatSuffix isMark areDigits someDigits isHead
  rw [decodeInt_tooLarge_iff_of_base split, Lexer.takeWhile_append areDigits stops,
    Lexer.dropWhile_append areDigits stops, String.ofList_toList]
  exact ⟨isSuffix, _, isNumber, large⟩

theorem decodeInt_tooLarge_iff : decodeInt text = .error .tooLarge ↔ SpellsTooLarge text.toList :=
  ⟨spellsTooLarge_of_decodeInt, decodeInt_of_spellsTooLarge⟩

end TooLarge

end Literal

/-! ## All tokens -/

namespace Reader

open Literal

variable {t : Token} {c : Cursor}

theorem decoded_of_ok {l : Literal} (denotes : decode t.kind t.text = .ok l) : decoded t c = .ok l c := by
  rw [decoded, denotes]
  rfl

theorem decoded_of_tooLarge (tooLarge : decode t.kind t.text = .error .tooLarge) :
    decoded t c = .error .tooLarge c := by
  rw [decoded, tooLarge]
  rfl

/-- All other tokens that denote nothing are rejected where they stand. -/
theorem decoded_of_error {fault : LiteralFault} (denotesNothing : decode t.kind t.text = .error fault)
    (fits : fault ≠ .tooLarge) :
    decoded t c = .error (.rejected ⟨.malformedItem, .malformedLiteral fault, t.position⟩) c := by
  rw [decoded, denotesNothing]
  cases fault with
  | tooLarge => exact absurd rfl fits
  | _ => rfl

/-- A token of any kind and with any text denotes a literal or is rejected as a malformed item at its place, unless it
is an integer that is too large for the floating point type that its suffix names: that alone fails otherwise. -/
theorem decoded_outcome (t : Token) (c : Cursor) :
    (decoded t c = .error .tooLarge c ↔ t.kind = .int ∧ SpellsTooLarge t.text.toList) ∧
      ((∃ l, decoded t c = .ok l c) ∨
        (∃ fault, decoded t c = .error (.rejected ⟨.malformedItem, .malformedLiteral fault, t.position⟩) c) ∨
        decoded t c = .error .tooLarge c) := by
  have tooLarge_iff : t.kind = .int ∧ SpellsTooLarge t.text.toList ↔
      decode t.kind t.text = .error .tooLarge := by
    rw [← decodeInt_tooLarge_iff]
    refine ⟨fun ⟨isInt, tooLarge⟩ => ?_, kind_of_tooLarge⟩
    rw [isInt]
    exact tooLarge
  rw [tooLarge_iff]
  cases denoted : decode t.kind t.text with
  | ok l =>
      rw [decoded_of_ok denoted]
      exact ⟨⟨nofun, nofun⟩, .inl ⟨l, rfl⟩⟩
  | error fault =>
      by_cases fits : fault = .tooLarge
      · subst fits
        have fails : decoded t c = .error .tooLarge c := decoded_of_tooLarge denoted
        exact ⟨⟨fun _ => rfl, fun _ => fails⟩, .inr (.inr fails)⟩
      · rw [decoded_of_error denoted fits]
        refine ⟨⟨nofun, fun same => ?_⟩, .inr (.inl ⟨fault, rfl⟩)⟩
        exact absurd (Except.error.inj same) fits

/-- The text of `10 ^ 309` as an integer of a floating point type. -/
def hugeFloat : List Char :=
  '1' :: List.replicate 309 '0' ++ ['f', '3', '2']

theorem spellsTooLarge_hugeFloat : SpellsTooLarge hugeFloat := by
  have areDigits : ∀ c ∈ '1' :: List.replicate 309 '0', isDigitOf 10 c := by
    refine List.forall_mem_cons.2 ⟨by decide, fun c member => ?_⟩
    rw [List.eq_of_mem_replicate member]
    decide
  have spells : Text.SpellsDigits 10 ('1' :: List.replicate 309 '0') (1 :: List.replicate 309 0) :=
    (spellsDigits_iff (by decide)).2 ⟨areDigits, by decide +kernel⟩
  have short : (1 :: List.replicate 309 0).length ≤ Text.decimalDigitLimit := by
    rw [List.length_cons, List.length_replicate]
    decide
  have large : Binary64.overflowBound ≤ Nat.ofDigits 10 (1 :: List.replicate 309 0).reverse := by
    decide +kernel
  exact @SpellsTooLarge.intro 10 [] _ _ "f32" (by decide) (by decide) spells (fun _ => short) (by decide) large

/-- Not every token that denotes no literal is rejected: `10 ^ 309` with the suffix `f32` is not. -/
theorem decoded_hugeFloat :
    ¬∀ (t : Token) (c : Cursor), (∃ l, decoded t c = .ok l c) ∨
      ∃ fault, decoded t c = .error (.rejected ⟨.malformedItem, .malformedLiteral fault, t.position⟩) c := by
  intro every
  let t : Token := ⟨.int, String.ofList hugeFloat, .start, false⟩
  let c : Cursor := .ofTrees [] .start
  have tooLarge : decodeInt t.text = .error .tooLarge := by
    rw [decodeInt_tooLarge_iff, String.toList_ofList]
    exact spellsTooLarge_hugeFloat
  have fails : decoded t c = .error .tooLarge c := decoded_of_tooLarge tooLarge
  rcases every t c with ⟨l, isLiteral⟩ | ⟨fault, isRejected⟩
  · rw [fails] at isLiteral
    cases isLiteral
  · rw [fails] at isRejected
    cases isRejected

end Reader

end AttrGrammar
