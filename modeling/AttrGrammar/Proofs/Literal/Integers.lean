import AttrGrammar.Proofs.Literal.Digits
import AttrGrammar.Proofs.Literal.RoundTrip
import AttrGrammar.Proofs.Literal.Suffixes
import AttrGrammar.Proofs.Printing.Source

/-!
Contract: integer literals, as texts and as numbers.

Owns:
- the texts that are integer literals: the mark of a base, digits of the base, a suffix or none;
- that such a text is one token of a source, and denotes the number of its digits;
- that no other integer token of a source denotes anything.

The lexer and the value split a text apart by rules of their own. Behind the marks of base two and eight the lexer takes
all decimal digits, and in base sixteen the digits go on where another base has the suffix of a floating point type.
-/

namespace AttrGrammar

namespace Literal

open Text

/-- The bases of integers, each with the mark in front of its digits. -/
def baseMarks : List (Nat × List Char) :=
  [(10, []), (16, ['0', 'x']), (8, ['0', 'o']), (2, ['0', 'b'])]

/-- Whether a text is an integer literal with digits of some values in a base, and a suffix, which may be empty. -/
inductive SpellsInteger (base : Nat) (values : List Nat) (suffix : String) : List Char → Prop where
  | intro {mark digits : List Char} (isMark : (base, mark) ∈ baseMarks) (spells : SpellsDigits base digits values)
      (notEmpty : values ≠ []) (startsWithDigit : mark = [] → digits.head? ≠ some '_')
      (notTooMany : base = 10 → values.length ≤ decimalDigitLimit) (isSuffix : suffix ∈ "" :: intSuffixes) :
      SpellsInteger base values suffix (mark ++ digits ++ suffix.toList)

/-- The integer whose digits in a base have some values, the first digit being the highest. -/
def positional (base : Nat) (values : List Nat) (suffix : String) : Literal :=
  ⟨.int (Nat.ofDigits base values.reverse : Nat), suffix⟩

/-! ## Suffixes -/

theorem of_mem_suffixes {p : List Char → Bool} (all : ("" :: intSuffixes).all fun s => p s.toList) {suffix : String}
    (isSuffix : suffix ∈ "" :: intSuffixes) : p suffix.toList :=
  List.all_eq_true.1 all suffix isSuffix

theorem head_of_suffix {suffix : String} (isSuffix : suffix ∈ "" :: intSuffixes) :
    ∀ c ∈ suffix.toList.head?, c ∈ ['u', 'i'] := by
  have checked := of_mem_suffixes (p := fun s => s.head?.all fun c => decide (c ∈ ['u', 'i'])) (by decide) isSuffix
  intro c isHead
  rw [isHead] at checked
  simpa using checked

/-! ## Digits -/

section Classes

variable {base : Nat} {c : Char}

theorem mem_baseMarks_iff {mark : List Char} :
    (base, mark) ∈ baseMarks ↔ base = 10 ∧ mark = [] ∨ base = 16 ∧ mark = ['0', 'x'] ∨ base = 8 ∧ mark = ['0', 'o'] ∨
      base = 2 ∧ mark = ['0', 'b'] := by
  simp [baseMarks]

theorem le_of_mem_baseMarks {mark : List Char} (isMark : (base, mark) ∈ baseMarks) : base ≤ 16 := by
  rw [mem_baseMarks_iff] at isMark
  omega

/-- Where a text is decimal, neither of its characters behind the first one starts something else than digits. -/
theorem not_mem_of_decimal (follows : isDigitOf 10 c ∨ c ∈ ['u', 'i']) : c ∉ ['x', 'o', 'b', '.', 'e', 'E'] := by
  intro member
  simp only [List.mem_cons, List.not_mem_nil, or_false] at member
  rcases member with rfl | rfl | rfl | rfl | rfl | rfl <;> exact absurd follows (by decide)

theorem continuesDigits_of_isDigitOf (isDigit : isDigitOf 10 c) : Lexer.continuesDigits c :=
  of_isDigitOf (by decide) (by decide) isDigit

theorem continuesRadix_of_isDigitOf {mark : Char} (isMark : (base, mark) ∈ [(16, 'x'), (8, 'o'), (2, 'b')])
    (isDigit : isDigitOf base c) : Lexer.continuesRadix mark c := by
  simp only [List.mem_cons, Prod.mk.injEq, List.not_mem_nil, or_false] at isMark
  rcases isMark with ⟨rfl, rfl⟩ | ⟨rfl, rfl⟩ | ⟨rfl, rfl⟩ <;>
    exact of_isDigitOf (by decide) (by decide) isDigit

/-- Whether a character starts numbers, and nothing else. -/
def startsNumber (c : Char) : Bool :=
  Unicode.isDigit c && !Lexer.startsWord c && !Lexer.isBlank c && c ≠ '/'

theorem startsNumber_of_isDigitOf (isDigit : isDigitOf 10 c) (noUnderscore : c ≠ '_') : startsNumber c := by
  have checked : c = '_' || startsNumber c :=
    of_isDigitOf (p := fun c => c = '_' || startsNumber c) (by decide) (by decide) isDigit
  simpa [noUnderscore] using checked

end Classes

/-! ## Tokens -/

section Scan

variable {base : Nat} {values : List Nat} {suffix : String} {cs ds : List Char}

/-- Behind decimal digits stands one more of them, or a suffix. -/
theorem follows_of_head? (areDigits : ∀ c ∈ ds, isDigitOf 10 c) (isSuffix : suffix ∈ "" :: intSuffixes) :
    ∀ c, (ds ++ suffix.toList).head? = some c → isDigitOf 10 c ∨ c ∈ ['u', 'i'] := by
  intro c isHead
  cases ds with
  | nil => exact .inr (head_of_suffix isSuffix c isHead)
  | cons d ds =>
      obtain rfl := Option.some.inj isHead
      exact .inl (areDigits d List.mem_cons_self)

/-- A suffix starts with no character of a class that has neither letter in it. -/
theorem stops_at_suffix {inClass : Char → Bool} (none : inClass 'u' = false ∧ inClass 'i' = false)
    (isSuffix : suffix ∈ "" :: intSuffixes) : ∀ c, suffix.toList.head? = some c → inClass c = false := by
  intro c isHead
  have isLetter := head_of_suffix isSuffix c isHead
  simp only [List.mem_cons, List.not_mem_nil, or_false] at isLetter
  rcases isLetter with rfl | rfl
  · exact none.1
  · exact none.2

theorem decimalLength_digits (areDigits : ∀ c ∈ ds, isDigitOf 10 c) (isSuffix : suffix ∈ "" :: intSuffixes) :
    Lexer.decimalLength (ds ++ suffix.toList) = (ds.length, false) := by
  have whole : Lexer.runLength Lexer.continuesDigits (ds ++ suffix.toList) = ds.length :=
    Lexer.runLength_append (fun c member => continuesDigits_of_isDigitOf (areDigits c member))
      (stops_at_suffix (by decide) isSuffix)
  have other (c : Char) (isHead : suffix.toList.head? = some c) : c ∉ ['x', 'o', 'b', '.', 'e', 'E'] :=
    not_mem_of_decimal (.inr (head_of_suffix isSuffix c isHead))
  have noFraction : Lexer.fractionLength suffix.toList = 0 :=
    Lexer.fractionLength_eq_zero fun isHead => absurd (by decide) (other '.' isHead)
  have noExponent : Lexer.exponentLength suffix.toList = 0 := by
    refine Lexer.exponentLength_eq_zero fun c isHead => ⟨?_, ?_⟩
    · rintro rfl
      exact absurd (by decide) (other 'e' isHead)
    · rintro rfl
      exact absurd (by decide) (other 'E' isHead)
  simp [Lexer.decimalLength, whole, noFraction, noExponent]

/-- The lexer finds the mark and the digits of an integer literal, and no fraction or exponent. -/
theorem SpellsInteger.exists_digitsLength (spells : SpellsInteger base values suffix cs) :
    ∃ c front, cs = c :: (front ++ suffix.toList) ∧ startsNumber c ∧
      Lexer.digitsLength c (front ++ suffix.toList) = (front.length, false) := by
  obtain ⟨isMark, isSpelled, notEmpty, startsWithDigit, -, isSuffix⟩ := spells
  rename_i mark digits
  have areDigits := ((spellsDigits_iff (le_of_mem_baseMarks isMark)).1 isSpelled).1
  have marked (m : Char) (isRadix : (base, m) ∈ [(16, 'x'), (8, 'o'), (2, 'b')])
      (stops : Lexer.continuesRadix m 'u' = false ∧ Lexer.continuesRadix m 'i' = false)
      (isBase : m = 'x' ∨ m = 'o' ∨ m = 'b') :
      Lexer.digitsLength '0' (m :: (digits ++ suffix.toList)) = ((m :: digits).length, false) := by
    have run : Lexer.runLength (Lexer.continuesRadix m) (digits ++ suffix.toList) = digits.length :=
      Lexer.runLength_append (fun c member => continuesRadix_of_isDigitOf isRadix (areDigits c member))
        (stops_at_suffix stops isSuffix)
    rw [Lexer.digitsLength_cons, if_pos ⟨rfl, isBase⟩, run]
    rfl
  have zeroStarts : startsNumber '0' := by decide
  rcases mem_baseMarks_iff.1 isMark with ⟨rfl, rfl⟩ | ⟨rfl, rfl⟩ | ⟨rfl, rfl⟩ | ⟨rfl, rfl⟩
  · cases digits with
    | nil =>
        cases isSpelled
        exact absurd rfl notEmpty
    | cons c ds =>
        obtain ⟨isDigit, behind⟩ := List.forall_mem_cons.1 areDigits
        have noUnderscore : c ≠ '_' := fun same => startsWithDigit rfl (congrArg some same)
        refine ⟨c, ds, rfl, startsNumber_of_isDigitOf isDigit noUnderscore, ?_⟩
        rw [Lexer.digitsLength_decimal, decimalLength_digits behind isSuffix]
        rintro d isHead ⟨-, isMark⟩
        have other := not_mem_of_decimal (follows_of_head? behind isSuffix d isHead)
        rcases isMark with rfl | rfl | rfl <;> exact absurd (by decide) other
  · exact ⟨'0', 'x' :: digits, rfl, zeroStarts, marked 'x' (by decide) (by decide) (by decide)⟩
  · exact ⟨'0', 'o' :: digits, rfl, zeroStarts, marked 'o' (by decide) (by decide) (by decide)⟩
  · exact ⟨'0', 'b' :: digits, rfl, zeroStarts, marked 'b' (by decide) (by decide) (by decide)⟩

/-- No integer literal ends with the suffix of a floating point type, but one in base sixteen, where this is digits. -/
theorem SpellsInteger.hasFloatSuffix (spells : SpellsInteger base values suffix cs) :
    Lexer.hasFloatSuffix cs = false := by
  obtain ⟨isMark, isSpelled, -, -, -, isSuffix⟩ := spells
  rename_i mark digits
  have areDigits := ((spellsDigits_iff (le_of_mem_baseMarks isMark)).1 isSpelled).1
  have notInSuffix : 'f' ∉ suffix.toList := by
    simpa using of_mem_suffixes (p := fun s => decide ('f' ∉ s)) (by decide) isSuffix
  have noF (noLetter : 'f' ∉ mark) (noDigit : isDigitOf base 'f' = false) : 'f' ∉ mark ++ digits ++ suffix.toList := by
    have notInDigits : 'f' ∉ digits := fun member => by
      rw [areDigits 'f' member] at noDigit
      cases noDigit
    simp [noLetter, notInDigits, notInSuffix]
  have without (text : List Char) (noF : 'f' ∉ text) : Lexer.hasFloatSuffix text = false := by
    have noSuffix (width : List Char) : ('f' :: width).isSuffixOf text = false := by
      refine Bool.eq_false_iff.2 fun isSuffix => noF ?_
      exact (List.isSuffixOf_iff_suffix.1 isSuffix).subset List.mem_cons_self
    rw [Lexer.hasFloatSuffix, noSuffix, noSuffix]
    rfl
  rcases mem_baseMarks_iff.1 isMark with ⟨rfl, rfl⟩ | ⟨rfl, rfl⟩ | ⟨rfl, rfl⟩ | ⟨rfl, rfl⟩
  · exact without _ (noF (by decide) (by decide))
  · simp [Lexer.hasFloatSuffix]
  · exact without _ (noF (by decide) (by decide))
  · exact without _ (noF (by decide) (by decide))

theorem SpellsInteger.isSuffix (spells : SpellsInteger base values suffix cs) : suffix ∈ "" :: intSuffixes := by
  cases spells
  assumption

theorem SpellsInteger.tokenize {source : String} (spells : SpellsInteger base values suffix source.toList) :
    tokenize source =
      .ok [⟨.int, source, .start, false⟩, Token.atEnd (Position.start.after source.toList)] := by
  obtain ⟨c, front, isText, starts, digits⟩ := spells.exists_digitsLength
  simp only [startsNumber, Bool.and_eq_true, Bool.not_eq_true', decide_eq_true_eq] at starts
  obtain ⟨⟨⟨isDigit, notWord⟩, notBlank⟩, noSlash⟩ := starts
  have inSuffix : suffix.toList.all Lexer.continuesWord :=
    of_mem_suffixes (p := fun s => s.all Lexer.continuesWord) (by decide) spells.isSuffix
  have run := Lexer.runLength_eq_length inSuffix
  have length : Lexer.suffixed front.length (front ++ suffix.toList) = (front ++ suffix.toList).length := by
    rw [Lexer.suffixed, List.drop_left, run, List.length_append]
  have isNumber : Lexer.scanNumber c (front ++ suffix.toList) = (.int, (front ++ suffix.toList).length) := by
    rw [Lexer.scanNumber_eq, digits, length, List.take_length, ← isText, spells.hasFloatSuffix]
    rfl
  have noGap : Lexer.gapLength false (c :: (front ++ suffix.toList)) = 0 := by
    simp [Lexer.gapLength, notBlank, noSlash]
  have single := Lexer.tokenize_single noGap (Lexer.ScanRule.number notWord isDigit isNumber).scan_eq
  rwa [← isText, String.ofList_toList] at single

end Scan

/-! ## Numbers -/

section Decode

variable {base : Nat} {values : List Nat} {suffix : String} {cs : List Char}

/-- The base of a text, from the character behind its first one. -/
theorem splitBase_eq {mark rest : List Char} (isMark : (base, mark) ∈ baseMarks)
    (noMark : mark = [] → ∀ c ∈ rest[1]?, c ∉ ['x', 'o', 'b']) : splitBase (mark ++ rest) = (base, rest) := by
  rcases mem_baseMarks_iff.1 isMark with ⟨rfl, rfl⟩ | ⟨rfl, rfl⟩ | ⟨rfl, rfl⟩ | ⟨rfl, rfl⟩
  · have other := noMark rfl
    rw [List.nil_append]
    fun_cases splitBase rest with
    | case1 => exact absurd (by decide) (other 'x' rfl)
    | case2 => exact absurd (by decide) (other 'o' rfl)
    | case3 => exact absurd (by decide) (other 'b' rfl)
    | case4 => rfl
  · rfl
  · rfl
  · rfl

theorem exists_mark (cs : List Char) :
    ∃ mark, ((splitBase cs).1, mark) ∈ baseMarks ∧ cs = mark ++ (splitBase cs).2 := by
  fun_cases splitBase cs with
  | case1 cs => exact ⟨['0', 'x'], by simp [baseMarks], rfl⟩
  | case2 cs => exact ⟨['0', 'o'], by simp [baseMarks], rfl⟩
  | case3 cs => exact ⟨['0', 'b'], by simp [baseMarks], rfl⟩
  | case4 cs => exact ⟨[], by simp [baseMarks], rfl⟩

/-- Digits have a number if there is one at all among the underscores, and not too many in base ten. -/
theorem integer?_eq_some_iff {n : Nat} {digits : List Char} :
    integer? base digits = some n ↔
      digits.filterMap hexValue? ≠ [] ∧
        (base = 10 → (digits.filterMap hexValue?).length ≤ decimalDigitLimit) ∧
          n = Nat.ofDigits base (digits.filterMap hexValue?).reverse := by
  rw [integer?, ofDigits_eq]
  simp only [Option.ite_none_left_eq_some, Option.some.injEq, Bool.or_eq_true, List.isEmpty_iff, not_or,
    Bool.and_eq_true, decide_eq_true_eq, not_and, Nat.not_lt, and_assoc, eq_comm (a := n)]

/-- An integer that has no suffix of a floating point type denotes the number of its digits, if its suffix is known. -/
theorem decodeInt_eq_ok_iff {text : String} {l : Literal} (noFloat : Lexer.hasFloatSuffix text.toList = false)
    (isBase : (splitBase text.toList).1 = base) (isBody : (splitBase text.toList).2 = cs) :
    decodeInt text = .ok l ↔
      String.ofList (cs.dropWhile (isDigitOf base)) ∈ "" :: intSuffixes ∧
        ∃ n, integer? base (cs.takeWhile (isDigitOf base)) = some n ∧
          l = ⟨.int n, String.ofList (cs.dropWhile (isDigitOf base))⟩ := by
  have notFloat : String.ofList (cs.dropWhile (isDigitOf base)) ∉ floatSuffixes := by
    intro isFloat
    have isSuffixed : Lexer.hasFloatSuffix text.toList := hasFloatSuffix_of_mem (by rwa [isBase, isBody])
    rw [noFloat] at isSuffixed
    cases isSuffixed
  unfold decodeInt
  dsimp only
  rw [isBase, isBody]
  split
  · rename_i unknown
    simp [unknown]
  · rename_i known
    have isKnown : String.ofList (cs.dropWhile (isDigitOf base)) ∈ "" :: intSuffixes := by
      rw [List.mem_cons]
      by_contra unknown
      exact known ⟨fun isEmpty => unknown (.inl isEmpty), fun isInt => unknown (.inr isInt), notFloat⟩
    cases isNumber : integer? base (cs.takeWhile (isDigitOf base)) with
    | none => simp
    | some n => simp [isKnown, eq_comm]

theorem SpellsInteger.decodeInt_eq {text : String} (spells : SpellsInteger base values suffix text.toList) :
    decodeInt text = .ok (positional base values suffix) := by
  have noFloat := spells.hasFloatSuffix
  generalize isText : text.toList = cs at spells noFloat
  cases spells with
  | @intro mark digits isMark isSpelled notEmpty startsWithDigit notTooMany isSuffix =>
      obtain ⟨areDigits, areValues⟩ := (spellsDigits_iff (le_of_mem_baseMarks isMark)).1 isSpelled
      have noMark : mark = [] → ∀ c ∈ (digits ++ suffix.toList)[1]?, c ∉ ['x', 'o', 'b'] := by
        rintro rfl c isSecond member
        obtain rfl : base = 10 := by simpa [baseMarks] using isMark
        cases digits with
        | nil => exact notEmpty areValues.symm
        | cons d ds =>
            rw [List.cons_append, List.getElem?_cons_succ, ← List.head?_eq_getElem?] at isSecond
            have behind (x : Char) (isBehind : x ∈ ds) := areDigits x (List.mem_cons_of_mem d isBehind)
            have other := not_mem_of_decimal (follows_of_head? behind isSuffix c isSecond)
            exact other (List.mem_append_left ['.', 'e', 'E'] member)
      have split : splitBase text.toList = (base, digits ++ suffix.toList) := by
        rw [isText, List.append_assoc, splitBase_eq isMark noMark]
      have stops : ∀ c, suffix.toList.head? = some c → isDigitOf base c = false := by
        refine stops_at_suffix ?_ isSuffix
        rcases mem_baseMarks_iff.1 isMark with ⟨rfl, -⟩ | ⟨rfl, -⟩ | ⟨rfl, -⟩ | ⟨rfl, -⟩ <;> decide
      have front : (digits ++ suffix.toList).takeWhile (isDigitOf base) = digits :=
        Lexer.takeWhile_append areDigits stops
      have behind : (digits ++ suffix.toList).dropWhile (isDigitOf base) = suffix.toList :=
        Lexer.dropWhile_append areDigits stops
      refine (decodeInt_eq_ok_iff (isText ▸ noFloat) (congrArg Prod.fst split) (congrArg Prod.snd split)).2 ?_
      have isNumber : integer? base digits = some (Nat.ofDigits base values.reverse) :=
        integer?_eq_some_iff.2 (by rw [areValues]; exact ⟨notEmpty, notTooMany, rfl⟩)
      rw [front, behind, String.ofList_toList]
      exact ⟨isSuffix, _, isNumber, rfl⟩

/-- An integer token of a source that denotes something is an integer literal. -/
theorem exists_spells {c : Char} {more : List Char} {length : Nat} {l : Literal}
    (scanned : Lexer.scan c more = .ok (.int, length))
    (decoded : decodeInt (String.ofList (c :: more.take length)) = .ok l) :
    ∃ base values suffix, SpellsInteger base values suffix (c :: more.take length) := by
  have noFloat := Lexer.hasFloatSuffix_of_scan scanned
  have isDigit : Unicode.isDigit c := by
    rcases Lexer.scan_kind scanned with isWord | ⟨-, isDigit, -⟩ | isSpelling
    · simp [Lexer.wordKinds] at isWord
    · exact isDigit
    · cases isSpelling
  generalize isText : c :: more.take length = text at decoded noFloat ⊢
  obtain ⟨known, n, isNumber, -⟩ := (decodeInt_eq_ok_iff (by rwa [String.toList_ofList]) rfl rfl).1 decoded
  rw [String.toList_ofList] at known isNumber
  obtain ⟨mark, isMark, whole⟩ := exists_mark text
  obtain ⟨notEmpty, notTooMany, -⟩ := integer?_eq_some_iff.1 isNumber
  generalize (splitBase text).1 = base at known isNumber isMark notEmpty notTooMany
  generalize (splitBase text).2 = body at known isNumber whole notEmpty notTooMany
  have startsWithDigit : mark = [] → (body.takeWhile (isDigitOf base)).head? ≠ some '_' := by
    rintro rfl isHead
    rw [List.head?_takeWhile, ← List.nil_append body, ← whole, ← isText, List.head?_cons] at isHead
    obtain ⟨isUnderscore, -⟩ := Option.filter_eq_some_iff.1 isHead
    obtain rfl := Option.some.inj isUnderscore
    exact absurd isDigit (by decide)
  have spells : SpellsDigits base (body.takeWhile (isDigitOf base))
      ((body.takeWhile (isDigitOf base)).filterMap hexValue?) :=
    (spellsDigits_iff (le_of_mem_baseMarks isMark)).2 ⟨List.all_eq_true.1 List.all_takeWhile, rfl⟩
  have spelled := SpellsInteger.intro isMark spells notEmpty startsWithDigit notTooMany known
  rw [String.toList_ofList, List.append_assoc, List.takeWhile_append_dropWhile, ← whole] at spelled
  exact ⟨_, _, _, spelled⟩

end Decode

end Literal

/-- An integer literal is one integer token of a source, and denotes the number whose digits in its base are written. An
integer token of any source denotes something exactly if its text is an integer literal. -/
theorem integers_mean_numbers (source : String) :
    (∀ base values suffix, Literal.SpellsInteger base values suffix source.toList →
      tokenize source = .ok [⟨.int, source, .start, false⟩, .atEnd (Position.start.after source.toList)] ∧
        Literal.decode .int source = .ok (Literal.positional base values suffix)) ∧
    ∀ tokens, tokenize source = .ok tokens → ∀ t ∈ tokens, t.kind = .int → ∀ l,
      Literal.decode .int t.text = .ok l ↔ ∃ base values suffix,
        Literal.SpellsInteger base values suffix t.text.toList ∧ l = Literal.positional base values suffix := by
  constructor
  · intro base values suffix spells
    exact ⟨spells.tokenize, spells.decodeInt_eq⟩
  · intro tokens isRead t member isInt l
    constructor
    · intro decoded
      obtain ⟨ts, rfl, areScanned⟩ := (Lexer.tokensFrom_eq_ok_iff.1 isRead).tokens
      rcases List.mem_append.1 member with isToken | isEnd
      · obtain ⟨c, more, kind, length, scanned, same⟩ := areScanned t isToken
        have isText : t.text = String.ofList (c :: more.take length) := by
          rw [same]
          rfl
        obtain rfl : kind = .int := by
          rw [← isInt, same]
          rfl
        obtain ⟨base, values, suffix, spells⟩ := Literal.exists_spells scanned (isText ▸ decoded)
        rw [show c :: more.take length = t.text.toList by rw [isText, String.toList_ofList]] at spells
        exact ⟨base, values, suffix, spells, Except.ok.inj (decoded.symm.trans spells.decodeInt_eq)⟩
      · obtain rfl := List.mem_singleton.1 isEnd
        cases isInt
    · rintro ⟨base, values, suffix, spells, rfl⟩
      exact spells.decodeInt_eq

/-- Digits in base sixteen that look like the suffix of a floating point type. -/
theorem integers_mean_numbers_f32 :
    Literal.SpellsInteger 16 [15, 15, 3, 2] "" "0xf_f32".toList ∧
      tokenize "0xf_f32" = .ok [⟨.int, "0xf_f32", .start, false⟩, .atEnd (Position.start.after "0xf_f32".toList)] ∧
        Literal.decode .int "0xf_f32" = .ok ⟨.int 65330, ""⟩ ∧
          ∃ base values suffix, Literal.SpellsInteger base values suffix "0xf_f32".toList ∧
            (⟨.int 65330, ""⟩ : Literal) = Literal.positional base values suffix := by
  have isDigits : Text.SpellsDigits 16 ['f', '_', 'f', '3', '2'] [15, 15, 3, 2] :=
    .digit ⟨by decide, by decide⟩ (.underscore (.digit ⟨by decide, by decide⟩
      (.digit ⟨by decide, by decide⟩ (.digit ⟨by decide, by decide⟩ .nil))))
  have spells : Literal.SpellsInteger 16 [15, 15, 3, 2] "" "0xf_f32".toList :=
    @Literal.SpellsInteger.intro 16 _ "" ['0', 'x'] _ (by decide) isDigits (by decide) (by decide) (by decide) (by decide)
  have isNumber : Literal.positional 16 [15, 15, 3, 2] "" = ⟨.int 65330, ""⟩ := by
    simp [Literal.positional, Nat.ofDigits_cons]
  obtain ⟨isToken, isValue⟩ := (integers_mean_numbers "0xf_f32").1 _ _ _ spells
  rw [isNumber] at isValue
  have isLiteral := (integers_mean_numbers "0xf_f32").2 _ isToken _ List.mem_cons_self rfl ⟨.int 65330, ""⟩
  exact ⟨spells, isToken, isValue, isLiteral.1 isValue⟩

end AttrGrammar
