import AttrGrammar.Cursor.Words
import AttrGrammar.Proofs.Literal.Numerals
import AttrGrammar.Proofs.Literal.RoundTrip

/-!
Contract: which bodies of quoted literals are read, and as which texts.

Owns:
- bodies by their parts: characters, letters behind a backslash, and numerals in two forms;
- the numerals that are exact, and those that are read;
- that reading a body computes the text that it spells, and what becomes of the token of a string.

The characters of a numeral are cut out of the body by their count or up to a brace, and are then read leniently: a
sign, blanks, the mark of the base and digits of all scripts pass, and one character does at the end of a body.
-/

namespace AttrGrammar

namespace Escape

open CodePoint (ofChar)
open Text (IsDigit SpellsDigits IsNumeral)

/-! ## Bodies -/

/-- The letters that stand for a character behind a backslash. -/
def letters : List (Char × Char) :=
  [('n', '\n'), ('t', '\t'), ('r', '\r'), ('0', '\x00'), ('\\', '\\'), ('"', '"'), ('\'', '\'')]

/-- Which characters are the numeral of a code point: behind `\x`, with the rest of the body behind them, and between the
braces of `\u`. -/
structure Numerals where
  short (digits rest : List Char) (p : CodePoint) : Prop
  long (digits : List Char) (p : CodePoint) : Prop

/-- The bodies that spell a text, part by part, with numerals of some kind. -/
inductive Spells (numerals : Numerals) : List Char → List CodePoint → Prop where
  | nil : Spells numerals [] []
  | shown {c : Char} {cs : List Char} {text : List CodePoint} (noEscape : c ≠ '\\') (rest : Spells numerals cs text) :
      Spells numerals (c :: cs) (ofChar c :: text)
  | letter {letter c : Char} {cs : List Char} {text : List CodePoint} (isLetter : (letter, c) ∈ letters)
      (rest : Spells numerals cs text) : Spells numerals ('\\' :: letter :: cs) (ofChar c :: text)
  | short {digits cs : List Char} {p : CodePoint} {text : List CodePoint} (isNumeral : numerals.short digits cs p)
      (rest : Spells numerals cs text) : Spells numerals ('\\' :: 'x' :: (digits ++ cs)) (p :: text)
  | long {digits cs : List Char} {p : CodePoint} {text : List CodePoint} (isNumeral : numerals.long digits p)
      (noBrace : '\x7d' ∉ digits) (rest : Spells numerals cs text) :
      Spells numerals ('\\' :: 'u' :: '\x7b' :: (digits ++ '\x7d' :: cs)) (p :: text)

/-- Exact numerals: two digits of ASCII behind `\x`, and one digit at least, with underscores anywhere, between braces. -/
def Numerals.exact : Numerals where
  short digits _ p := digits.length = 2 ∧
    ∃ values, List.Forall₂ (IsDigit 16) digits values ∧ Nat.ofDigits 16 values.reverse = p.value
  long digits p := ∃ values ≠ [], SpellsDigits 16 digits values ∧ Nat.ofDigits 16 values.reverse = p.value

/-- Whether characters are a numeral of a code point for a lenient reader. -/
def IsLenient (digits : List Char) (p : CodePoint) : Prop :=
  ∃ negative values, IsNumeral negative values (digits.map Text.plainChar) ∧ Text.signed negative values = p.value

/-- Lenient numerals: two characters behind `\x`, or fewer at the end of the body, and any between braces, where
underscores do not count. -/
def Numerals.lenient : Numerals where
  short digits rest p := (digits.length = 2 ∨ digits.length < 2 ∧ rest = []) ∧ IsLenient digits p
  long digits p := IsLenient (digits.filter (· ≠ '_')) p

/-- Whether a character is a digit of base sixteen. -/
def IsHexDigit (c : Char) : Prop :=
  ∃ value, IsDigit 16 c value

/-- Whether the first numeral of a body that is not exact is too short, or has other characters than digits, and
underscores between braces. -/
inductive IsLoose : List Char → Prop where
  | short {digits cs : List Char} {p : CodePoint} (isNumeral : Numerals.lenient.short digits cs p)
      (isLoose : digits.length < 2 ∨ ∃ c ∈ digits, ¬IsHexDigit c) : IsLoose ('\\' :: 'x' :: (digits ++ cs))
  | long {digits cs : List Char} {p : CodePoint} (isNumeral : Numerals.lenient.long digits p) (noBrace : '\x7d' ∉ digits)
      (isLoose : ∃ c ∈ digits, c ≠ '_' ∧ ¬IsHexDigit c) :
      IsLoose ('\\' :: 'u' :: '\x7b' :: (digits ++ '\x7d' :: cs))
  | behind {front body : List Char} {text : List CodePoint} (isFront : Spells .exact front text) (isLoose : IsLoose body) :
      IsLoose (front ++ body)

/-! ## Numerals -/

section Numerals

variable {code : Char} {digits rest : List Char} {values : List Nat} {p : CodePoint}

theorem isLenient_iff : IsLenient digits p ↔ Text.hexInteger? digits = some (p.value : Int) :=
  Text.hexInteger?_eq_some_iff.symm

theorem ne_nil_of_isLenient (isLenient : IsLenient digits p) : digits ≠ [] := by
  rintro rfl
  cases isLenient_iff.1 isLenient

theorem numbered_eq_ok_iff : numbered code digits = .ok p ↔ IsLenient digits p := by
  rw [isLenient_iff]
  unfold numbered
  constructor
  · intro isNumber
    split at isNumber <;> cases isNumber
    rename_i isPoint
    obtain ⟨z, isInteger, isPoint⟩ := Option.bind_eq_some_iff.1 isPoint
    obtain ⟨notNegative, isPoint⟩ := Option.ite_none_right_eq_some.1 isPoint
    rw [isInteger, ← CodePoint.ofNat?_eq_some_iff.1 isPoint, Int.toNat_of_nonneg notNegative]
  · intro isInteger
    have isPoint := CodePoint.ofNat?_eq_some_iff.2 (rfl : p.value = p.value)
    simp only [isInteger, Option.bind_some, Int.natCast_nonneg, if_true, Int.toNat_natCast, isPoint]

/-- A digit is a character of ASCII, which is in plain form. -/
theorem plainChar_of_isDigit {c : Char} {value : Nat} (isDigit : IsDigit 16 c value) : Text.plainChar c = c := by
  have bound := Text.toNat_le_of_hexValue? (Text.hexValue?_eq_some_iff.2 isDigit)
  exact if_pos (Nat.lt_of_le_of_lt bound (by decide))

/-- Digits alone are a numeral without a sign and a mark, so they are a lenient numeral of the number they denote. -/
theorem isLenient_iff_of_digits (areDigits : List.Forall₂ (IsDigit 16) digits values) (notEmpty : digits ≠ []) :
    IsLenient digits p ↔ Nat.ofDigits 16 values.reverse = p.value := by
  have plain : digits.map Text.plainChar = digits := by
    refine (List.map_congr_left fun c member => ?_).trans (List.map_id digits)
    obtain ⟨value, isDigit⟩ := Text.exists_value_of_mem areDigits member
    exact plainChar_of_isDigit isDigit
  have isNumeral : IsNumeral false values ([] ++ ([] ++ ([] ++ digits)) ++ []) :=
    .intro (List.forall_mem_nil _) (by decide) (by decide) areDigits notEmpty (List.forall_mem_nil _)
  rw [List.nil_append, List.nil_append, List.nil_append, List.append_nil] at isNumeral
  have isInteger : Text.hexInteger? digits = some ((Nat.ofDigits 16 values.reverse : Nat) : Int) :=
    Text.hexInteger?_eq_some_iff.2 ⟨false, values, plain.symm ▸ isNumeral, rfl⟩
  rw [isLenient_iff, isInteger, Option.some_inj, Int.natCast_inj]

/-- Without its underscores a list of digits is the digits. -/
theorem forall₂_of_spellsDigits (spells : SpellsDigits 16 digits values) :
    List.Forall₂ (IsDigit 16) (digits.filter (· ≠ '_')) values := by
  induction spells with
  | nil => exact .nil
  | underscore _ inductionHypothesis => exact inductionHypothesis
  | @digit c value cs values isDigit _ inductionHypothesis =>
      have notUnderscore : c ≠ '_' := by
        rintro rfl
        cases Text.hexValue?_eq_some_iff.2 isDigit
      rw [List.filter_cons_of_pos (by simpa using notUnderscore)]
      exact .cons isDigit inductionHypothesis

theorem lenient_short_of_exact (isNumeral : Numerals.exact.short digits rest p) :
    Numerals.lenient.short digits rest p := by
  obtain ⟨isPair, values, areDigits, isValue⟩ := isNumeral
  have notEmpty : digits ≠ [] := List.ne_nil_of_length_pos (by omega)
  exact ⟨.inl isPair, (isLenient_iff_of_digits areDigits notEmpty).2 isValue⟩

theorem lenient_long_of_exact (isNumeral : Numerals.exact.long digits p) : Numerals.lenient.long digits p := by
  obtain ⟨values, notEmpty, spells, isValue⟩ := isNumeral
  have areDigits := forall₂_of_spellsDigits spells
  refine (isLenient_iff_of_digits areDigits fun isEmpty => ?_).2 isValue
  rw [isEmpty] at areDigits
  exact notEmpty (List.forall₂_nil_left_iff.1 areDigits)

theorem exists_values (areDigits : ∀ c ∈ digits, IsHexDigit c) :
    ∃ values, List.Forall₂ (IsDigit 16) digits values := by
  induction digits with
  | nil => exact ⟨[], .nil⟩
  | cons c digits inductionHypothesis =>
      obtain ⟨⟨value, isDigit⟩, behind⟩ := List.forall_mem_cons.1 areDigits
      obtain ⟨values, areValues⟩ := inductionHypothesis behind
      exact ⟨value :: values, .cons isDigit areValues⟩

theorem exact_short_of_lenient (isNumeral : Numerals.lenient.short digits rest p)
    (notLoose : ¬(digits.length < 2 ∨ ∃ c ∈ digits, ¬IsHexDigit c)) (later : List Char) :
    Numerals.exact.short digits later p := by
  obtain ⟨isLength, isLenient⟩ := isNumeral
  obtain ⟨notShort, noOther⟩ := not_or.1 notLoose
  have isPair : digits.length = 2 := isLength.resolve_right fun isShort => notShort isShort.1
  obtain ⟨values, areDigits⟩ := exists_values fun c member =>
    Classical.not_not.1 fun isOther => noOther ⟨c, member, isOther⟩
  have notEmpty : digits ≠ [] := List.ne_nil_of_length_pos (by omega)
  exact ⟨isPair, values, areDigits, (isLenient_iff_of_digits areDigits notEmpty).1 isLenient⟩

theorem exact_long_of_lenient (isNumeral : Numerals.lenient.long digits p)
    (notLoose : ¬∃ c ∈ digits, c ≠ '_' ∧ ¬IsHexDigit c) : Numerals.exact.long digits p := by
  have spells : SpellsDigits 16 digits (digits.filterMap Text.hexValue?) := by
    refine (Literal.spellsDigits_iff (Nat.le_refl 16)).2 ⟨fun c member => ?_, rfl⟩
    refine (Literal.isDigitOf_iff (Nat.le_refl 16)).2 ?_
    exact or_iff_not_imp_left.2 fun notUnderscore =>
      Classical.not_not.1 fun isOther => notLoose ⟨c, member, notUnderscore, isOther⟩
  have areDigits := forall₂_of_spellsDigits spells
  have notEmpty : digits.filter (· ≠ '_') ≠ [] := ne_nil_of_isLenient isNumeral
  refine ⟨_, fun isEmpty => ?_, spells, (isLenient_iff_of_digits areDigits notEmpty).1 isNumeral⟩
  rw [isEmpty] at areDigits
  exact notEmpty (List.forall₂_nil_right_iff.1 areDigits)

end Numerals

theorem Spells.lenient {body : List Char} {text : List CodePoint} (spells : Spells .exact body text) :
    Spells .lenient body text := by
  induction spells with
  | nil => exact .nil
  | shown noEscape _ inductionHypothesis => exact .shown noEscape inductionHypothesis
  | letter isLetter _ inductionHypothesis => exact .letter isLetter inductionHypothesis
  | short isNumeral _ inductionHypothesis => exact .short (lenient_short_of_exact isNumeral) inductionHypothesis
  | long isNumeral noBrace _ inductionHypothesis =>
      exact .long (lenient_long_of_exact isNumeral) noBrace inductionHypothesis

/-- A body that is spelled with lenient numerals, and not with exact ones, has a loose one. -/
theorem Spells.exact_or_loose {body : List Char} {text : List CodePoint} (spells : Spells .lenient body text) :
    Spells .exact body text ∨ IsLoose body := by
  induction spells with
  | nil => exact .inl .nil
  | shown noEscape _ inductionHypothesis =>
      exact inductionHypothesis.imp (.shown noEscape) (.behind (.shown noEscape .nil))
  | letter isLetter _ inductionHypothesis =>
      exact inductionHypothesis.imp (.letter isLetter) (.behind (.letter isLetter .nil))
  | @short digits cs p text isNumeral _ inductionHypothesis =>
      by_cases isLoose : digits.length < 2 ∨ ∃ c ∈ digits, ¬IsHexDigit c
      · exact .inr (.short isNumeral isLoose)
      · have isExact := exact_short_of_lenient isNumeral isLoose
        have loose (looseRest : IsLoose cs) := IsLoose.behind (.short (isExact []) .nil) looseRest
        rw [List.append_nil] at loose
        exact inductionHypothesis.imp (.short (isExact cs)) loose
  | @long digits cs p text isNumeral noBrace _ inductionHypothesis =>
      by_cases isLoose : ∃ c ∈ digits, c ≠ '_' ∧ ¬IsHexDigit c
      · exact .inr (.long isNumeral noBrace isLoose)
      · have isExact := exact_long_of_lenient isNumeral isLoose
        have loose (looseRest : IsLoose cs) := IsLoose.behind (.long isExact noBrace .nil) looseRest
        rw [List.cons_append, List.cons_append, List.cons_append, List.append_assoc] at loose
        exact inductionHypothesis.imp (.long isExact noBrace) loose

/-! ## Reading -/

section Reading

variable {body cs digits : List Char} {text : List CodePoint}

theorem denoted?_eq_some_iff {letter c : Char} : denoted? letter = some c ↔ (letter, c) ∈ letters := by
  constructor
  · intro denotes
    unfold denoted? at denotes
    split at denotes <;> cases denotes <;> decide
  · intro isLetter
    simp only [letters, List.mem_cons, List.not_mem_nil, or_false, Prod.mk.injEq] at isLetter
    rcases isLetter with ⟨rfl, rfl⟩ | ⟨rfl, rfl⟩ | ⟨rfl, rfl⟩ | ⟨rfl, rfl⟩ | ⟨rfl, rfl⟩ | ⟨rfl, rfl⟩ | ⟨rfl, rfl⟩ <;> rfl

theorem map_cons_eq_ok_iff {p : CodePoint} {later : Except Fault (List CodePoint)} :
    later.map (p :: ·) = .ok text ↔ ∃ more, later = .ok more ∧ text = p :: more := by
  cases later <;> simp [Except.map, eq_comm]

theorem bind_map_cons_eq_ok_iff {point : Except Fault CodePoint} {later : Except Fault (List CodePoint)} :
    (point >>= fun p => later.map (p :: ·)) = .ok text ↔
      ∃ p more, point = .ok p ∧ later = .ok more ∧ text = p :: more := by
  cases point with
  | error fault => simp [bind, Except.bind]
  | ok p => simp [bind, Except.bind, map_cons_eq_ok_iff]

theorem decode_letter {letter c : Char} (isLetter : (letter, c) ∈ letters) (cs : List Char) :
    decode ('\\' :: letter :: cs) = (decode cs).map (ofChar c :: ·) := by
  rw [decode, denoted?_eq_some_iff.2 isLetter]

theorem decode_short (cs : List Char) :
    decode ('\\' :: 'x' :: cs) = (numbered 'x' (cs.take 2) >>= fun p => (decode (cs.drop 2)).map (p :: ·)) := by
  rw [decode]
  rfl

/-- A numeral in braces ends at the first closing one. -/
theorem takeWhile_numeral (noBrace : '\x7d' ∉ digits) (cs : List Char) :
    (digits ++ '\x7d' :: cs).takeWhile (· ≠ '\x7d') = digits := by
  refine Lexer.takeWhile_append (fun c member => ?_) fun c isBrace => ?_
  · exact decide_eq_true fun isBrace => noBrace (isBrace ▸ member)
  · cases isBrace
    rfl

theorem decode_long (noBrace : '\x7d' ∉ digits) (cs : List Char) :
    decode ('\\' :: 'u' :: '\x7b' :: (digits ++ '\x7d' :: cs)) =
      (numbered 'u' (digits.filter (· ≠ '_')) >>= fun p => (decode cs).map (p :: ·)) := by
  have closes : ('\x7b' :: (digits ++ '\x7d' :: cs)).contains '\x7d' := by simp
  have isRest : ('\x7b' :: (digits ++ '\x7d' :: cs)).drop (digits.length + 2) = cs := by simp
  rw [decode, show denoted? 'u' = none from rfl]
  dsimp only [List.tail_cons]
  rw [if_neg (by decide), if_pos ⟨rfl, rfl⟩, if_pos closes, takeWhile_numeral noBrace, isRest]

theorem decode_eq_ok_of_spells (spells : Spells .lenient body text) : decode body = .ok text := by
  induction spells with
  | nil => rw [decode]
  | shown noEscape _ inductionHypothesis =>
      rw [decode_cons noEscape, inductionHypothesis]
      rfl
  | letter isLetter _ inductionHypothesis =>
      rw [decode_letter isLetter, inductionHypothesis]
      rfl
  | @short digits cs p text isNumeral _ inductionHypothesis =>
      obtain ⟨isPair | ⟨isShort, rfl⟩, isLenient⟩ := isNumeral
      · rw [decode_short, ← isPair, List.take_left, List.drop_left, numbered_eq_ok_iff.2 isLenient, inductionHypothesis]
        rfl
      · rw [List.append_nil, decode_short, List.take_of_length_le (Nat.le_of_lt isShort),
          List.drop_of_length_le (Nat.le_of_lt isShort), numbered_eq_ok_iff.2 isLenient, inductionHypothesis]
        rfl
  | long isNumeral noBrace _ inductionHypothesis =>
      rw [decode_long noBrace, numbered_eq_ok_iff.2 isNumeral, inductionHypothesis]
      rfl

/-- The two characters behind `\x`, or what there is of them, are a numeral in front of the rest. -/
theorem Spells.of_short {p : CodePoint} (isLenient : IsLenient (cs.take 2) p) (rest : Spells .lenient (cs.drop 2) text) :
    Spells .lenient ('\\' :: 'x' :: cs) (p :: text) := by
  have isNumeral : Numerals.lenient.short (cs.take 2) (cs.drop 2) p := by
    refine ⟨?_, isLenient⟩
    rw [List.length_take, List.drop_eq_nil_iff]
    omega
  have spells := Spells.short isNumeral rest
  rwa [List.take_append_drop] at spells

/-- The characters up to the first closing brace are a numeral in front of the rest. -/
theorem Spells.of_long {p : CodePoint} (closes : '\x7d' ∈ cs)
    (isLenient : IsLenient ((cs.takeWhile (· ≠ '\x7d')).filter (· ≠ '_')) p)
    (rest : Spells .lenient (cs.drop ((cs.takeWhile (· ≠ '\x7d')).length + 1)) text) :
    Spells .lenient ('\\' :: 'u' :: '\x7b' :: cs) (p :: text) := by
  obtain ⟨digits, later, rfl, noBrace⟩ := List.eq_append_cons_of_mem closes
  rw [takeWhile_numeral noBrace] at isLenient rest
  rw [List.drop_length_add_append, List.drop_one, List.tail_cons] at rest
  exact .long isLenient noBrace rest

theorem spells_of_decode_eq_ok (isRead : decode body = .ok text) : Spells .lenient body text := by
  fun_induction decode body generalizing text with
  | case1 =>
      cases isRead
      exact .nil
  | case2 => cases isRead
  | case3 code cs c denotes inductionHypothesis =>
      obtain ⟨more, laterRead, rfl⟩ := map_cons_eq_ok_iff.1 isRead
      exact .letter (denoted?_eq_some_iff.1 denotes) (inductionHypothesis laterRead)
  | case4 cs _ inductionHypothesis =>
      obtain ⟨p, more, isNumber, laterRead, rfl⟩ := bind_map_cons_eq_ok_iff.1 isRead
      exact .of_short (numbered_eq_ok_iff.1 isNumber) (inductionHypothesis laterRead)
  | case5 code cs _ _ isLong closes digits =>
      rename_i inductionHypothesis
      obtain ⟨p, more, isNumber, laterRead, rfl⟩ := bind_map_cons_eq_ok_iff.1 isRead
      obtain ⟨rfl, opens⟩ := isLong
      obtain ⟨later, rfl⟩ := List.head?_eq_some_iff.1 opens
      have closes : '\x7d' ∈ later := by simpa using closes
      exact .of_long closes (numbered_eq_ok_iff.1 isNumber) (inductionHypothesis laterRead)
  | case6 => cases isRead
  | case7 => cases isRead
  | case8 c cs notLast notEscape inductionHypothesis =>
      obtain ⟨more, laterRead, rfl⟩ := map_cons_eq_ok_iff.1 isRead
      have noEscape : c ≠ '\\' := by
        rintro rfl
        cases cs with
        | nil => exact notLast rfl rfl
        | cons code cs => exact notEscape code cs rfl rfl
      exact .shown noEscape (inductionHypothesis laterRead)

/-- A body is read as the text that it spells, with numerals that are read leniently. -/
theorem decode_eq_ok_iff : decode body = .ok text ↔ Spells .lenient body text :=
  ⟨spells_of_decode_eq_ok, decode_eq_ok_of_spells⟩

end Reading

/-! ## Strings -/

/-- The token of a string with a body. -/
def stringToken (body : List Char) (place : Position) : Token :=
  ⟨.str, String.ofList ('"' :: (body ++ ['"'])), place, false⟩

theorem decode_stringToken (body : List Char) (place : Position) :
    Literal.decode (stringToken body place).kind (stringToken body place).text =
      ((decode body).map fun text => Literal.plain (.str text)).mapError (.badEscape · (stringToken body place).text) := by
  have isBody : Literal.bodyOf 1 (stringToken body place).text = body := by
    rw [Literal.bodyOf, stringToken, String.toList_ofList, List.drop_one, List.tail_cons, List.dropLast_concat]
  change (Literal.decodeBody 1 (stringToken body place).text >>= fun text => pure (Literal.plain (.str text))) = _
  rw [Literal.decodeBody, isBody]
  cases decode body <;> rfl

/-- A body is read just if it is spelled with lenient numerals, as the text that it spells. So are the bodies with exact
numerals, and the others that are read have a loose one. The token of a string denotes the text of its body, and where
there is none it is a malformed item at its place. -/
theorem outcome_of_string (body : List Char) (place : Position) (c : Cursor) :
    (∀ text, decode body = .ok text ↔ Spells .lenient body text) ∧
      (∀ text, Spells .exact body text → Spells .lenient body text) ∧
      (∀ text, Spells .lenient body text → Spells .exact body text ∨ IsLoose body) ∧
      (∀ text, Spells .lenient body text →
        Reader.decoded (stringToken body place) c = .ok (Literal.plain (.str text)) c) ∧
      ((∀ text, ¬Spells .lenient body text) → ∃ fault, decode body = .error fault ∧
        Reader.decoded (stringToken body place) c =
          .error (.rejected ⟨.malformedItem, .malformedLiteral (.badEscape fault (stringToken body place).text), place⟩)
            c) := by
  refine ⟨fun text => decode_eq_ok_iff, fun text => Spells.lenient, fun text => Spells.exact_or_loose,
    fun text spells => ?_, fun notSpelled => ?_⟩
  · unfold Reader.decoded
    rw [decode_stringToken, decode_eq_ok_of_spells spells]
    rfl
  · cases isRead : decode body with
    | ok text => exact absurd (spells_of_decode_eq_ok isRead) (notSpelled text)
    | error fault =>
        refine ⟨fault, rfl, ?_⟩
        unfold Reader.decoded
        rw [decode_stringToken, isRead]
        rfl

/-- A sign passes as the first of two digits, which no exact numeral has. -/
theorem signed_numeral_read :
    decode ['\\', 'x', '+', '5'] = .ok [⟨5, by decide⟩] ∧ ∀ text, ¬Spells .exact ['\\', 'x', '+', '5'] text := by
  constructor
  · have isNumber : numbered 'x' ['+', '5'] = .ok ⟨5, by decide⟩ := rfl
    rw [decode_numbered isNumber, decode]
    rfl
  · intro text spells
    generalize isBody : ['\\', 'x', '+', '5'] = body at spells
    cases spells with
    | nil => cases isBody
    | shown noEscape => exact noEscape (List.cons.inj isBody).1.symm
    | letter isLetter =>
        cases isBody
        revert isLetter
        simp [letters]
    | @short digits cs p text isNumeral =>
        obtain ⟨isPair, values, areDigits, -⟩ := isNumeral
        cases digits with
        | nil => cases isPair
        | cons d digits =>
            obtain rfl : '+' = d := by
              injection isBody with _ isBody
              injection isBody with _ isBody
              injection isBody
            obtain ⟨value, isDigit⟩ := Text.exists_value_of_mem areDigits List.mem_cons_self
            exact (Text.not_other_of_isDigit isDigit).2 (by decide)
    | long => cases isBody

end Escape

end AttrGrammar
