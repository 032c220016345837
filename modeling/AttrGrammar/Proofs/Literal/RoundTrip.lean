import AttrGrammar.Literal.Write
import AttrGrammar.Literal.Decode
import AttrGrammar.Tree
import AttrGrammar.Proofs.Printing.Rescan

/-!
Contract: which texts and characters a literal that was made from them gives back.

Owns:
- the hexadecimal digits of a number;
- the forms in which a character is written in a body, and what each of them is read as;
- that the text of such a literal is one token, whatever it holds;
- that the token gives the literal back just if each character is shown as itself or has a number of two digits.

An escape by number holds all digits of the number and its reader takes two of them. The rest of a longer
number is read as characters of its own.
-/

namespace AttrGrammar

/-! ## Digits -/

namespace Text

/-- The digits of a number of one or two digits, with a zero in front of one digit. -/
theorem hex_of_lt {n : Nat} (small : n < 0x100) :
    hex 2 n = [Nat.digitChar (n / 16), Nat.digitChar (n % 16)] := by
  by_cases one : n < 16
  · rw [hex, Nat.toDigits_of_lt_base one, Nat.div_eq_of_lt one, Nat.mod_eq_of_lt one]
    rfl
  · have first : n / 16 < 16 := by omega
    rw [hex, Nat.toDigits_of_base_le (by decide) (by omega), Nat.toDigits_of_lt_base first]
    rfl

/-- A greater number has a third digit. -/
theorem exists_hex_of_le {n : Nat} (large : 0x100 ≤ n) :
    ∃ d e ds, ds ≠ [] ∧ hex 2 n = d :: e :: ds ∧ Nat.toDigits 16 n = d :: e :: ds := by
  have length : 2 < (Nat.toDigits 16 n).length := by
    have notShort : ¬(Nat.toDigits 16 n).length ≤ 2 := by
      rw [Nat.length_toDigits_le_iff (by decide) (by decide)]
      omega
    omega
  match isDigits : Nat.toDigits 16 n, length with
  | d :: e :: f :: ds, _ =>
      refine ⟨d, e, f :: ds, List.cons_ne_nil _ _, ?_, rfl⟩
      rw [hex, isDigits, show 2 - (d :: e :: f :: ds).length = 0 by simp]
      rfl

theorem exists_digit_of_mem {n : Nat} {c : Char} (member : c ∈ Nat.toDigits 16 n) :
    ∃ k < 16, c = Nat.digitChar k := by
  induction n using Nat.strongRecOn with
  | ind n inductionHypothesis =>
      by_cases one : n < 16
      · rw [Nat.toDigits_of_lt_base one] at member
        exact ⟨n, one, List.mem_singleton.1 member⟩
      · rw [Nat.toDigits_of_base_le (by decide) (by omega), List.mem_append] at member
        rcases member with front | last
        · exact inductionHypothesis (n / 16) (by omega) front
        · exact ⟨n % 16, Nat.mod_lt _ (by decide), List.mem_singleton.1 last⟩

/-- Two digits denote the number that they are the digits of. -/
theorem hexInteger?_digits :
    ∀ a b : Fin 16, hexInteger? [Nat.digitChar a, Nat.digitChar b] = some ((16 * a + b : Nat) : Int) := by
  decide

end Text

theorem CodePoint.toChar?_ofChar (c : Char) : (ofChar c).toChar? = some c := by
  have isValid : (ofChar c).value.isValidChar := c.valid
  rw [toChar?, dif_pos isValid]
  rfl

theorem CodePoint.ofNat?_eq_some_iff {n : Nat} {p : CodePoint} : ofNat? n = some p ↔ n = p.value := by
  constructor
  · intro isPoint
    obtain ⟨inRange, same⟩ := Option.dite_none_right_eq_some.1 isPoint
    rw [← Option.some.inj same]
  · rintro rfl
    exact dif_pos p.value_lt

/-! ## Written forms -/

namespace Escape

open CodePoint (ofChar)

/-- Whether a character stands for itself between quotes of either kind. -/
def IsPlain (c : Char) : Prop :=
  c ∉ ['\\', '"', '\'']

/-- Whether the written form of a character is read as this character alone. -/
def IsFaithful (c : Char) : Prop :=
  Unicode.isPrintable c.toNat ∨ c.toNat < 0x100

instance (c : Char) : Decidable (IsFaithful c) :=
  inferInstanceAs (Decidable (_ ∨ _))

/-- The written forms of a character, and the code points that they are read as. -/
inductive Written (c : Char) : List Char → List CodePoint → Prop where
  | letter {letter : Char} (denotes : denoted? letter = some c) (small : c.toNat < 0x100) :
      Written c ['\\', letter] [ofChar c]
  | shown (printable : Unicode.isPrintable c.toNat) (isPlain : IsPlain c) : Written c [c] [ofChar c]
  | short {d e : Char} (small : c.toNat < 0x100) (isPlain : ∀ x ∈ [d, e], IsPlain x)
      (isNumber : numbered 'x' [d, e] = .ok (ofChar c)) : Written c ['\\', 'x', d, e] [ofChar c]
  | long {d e : Char} {ds : List Char} {p : CodePoint} (unfaithful : ¬IsFaithful c) (more : ds ≠ [])
      (isPlain : ∀ x ∈ d :: e :: ds, IsPlain x) (isNumber : numbered 'x' [d, e] = .ok p) :
      Written c ('\\' :: 'x' :: d :: e :: ds) (p :: ds.map ofChar)

theorem numbered_digits {a b : Nat} (first : a < 16) (second : b < 16) {p : CodePoint}
    (isNumber : p.value = 16 * a + b) :
    numbered 'x' [Nat.digitChar a, Nat.digitChar b] = .ok p := by
  have integer := Text.hexInteger?_digits ⟨a, first⟩ ⟨b, second⟩
  have isPoint : CodePoint.ofNat? (16 * a + b) = some p := CodePoint.ofNat?_eq_some_iff.2 isNumber.symm
  simp only [numbered, integer, Option.bind_some, Int.natCast_nonneg, if_true, Int.toNat_natCast, isPoint]

theorem isPlain_digitChar : ∀ k < 16, IsPlain (Nat.digitChar k) := by
  unfold IsPlain
  decide

theorem denoted?_of_letter? {c letter : Char} (isLetter : letter? c = some letter) :
    denoted? letter = some c ∧ c.toNat < 0x100 := by
  unfold letter? at isLetter
  split at isLetter <;> cases isLetter <;> exact ⟨rfl, by decide⟩

theorem isPlain_of_letter? {c : Char} (noLetter : letter? c = none) : IsPlain c := by
  intro member
  simp only [List.mem_cons, List.not_mem_nil, or_false] at member
  rcases member with rfl | rfl | rfl <;> cases noLetter

theorem encode_ofChar (c : Char) :
    encode (ofChar c) =
      match letter? c with
      | some letter => ['\\', letter]
      | none => if Unicode.isPrintable c.toNat then [c] else '\\' :: 'x' :: Text.hex 2 c.toNat := by
  rw [encode, CodePoint.toChar?_ofChar, Option.bind_some]
  cases letter? c <;> rfl

/-- The escape by number of a character that is not shown: the reader takes two of the digits. -/
theorem exists_written_hex {c : Char} (notShown : ¬Unicode.isPrintable c.toNat) :
    ∃ reread, Written c ('\\' :: 'x' :: Text.hex 2 c.toNat) reread := by
  by_cases small : c.toNat < 0x100
  · have first : c.toNat / 16 < 16 := by omega
    have second : c.toNat % 16 < 16 := Nat.mod_lt _ (by decide)
    rw [Text.hex_of_lt small]
    refine ⟨_, .short small ?_ (numbered_digits first second (Nat.div_add_mod ..).symm)⟩
    simp [isPlain_digitChar, first, second]
  · obtain ⟨d, e, ds, more, isHex, isDigits⟩ := Text.exists_hex_of_le (Nat.le_of_not_lt small)
    have digits (x : Char) (member : x ∈ d :: e :: ds) : ∃ k < 16, x = Nat.digitChar k :=
      Text.exists_digit_of_mem (isDigits ▸ member)
    obtain ⟨a, first, rfl⟩ := digits d (by simp)
    obtain ⟨b, second, rfl⟩ := digits e (by simp)
    rw [isHex]
    refine ⟨_, .long (not_or.2 ⟨notShown, small⟩) more ?_
      (numbered_digits (p := ⟨16 * a + b, by omega⟩) first second rfl)⟩
    intro x member
    obtain ⟨k, isDigit, rfl⟩ := digits x member
    exact isPlain_digitChar k isDigit

theorem exists_written (c : Char) : ∃ reread, Written c (encode (ofChar c)) reread := by
  rw [encode_ofChar]
  cases isLetter : letter? c with
  | some letter =>
      obtain ⟨denotes, small⟩ := denoted?_of_letter? isLetter
      exact ⟨_, .letter denotes small⟩
  | none =>
      by_cases printable : Unicode.isPrintable c.toNat
      · simp only [printable, if_true]
        exact ⟨_, .shown printable (isPlain_of_letter? isLetter)⟩
      · simp only [printable, Bool.false_eq_true, if_false]
        exact exists_written_hex printable

/-- A form that is not read as its character alone is read as more than one. -/
theorem Written.faithful_or_longer {c : Char} {written : List Char} {reread : List CodePoint}
    (isWritten : Written c written reread) :
    (IsFaithful c ∧ reread = [ofChar c]) ∨ (¬IsFaithful c ∧ 1 < reread.length) := by
  cases isWritten with
  | letter _ small => exact .inl ⟨.inr small, rfl⟩
  | shown printable => exact .inl ⟨.inl printable, rfl⟩
  | short small => exact .inl ⟨.inr small, rfl⟩
  | @long d e ds p unfaithful more =>
      have positive : 0 < ds.length := List.length_pos_iff.2 more
      exact .inr ⟨unfaithful, by rw [List.length_cons, List.length_map]; omega⟩

/-! ## Reading -/

theorem decode_cons {c : Char} (noEscape : c ≠ '\\') (cs : List Char) :
    decode (c :: cs) = (decode cs).map (ofChar c :: ·) := by
  rw [decode]
  all_goals intros; contradiction

theorem decode_plain {ds : List Char} (isPlain : ∀ d ∈ ds, IsPlain d) (rest : List Char) :
    decode (ds ++ rest) = (decode rest).map (ds.map ofChar ++ ·) := by
  induction ds with
  | nil =>
      rw [List.nil_append]
      cases decode rest <;> rfl
  | cons d ds inductionHypothesis =>
      have noEscape : d ≠ '\\' := by
        rintro rfl
        exact isPlain _ (List.mem_cons_self ..) (by decide)
      rw [List.cons_append, decode_cons noEscape,
        inductionHypothesis fun x member => isPlain x (List.mem_cons_of_mem _ member)]
      cases decode rest <;> rfl

theorem decode_numbered {d e : Char} {p : CodePoint} (isNumber : numbered 'x' [d, e] = .ok p)
    (rest : List Char) :
    decode ('\\' :: 'x' :: d :: e :: rest) = (decode rest).map (p :: ·) := by
  rw [decode]
  simp [denoted?, isNumber, bind, Except.bind]

theorem Written.decode_append {c : Char} {written : List Char} {reread : List CodePoint}
    (isWritten : Written c written reread) (rest : List Char) :
    decode (written ++ rest) = (decode rest).map (reread ++ ·) := by
  cases isWritten with
  | letter denotes => exact (by rw [decode, denotes] : decode ('\\' :: _ :: rest) = _)
  | shown _ isPlain => exact decode_plain (by simpa using isPlain) rest
  | short _ _ isNumber => exact decode_numbered isNumber rest
  | @long d e ds p _ _ isPlain isNumber =>
      have allPlain : ∀ x ∈ ds, IsPlain x := fun x member => isPlain x (by simp [member])
      have isRead := decode_numbered isNumber (ds ++ rest)
      rw [decode_plain allPlain] at isRead
      refine isRead.trans ?_
      cases decode rest <;> rfl

/-- A body that was written from characters is always read: as these characters if each of them is written
faithfully, and else as more code points than there were characters. -/
theorem exists_decode_encode (s : List Char) :
    ∃ text, decode ((s.map ofChar).flatMap encode) = .ok text ∧
      (((∀ c ∈ s, IsFaithful c) ∧ text = s.map ofChar) ∨
        ((∃ c ∈ s, ¬IsFaithful c) ∧ s.length < text.length)) := by
  induction s with
  | nil => exact ⟨[], by rw [List.map_nil, List.flatMap_nil, decode], .inl ⟨by simp, rfl⟩⟩
  | cons c s inductionHypothesis =>
      obtain ⟨text, isRead, outcome⟩ := inductionHypothesis
      obtain ⟨reread, isWritten⟩ := exists_written c
      refine ⟨reread ++ text, ?_, ?_⟩
      · rw [List.map_cons, List.flatMap_cons, isWritten.decode_append, isRead]
        rfl
      · rw [List.length_append, List.length_cons]
        rcases isWritten.faithful_or_longer with ⟨faithful, rfl⟩ | ⟨unfaithful, longer⟩
        · rcases outcome with ⟨allFaithful, rfl⟩ | ⟨⟨d, member, unfaithful⟩, longer⟩
          · exact .inl ⟨List.forall_mem_cons.2 ⟨faithful, allFaithful⟩, rfl⟩
          · refine .inr ⟨⟨d, List.mem_cons_of_mem _ member, unfaithful⟩, ?_⟩
            rw [List.length_singleton]
            omega
        · refine .inr ⟨⟨c, List.mem_cons_self .., unfaithful⟩, ?_⟩
          have notShorter : s.length ≤ text.length := by
            rcases outcome with ⟨-, rfl⟩ | ⟨-, longerLater⟩
            · exact Nat.le_of_eq (List.length_map _).symm
            · exact Nat.le_of_lt longerLater
          omega

end Escape

/-! ## Tokens -/

namespace Lexer

open CodePoint (ofChar)
open Escape (IsPlain Written)

variable {quote : Char}

theorem quotedLength?_plain (isQuote : quote ∈ ['"', '\'']) {ds : List Char}
    (isPlain : ∀ d ∈ ds, IsPlain d) (rest : List Char) :
    quotedLength? quote (ds ++ rest) = (quotedLength? quote rest).map (· + ds.length) := by
  induction ds with
  | nil =>
      rw [List.nil_append]
      cases quotedLength? quote rest <;> rfl
  | cons d ds inductionHypothesis =>
      have dPlain : IsPlain d := isPlain d (List.mem_cons_self ..)
      have noEscape : d ≠ '\\' := by
        rintro rfl
        exact dPlain (by decide)
      have notClosing : d ≠ quote := by
        rintro rfl
        exact dPlain (List.mem_cons_of_mem _ isQuote)
      rw [List.cons_append, quotedLength?_cons noEscape, if_neg notClosing,
        inductionHypothesis fun x member => isPlain x (List.mem_cons_of_mem _ member)]
      cases quotedLength? quote rest <;> rfl

/-- The written form of a character holds no closing quote. -/
theorem quotedLength?_written (isQuote : quote ∈ ['"', '\'']) {c : Char} {written : List Char}
    {reread : List CodePoint} (isWritten : Written c written reread) (rest : List Char) :
    quotedLength? quote (written ++ rest) =
      (quotedLength? quote rest).map (· + written.length) := by
  -- behind a backslash and the character that it takes, all are plain
  have escaped {code : Char} {ds : List Char} (isPlain : ∀ d ∈ ds, IsPlain d) :
      quotedLength? quote ('\\' :: code :: ds ++ rest) =
        (quotedLength? quote rest).map (· + ('\\' :: code :: ds).length) := by
    rw [List.cons_append, List.cons_append, quotedLength?, quotedLength?_plain isQuote isPlain]
    cases quotedLength? quote rest <;> rfl
  cases isWritten with
  | letter => exact escaped (List.forall_mem_nil _)
  | shown _ isPlain => exact quotedLength?_plain isQuote (by simpa using isPlain) rest
  | short _ isPlain => exact escaped isPlain
  | long _ _ isPlain => exact escaped isPlain

theorem quotedLength?_encode (isQuote : quote ∈ ['"', '\'']) (s : List Char) :
    quotedLength? quote ((s.map ofChar).flatMap Escape.encode ++ [quote]) =
      some ((s.map ofChar).flatMap Escape.encode ++ [quote]).length := by
  induction s with
  | nil =>
      have noEscape : quote ≠ '\\' := by
        rintro rfl
        exact absurd isQuote (by decide)
      exact (quotedLength?_cons noEscape []).trans (if_pos rfl)
  | cons c s inductionHypothesis =>
      obtain ⟨reread, isWritten⟩ := Escape.exists_written c
      rw [List.map_cons, List.flatMap_cons, List.append_assoc,
        quotedLength?_written isQuote isWritten, inductionHypothesis, Option.map_some, Nat.add_comm,
        ← List.length_append]

theorem scan_str {cs : List Char} {length : Nat} (closes : quotedLength? '"' cs = some length) :
    scan '"' cs = .ok (.str, length) :=
  (ScanRule.str closes).scan_eq

theorem scan_char {cs : List Char} {length : Nat} (starts : startsCharacter cs)
    (closes : quotedLength? '\'' cs = some length) : scan '\'' cs = .ok (.char, length) := by
  refine (ScanRule.singleQuote ?_).scan_eq
  rw [scanSingleQuote_eq, if_pos starts, closes]

/-- The written form of one character between single quotes is no lifetime. -/
theorem startsCharacter_written {c : Char} {written : List Char} {reread : List CodePoint}
    (isWritten : Written c written reread) : startsCharacter (written ++ ['\'']) := by
  cases isWritten with
  | shown => exact .inr rfl
  | letter => exact .inl rfl
  | short => exact .inl rfl
  | long => exact .inl rfl

/-- A source that is one token from its first to its last character. -/
theorem tokenize_single {c : Char} {more : List Char} {kind : TokenKind}
    (noGap : gapLength false (c :: more) = 0) (scanned : scan c more = .ok (kind, more.length)) :
    tokenize (String.ofList (c :: more)) =
      .ok [⟨kind, String.ofList (c :: more), .start, false⟩,
        Token.atEnd (Position.start.after (c :: more))] := by
  have finished : Lexed (Position.start.after (c :: more)) []
      [Token.atEnd (Position.start.after (c :: more))] := .finish rfl
  have isToken := @Lexed.token .start [] c more kind more.length
    [Token.atEnd (Position.start.after (c :: more))] noGap scanned
  simp only [List.take_length, List.drop_length, Position.after_nil, List.nil_append] at isToken
  rw [tokenize, String.toList_ofList, tokensFrom_eq_ok_iff.2 (isToken finished)]
  simp [tokenAt]

end Lexer

/-! ## Literals -/

namespace Literal

open CodePoint (ofChar)
open Escape (IsFaithful)

/-- What the token of a literal denotes. -/
def reread (l : Literal) : Except LiteralFault Literal :=
  decode l.token.kind l.token.text

/-- The print of the token of a literal is this token and no other. -/
def IsOneToken (l : Literal) : Prop :=
  tokenize (Tree.printAll [.token l.token]) =
    .ok [{ l.token with position := .start }, Token.atEnd (Position.start.after l.token.text.toList)]

theorem isOneToken_of_scan {l : Literal} {c : Char} {more : List Char}
    (isText : l.write = String.ofList (c :: more)) (noGap : Lexer.gapLength false (c :: more) = 0)
    (scanned : Lexer.scan c more = .ok (l.value.tokenKind, more.length)) : l.IsOneToken := by
  have isPrint : Tree.printAll [.token l.token] = l.write := rfl
  have isToken : { l.token with position := .start } = ⟨l.value.tokenKind, l.write, .start, false⟩ := rfl
  rw [IsOneToken, isPrint, isToken, show l.token.text = l.write from rfl, isText,
    Lexer.tokenize_single noGap scanned, String.toList_ofList]

theorem isOneToken_str (s : List Char) : (plain (.str (s.map ofChar))).IsOneToken :=
  isOneToken_of_scan rfl rfl (Lexer.scan_str (Lexer.quotedLength?_encode (by decide) s))

theorem isOneToken_char (c : Char) : (plain (.char (ofChar c))).IsOneToken := by
  have closes := Lexer.quotedLength?_encode (show '\'' ∈ ['"', '\''] by decide) [c]
  obtain ⟨reread, isWritten⟩ := Escape.exists_written c
  have starts := Lexer.startsCharacter_written isWritten
  rw [← List.flatMap_singleton Escape.encode] at starts
  exact isOneToken_of_scan rfl rfl (Lexer.scan_char starts closes)

/-- The quotes around a body are not read. -/
theorem decodeBody_quote {opening : List Char} {n : Nat} (isLength : opening.length = n) {closing : Char}
    {body text : List CodePoint} (isRead : Escape.decode (body.flatMap Escape.encode) = .ok text) :
    decodeBody n (quote opening closing body) = .ok text := by
  have isBody : bodyOf n (quote opening closing body) = body.flatMap Escape.encode := by
    rw [bodyOf, quote, String.toList_ofList, List.append_assoc, ← isLength, List.drop_left, List.dropLast_concat]
  rw [decodeBody, isBody, isRead]
  rfl

theorem reread_str {body text : List CodePoint}
    (isRead : Escape.decode (body.flatMap Escape.encode) = .ok text) :
    (plain (.str body)).reread = .ok (plain (.str text)) := by
  change (do pure (plain (.str (← decodeBody 1 (quote ['"'] '"' body))))) = _
  rw [decodeBody_quote (n := 1) rfl isRead]
  rfl

theorem reread_char {c : CodePoint} {text : List CodePoint}
    (isRead : Escape.decode ([c].flatMap Escape.encode) = .ok text) :
    (plain (.char c)).reread =
      match text with
      | [d] => .ok (plain (.char d))
      | _ => .error (.notOneCodePoint (plain (.char c)).write) := by
  change (do pure (plain (.char (← decodeOne 1 (quote ['\''] '\'' [c]))))) = _
  rw [decodeOne, decodeBody_quote (n := 1) rfl isRead]
  rcases text with _ | ⟨d, _ | ⟨e, later⟩⟩ <;> rfl

/-- The token of a text or of a character stands for itself in a source. A text is always read from it, and as it was
if each of its characters is shown as itself or has a number of two digits; else it is read as a longer one. A
character that is neither is not read. -/
theorem text_round_trip (s : List Char) (c : Char) :
    ((plain (.str (s.map ofChar))).IsOneToken ∧
      ((∀ d ∈ s, IsFaithful d) →
        (plain (.str (s.map ofChar))).reread = .ok (plain (.str (s.map ofChar)))) ∧
      ((∃ d ∈ s, ¬IsFaithful d) → ∃ text, s.length < text.length ∧
        (plain (.str (s.map ofChar))).reread = .ok (plain (.str text)))) ∧
    (plain (.char (ofChar c))).IsOneToken ∧
      (IsFaithful c → (plain (.char (ofChar c))).reread = .ok (plain (.char (ofChar c)))) ∧
      (¬IsFaithful c → (plain (.char (ofChar c))).reread =
        .error (.notOneCodePoint (plain (.char (ofChar c))).write)) := by
  constructor
  · obtain ⟨text, isRead, outcome⟩ := Escape.exists_decode_encode s
    refine ⟨isOneToken_str s, ?_⟩
    rcases outcome with ⟨allFaithful, rfl⟩ | ⟨⟨d, member, unfaithful⟩, longer⟩
    · refine ⟨fun _ => reread_str isRead, ?_⟩
      rintro ⟨d, member, unfaithful⟩
      exact absurd (allFaithful d member) unfaithful
    · exact ⟨fun allFaithful => absurd (allFaithful d member) unfaithful,
        fun _ => ⟨text, longer, reread_str isRead⟩⟩
  · obtain ⟨text, isRead, outcome⟩ := Escape.exists_decode_encode [c]
    have isReread := reread_char isRead
    refine ⟨isOneToken_char c, ?_⟩
    simp only [List.mem_singleton, forall_eq, exists_eq_left] at outcome
    rcases outcome with ⟨faithful, rfl⟩ | ⟨unfaithful, longer⟩
    · exact ⟨fun _ => isReread, fun unfaithful => absurd faithful unfaithful⟩
    · refine ⟨fun faithful => absurd faithful unfaithful, fun _ => ?_⟩
      match text, longer with
      | _ :: _ :: _, _ => exact isReread

/-- The space without a width is written as `\x200b`, which is read as a space, a zero and a letter. -/
theorem zeroWidthSpace_lost :
    (plain (.str [ofChar '\u200b'])).reread =
        .ok (plain (.str [ofChar ' ', ofChar '0', ofChar 'b'])) ∧
      [ofChar ' ', ofChar '0', ofChar 'b'] ≠ [ofChar '\u200b'] ∧
      (plain (.char (ofChar '\u200b'))).reread = .error (.notOneCodePoint "'\\x200b'") := by
  have isWritten : [ofChar '\u200b'].flatMap Escape.encode = ['\\', 'x', '2', '0', '0', 'b'] := by
    decide +kernel
  have isRead : Escape.decode ['\\', 'x', '2', '0', '0', 'b'] =
      .ok [ofChar ' ', ofChar '0', ofChar 'b'] := by
    have isSpace : Escape.numbered 'x' ['2', '0'] = .ok (ofChar ' ') := rfl
    rw [Escape.decode_numbered isSpace, Escape.decode_cons (by decide), Escape.decode_cons (by decide),
      Escape.decode]
    rfl
  have isText : (plain (.char (ofChar '\u200b'))).write = "'\\x200b'" := by
    decide +kernel
  rw [← isWritten] at isRead
  refine ⟨reread_str isRead, by decide, ?_⟩
  rw [reread_char isRead, isText]

end Literal

end AttrGrammar
