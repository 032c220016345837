import AttrGrammar.Proofs.Lexing.Lexed
import AttrGrammar.Literal.Decode

/-!
Contract: no literal of a source is too large for its type.

Owns:
- an integer is too large only if its text ends with the suffix of a floating point type;
- no other kind of literal is ever too large;
- a source has no integer with such a suffix: its lexer takes such a number for a floating point one.

In base sixteen the characters of such a suffix are digits, for the lexer as well as for the value.
-/

namespace AttrGrammar

namespace Literal

/-! ## Integers -/

/-- A suffix of a floating point type starts with `f`. -/
theorem exists_of_mem_floatSuffixes {suffix : List Char}
    (isSuffix : String.ofList suffix ∈ floatSuffixes) :
    ∃ width, suffix = 'f' :: width ∧ (width = ['3', '2'] ∨ width = ['6', '4']) := by
  simp only [floatSuffixes, List.mem_cons, List.not_mem_nil, or_false] at isSuffix
  rcases isSuffix with same | same
  · exact ⟨['3', '2'], String.ofList_injective same, .inl rfl⟩
  · exact ⟨['6', '4'], String.ofList_injective same, .inr rfl⟩

/-- A number has base sixteen if its mark is `x`, and else its digits and its suffix end its text. -/
theorem splitBase_cases (cs : List Char) :
    (splitBase cs).1 = 16 ∨ ['0', 'x'].isPrefixOf cs = false ∧ (splitBase cs).2 <:+ cs := by
  fun_cases splitBase cs with
  | case1 cs => exact .inl rfl
  | case2 cs => exact .inr ⟨rfl, ['0', 'o'], rfl⟩
  | case3 cs => exact .inr ⟨rfl, ['0', 'b'], rfl⟩
  | case4 cs noHex =>
      refine .inr ⟨Bool.eq_false_iff.2 fun isHex => ?_, List.suffix_refl _⟩
      obtain ⟨digits, rfl⟩ := List.isPrefixOf_iff_prefix.1 isHex
      exact noHex digits rfl

theorem mem_floatSuffixes_of_decodeInt {text : String} (tooLarge : decodeInt text = .error .tooLarge) :
    String.ofList ((splitBase text.toList).2.dropWhile (isDigitOf (splitBase text.toList).1)) ∈
      floatSuffixes := by
  unfold decodeInt at tooLarge
  dsimp only at tooLarge
  split at tooLarge
  · cases tooLarge
  split at tooLarge
  · cases tooLarge
  split at tooLarge
  · assumption
  · cases tooLarge

/-- A text that ends, behind its digits, with the suffix of a floating point type has one for the lexer too. -/
theorem hasFloatSuffix_of_mem {text : List Char}
    (isFloat : String.ofList ((splitBase text).2.dropWhile (isDigitOf (splitBase text).1)) ∈ floatSuffixes) :
    Lexer.hasFloatSuffix text := by
  obtain ⟨width, shape, isWidth⟩ := exists_of_mem_floatSuffixes isFloat
  rcases splitBase_cases text with hex | ⟨notHex, ends⟩
  · -- The first character that is no digit cannot be `f`.
    rw [hex] at shape
    have stopped : isDigitOf 16 'f' = false := by
      have first := List.head?_dropWhile_not (isDigitOf 16) (splitBase text).2
      rwa [shape] at first
    exact absurd stopped (by decide)
  · have suffixed : 'f' :: width <:+ text := by
      rw [← shape]
      exact (List.dropWhile_suffix _).trans ends
    rw [Lexer.hasFloatSuffix, notHex]
    rcases isWidth with rfl | rfl
    · simp [List.isSuffixOf_iff_suffix.2 suffixed]
    · simp [List.isSuffixOf_iff_suffix.2 suffixed]

/-! ## All kinds -/

theorem bind_ne_tooLarge {α β : Type} {r : Except LiteralFault α} {k : α → Except LiteralFault β}
    (fits : r ≠ .error .tooLarge) (fitsBehind : ∀ a, k a ≠ .error .tooLarge) :
    (r >>= k) ≠ .error .tooLarge := by
  cases r with
  | ok a => exact fitsBehind a
  | error fault => exact fun same => fits (congrArg Except.error (Except.error.inj same))

theorem decodeBody_ne_tooLarge (opening : Nat) (text : String) :
    decodeBody opening text ≠ .error .tooLarge := by
  unfold decodeBody
  cases Escape.decode (bodyOf opening text) with
  | ok body => exact nofun
  | error fault => exact nofun

theorem decodeOne_ne_tooLarge (opening : Nat) (text : String) :
    decodeOne opening text ≠ .error .tooLarge := by
  refine bind_ne_tooLarge (decodeBody_ne_tooLarge opening text) fun cs => ?_
  split <;> exact nofun

theorem decodeFloat_ne_tooLarge (text : String) : decodeFloat text ≠ .error .tooLarge := by
  unfold decodeFloat
  dsimp only
  split <;> exact nofun

/-- Of all literals, only integers can be too large. -/
theorem kind_of_tooLarge {kind : TokenKind} {text : String}
    (tooLarge : decode kind text = .error .tooLarge) :
    kind = .int ∧ decodeInt text = .error .tooLarge := by
  unfold decode at tooLarge
  split at tooLarge
  case h_1 => exact ⟨rfl, tooLarge⟩
  case h_2 => exact absurd tooLarge (decodeFloat_ne_tooLarge text)
  case h_3 => exact absurd tooLarge (bind_ne_tooLarge (decodeBody_ne_tooLarge 1 text) fun _ => nofun)
  case h_4 =>
      refine absurd tooLarge (bind_ne_tooLarge (decodeBody_ne_tooLarge 2 text) fun body => ?_)
      refine bind_ne_tooLarge ?_ fun _ => nofun
      unfold toBytes
      split <;> exact nofun
  case h_5 => exact absurd tooLarge (bind_ne_tooLarge (decodeOne_ne_tooLarge 1 text) fun _ => nofun)
  case h_6 =>
      refine absurd tooLarge (bind_ne_tooLarge (decodeOne_ne_tooLarge 2 text) fun c => ?_)
      split <;> exact nofun
  case h_7 =>
      split at tooLarge
      · cases tooLarge
      split at tooLarge <;> cases tooLarge
  case h_8 => cases tooLarge

end Literal

/-! ## Sources -/

namespace Lexer

/-- An integer of a source has no suffix of a floating point type. -/
theorem hasFloatSuffix_of_scan {c : Char} {more : List Char} {length : Nat}
    (scanned : scan c more = .ok (.int, length)) :
    hasFloatSuffix (c :: more.take length) = false := by
  rcases scan_kind scanned with isWord | ⟨-, -, isNumber⟩ | spelled
  · simp [wordKinds] at isWord
  · unfold scanNumber at isNumber
    dsimp only at isNumber
    obtain ⟨isInt, rfl⟩ := Prod.mk.inj isNumber
    cases suffix : hasFloatSuffix (c :: more.take
        ((digitsLength c more).1 + runLength continuesWord (more.drop (digitsLength c more).1))) with
    | false => rfl
    | true =>
        rw [suffix, Bool.or_true] at isInt
        cases isInt
  · cases spelled

end Lexer

theorem Literal.decode_ne_tooLarge_of_scan {c : Char} {more : List Char} {kind : TokenKind}
    {length : Nat} (scanned : Lexer.scan c more = .ok (kind, length)) :
    Literal.decode kind (String.ofList (c :: more.take length)) ≠ .error .tooLarge := by
  intro tooLarge
  obtain ⟨rfl, tooLargeInt⟩ := Literal.kind_of_tooLarge tooLarge
  have suffix := Literal.hasFloatSuffix_of_mem (Literal.mem_floatSuffixes_of_decodeInt tooLargeInt)
  rw [String.toList_ofList, Lexer.hasFloatSuffix_of_scan scanned] at suffix
  cases suffix

end AttrGrammar
