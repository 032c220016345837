import AttrGrammar.Proofs.Literal.Digits
import AttrGrammar.Proofs.Printing.Rescan
import Mathlib.Data.List.Forall2

/-!
Contract: the numerals of base sixteen as they are read leniently.

Owns:
- the numerals by their parts: blanks around, a sign, the mark of the base, and the digits;
- that reading a numeral takes it apart in this way and in no other.

A numeral is taken apart in its plain form, in which the decimal digits of all scripts are those of ASCII.
-/

namespace AttrGrammar

namespace Text

/-- The signs of numerals, each with whether it is a minus. -/
def signs : List (Bool × List Char) :=
  [(false, []), (false, ['+']), (true, ['-'])]

/-- The marks of base sixteen. -/
def hexMarks : List (List Char) :=
  [[], ['0', 'x'], ['0', 'X']]

/-- Whether characters in plain form are a numeral of base sixteen with digits of some values, and with a minus or not.
Only the digits have to be there. -/
inductive IsNumeral (negative : Bool) (values : List Nat) : List Char → Prop where
  | intro {front sign mark digits back : List Char} (blankFront : ∀ c ∈ front, isAsciiBlank c)
      (isSign : (negative, sign) ∈ signs) (isMark : mark ∈ hexMarks)
      (areDigits : List.Forall₂ (IsDigit 16) digits values) (notEmpty : digits ≠ [])
      (blankBack : ∀ c ∈ back, isAsciiBlank c) :
      IsNumeral negative values (front ++ (sign ++ (mark ++ digits)) ++ back)

/-- The integer that a numeral denotes. -/
def signed (negative : Bool) (values : List Nat) : Int :=
  let magnitude : Int := (Nat.ofDigits 16 values.reverse : Nat)
  if negative then -magnitude else magnitude

/-! ## Parts -/

section Parts

variable {c : Char} {value : Nat} {cs digits : List Char} {values : List Nat}

/-- A digit is none of the other characters of a numeral. -/
theorem not_other_of_isDigit (isDigit : IsDigit 16 c value) :
    isAsciiBlank c = false ∧ c ∉ ['+', '-', 'x', 'X'] := by
  have checked : !isAsciiBlank c && decide (c ∉ ['+', '-', 'x', 'X']) :=
    Literal.of_isDigitOf (p := fun c => !isAsciiBlank c && decide (c ∉ ['+', '-', 'x', 'X'])) (Nat.le_refl 16)
      (by decide) ((Literal.isDigitOf_iff (Nat.le_refl 16)).2 (.inr ⟨value, isDigit⟩))
  simpa using checked

theorem mapM_hexValue?_iff : digits.mapM hexValue? = some values ↔ List.Forall₂ (IsDigit 16) digits values := by
  induction digits generalizing values with
  | nil => cases values <;> simp
  | cons c cs inductionHypothesis =>
      rw [List.mapM_cons, List.forall₂_cons_left_iff]
      simp only [Option.bind_eq_bind, Option.bind_eq_some_iff, hexValue?_eq_some_iff, ← inductionHypothesis]
      constructor
      · rintro ⟨value, isValue, later, areValues, same⟩
        exact ⟨value, later, isValue, areValues, (Option.some.inj same).symm⟩
      · rintro ⟨value, later, isValue, areValues, rfl⟩
        exact ⟨value, isValue, later, areValues, rfl⟩

theorem exists_value_of_mem (areDigits : List.Forall₂ (IsDigit 16) digits values) (member : c ∈ digits) :
    ∃ value, IsDigit 16 c value := by
  induction areDigits with
  | nil => cases member
  | cons isDigit _ inductionHypothesis =>
      rcases List.mem_cons.1 member with rfl | behind
      · exact ⟨_, isDigit⟩
      · exact inductionHypothesis behind

theorem exists_sign (cs : List Char) :
    ∃ sign, ((splitSign cs).1, sign) ∈ signs ∧ cs = sign ++ (splitSign cs).2 := by
  fun_cases splitSign cs with
  | case1 cs => exact ⟨['-'], by simp [signs], rfl⟩
  | case2 cs => exact ⟨['+'], by simp [signs], rfl⟩
  | case3 cs => exact ⟨[], by simp [signs], rfl⟩

theorem exists_hexMark (cs : List Char) : ∃ mark ∈ hexMarks, cs = mark ++ dropHexMark cs := by
  fun_cases dropHexMark cs with
  | case1 cs => exact ⟨['0', 'x'], by simp [hexMarks], rfl⟩
  | case2 cs => exact ⟨['0', 'X'], by simp [hexMarks], rfl⟩
  | case3 cs => exact ⟨[], by simp [hexMarks], rfl⟩

/-- Blanks stand in front of a numeral and behind it. -/
theorem exists_blanks (cs : List Char) :
    ∃ front back, cs.map plainChar = front ++ plainNumeral cs ++ back ∧ (∀ c ∈ front, isAsciiBlank c) ∧
      ∀ c ∈ back, isAsciiBlank c := by
  generalize isPlain : cs.map plainChar = plain
  generalize isBehind : plain.dropWhile isAsciiBlank = behind
  refine ⟨plain.takeWhile isAsciiBlank, (behind.reverse.takeWhile isAsciiBlank).reverse, ?_,
    List.all_eq_true.1 List.all_takeWhile, fun c member => ?_⟩
  · rw [plainNumeral, isPlain, isBehind, List.append_assoc, ← List.reverse_append, List.takeWhile_append_dropWhile,
      List.reverse_reverse, ← isBehind, List.takeWhile_append_dropWhile]
  · exact List.all_eq_true.1 List.all_takeWhile c (List.mem_reverse.1 member)

end Parts

/-! ## Numerals -/

section Numerals

variable {negative : Bool} {values : List Nat} {cs sign mark digits : List Char}

/-- Neither the sign of a numeral nor its mark has a blank in it. -/
theorem noBlank_of_parts (isSign : (negative, sign) ∈ signs) (isMark : mark ∈ hexMarks)
    (areDigits : List.Forall₂ (IsDigit 16) digits values) :
    ∀ c ∈ sign ++ (mark ++ digits), isAsciiBlank c = false := by
  intro c member
  rcases List.mem_append.1 member with inSign | behind
  · have none : signs.all (·.2.all fun c => !isAsciiBlank c) = true := by decide
    simpa using List.all_eq_true.1 (List.all_eq_true.1 none _ isSign) c inSign
  rcases List.mem_append.1 behind with inMark | inside
  · have none : hexMarks.all (·.all fun c => !isAsciiBlank c) = true := by decide
    simpa using List.all_eq_true.1 (List.all_eq_true.1 none mark isMark) c inMark
  · obtain ⟨value, isDigit⟩ := exists_value_of_mem areDigits inside
    exact (not_other_of_isDigit isDigit).1

/-- Neither the mark of a numeral nor its digits have a sign in them. -/
theorem noSign_of_parts (isMark : mark ∈ hexMarks) (areDigits : List.Forall₂ (IsDigit 16) digits values) :
    ∀ c ∈ mark ++ digits, c ∉ ['+', '-'] := by
  intro c member isSign
  rcases List.mem_append.1 member with inMark | inside
  · have none : hexMarks.all (·.all (· ∉ ['+', '-'])) = true := by decide
    exact of_decide_eq_true (List.all_eq_true.1 (List.all_eq_true.1 none mark isMark) c inMark) isSign
  · obtain ⟨value, isDigit⟩ := exists_value_of_mem areDigits inside
    exact (not_other_of_isDigit isDigit).2 (List.mem_append_left ['x', 'X'] isSign)

theorem splitSign_eq (isSign : (negative, sign) ∈ signs) (noSign : ∀ c ∈ cs, c ∉ ['+', '-']) :
    splitSign (sign ++ cs) = (negative, cs) := by
  simp only [signs, List.mem_cons, Prod.mk.injEq, List.not_mem_nil, or_false] at isSign
  rcases isSign with ⟨rfl, rfl⟩ | ⟨rfl, rfl⟩ | ⟨rfl, rfl⟩
  · rw [List.nil_append]
    fun_cases splitSign cs with
    | case1 => exact absurd (by decide) (noSign '-' List.mem_cons_self)
    | case2 => exact absurd (by decide) (noSign '+' List.mem_cons_self)
    | case3 => rfl
  · rfl
  · rfl

theorem dropHexMark_eq (isMark : mark ∈ hexMarks) (areDigits : List.Forall₂ (IsDigit 16) digits values) :
    dropHexMark (mark ++ digits) = digits := by
  have noMark (c : Char) (member : c ∈ digits) : c ∉ ['x', 'X'] := fun isLetter => by
    obtain ⟨value, isDigit⟩ := exists_value_of_mem areDigits member
    exact (not_other_of_isDigit isDigit).2 (List.mem_append_right ['+', '-'] isLetter)
  simp only [hexMarks, List.mem_cons, List.not_mem_nil, or_false] at isMark
  rcases isMark with rfl | rfl | rfl
  · rw [List.nil_append]
    fun_cases dropHexMark digits with
    | case1 => exact absurd (by decide) (noMark 'x' (by simp))
    | case2 => exact absurd (by decide) (noMark 'X' (by simp))
    | case3 => rfl
  · rfl
  · rfl

/-- The blanks around a text without blanks are dropped. -/
theorem plainNumeral_eq {front core back : List Char} (plain : cs.map plainChar = front ++ core ++ back)
    (blankFront : ∀ c ∈ front, isAsciiBlank c) (blankBack : ∀ c ∈ back, isAsciiBlank c) (notEmpty : core ≠ [])
    (noBlank : ∀ c ∈ core, isAsciiBlank c = false) : plainNumeral cs = core := by
  have starts : ∀ c ∈ (core ++ back).head?, isAsciiBlank c = false := by
    intro c isHead
    rw [List.head?_append_of_ne_nil core notEmpty] at isHead
    exact noBlank c (List.mem_of_mem_head? isHead)
  have ends : ∀ c ∈ core.reverse.head?, isAsciiBlank c = false := by
    intro c isHead
    exact noBlank c (List.mem_reverse.1 (List.mem_of_mem_head? isHead))
  have blankReverse : ∀ c ∈ back.reverse, isAsciiBlank c := fun c member => blankBack c (List.mem_reverse.1 member)
  rw [plainNumeral, plain, List.append_assoc, Lexer.dropWhile_append blankFront starts, List.reverse_append,
    Lexer.dropWhile_append blankReverse ends, List.reverse_reverse]

/-- Reading a numeral finds its parts. -/
theorem hexInteger?_eq_some_iff {z : Int} :
    hexInteger? cs = some z ↔ ∃ negative values, IsNumeral negative values (cs.map plainChar) ∧
      signed negative values = z := by
  constructor
  · intro isInteger
    obtain ⟨front, back, plain, blankFront, blankBack⟩ := exists_blanks cs
    obtain ⟨sign, isSign, isCore⟩ := exists_sign (plainNumeral cs)
    obtain ⟨mark, isMark, isBody⟩ := exists_hexMark (splitSign (plainNumeral cs)).2
    unfold hexInteger? at isInteger
    dsimp only at isInteger
    split at isInteger
    · cases isInteger
    rename_i notEmpty
    obtain ⟨values, areValues, same⟩ := Option.map_eq_some_iff.1 isInteger
    refine ⟨(splitSign (plainNumeral cs)).1, values, ?_, ?_⟩
    · have parts : cs.map plainChar =
          front ++ (sign ++ (mark ++ dropHexMark (splitSign (plainNumeral cs)).2)) ++ back := by
        rw [← isBody, ← isCore, plain]
      rw [parts]
      exact .intro blankFront isSign isMark (mapM_hexValue?_iff.1 areValues) notEmpty blankBack
    · rw [← same, ofDigits_eq]
      rfl
  · rintro ⟨negative, values, isNumeral, rfl⟩
    generalize isPlain : cs.map plainChar = plain at isNumeral
    cases isNumeral with
    | @intro front sign mark digits back blankFront isSign isMark areDigits notEmpty blankBack =>
        have isCore := plainNumeral_eq isPlain blankFront blankBack (by simp [notEmpty])
          (noBlank_of_parts isSign isMark areDigits)
        unfold hexInteger?
        rw [isCore, splitSign_eq isSign (noSign_of_parts isMark areDigits)]
        dsimp only
        rw [dropHexMark_eq isMark areDigits]
        split
        · exact absurd rfl notEmpty
        · rw [mapM_hexValue?_iff.2 areDigits, Option.map_some, ofDigits_eq]
          rfl

end Numerals

end Text

end AttrGrammar
