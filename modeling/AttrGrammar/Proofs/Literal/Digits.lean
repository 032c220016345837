import AttrGrammar.Literal.Decode
import Mathlib.Data.Nat.Digits.Defs

/-!
Contract: the digits of a base, and the numbers that lists of them denote.

Owns:
- the characters that are digits of a base, and the values that they have;
- digits with underscores among them, as a relation;
- that reading digits computes the relation, and the positional value of the digits.
-/

namespace AttrGrammar

namespace Text

/-- Whether a character is the digit with some value in a base: letters count from ten on, in either case. -/
def IsDigit (base : Nat) (c : Char) (value : Nat) : Prop :=
  value < base ∧ (c = Nat.digitChar value ∨ c = (Nat.digitChar value).toUpper)

/-- Whether characters are digits of a base, with underscores anywhere among them, and the values of the digits. -/
inductive SpellsDigits (base : Nat) : List Char → List Nat → Prop where
  | nil : SpellsDigits base [] []
  | underscore {cs : List Char} {values : List Nat} (rest : SpellsDigits base cs values) :
      SpellsDigits base ('_' :: cs) values
  | digit {c : Char} {value : Nat} {cs : List Char} {values : List Nat} (isDigit : IsDigit base c value)
      (rest : SpellsDigits base cs values) : SpellsDigits base (c :: cs) (value :: values)

/-! ## Values -/

/-- Only characters up to the letter `f` have a value. -/
theorem toNat_le_of_hexValue? {c : Char} {value : Nat} (isValue : hexValue? c = some value) :
    c.toNat ≤ 'f'.toNat := by
  unfold hexValue? at isValue
  split at isValue
  · rename_i bounds
    exact Nat.le_trans bounds.2 (by decide)
  split at isValue
  · rename_i bounds
    exact bounds.2
  split at isValue
  · rename_i bounds
    exact Nat.le_trans bounds.2 (by decide)
  · cases isValue

theorem isDigit_of_hexValue? {c : Char} {value : Nat} (isValue : hexValue? c = some value) : IsDigit 16 c value := by
  have table : ∀ code : Fin 103, ∀ value ∈ hexValue? (Char.ofNat code), value < 16 ∧
      (Char.ofNat code = Nat.digitChar value ∨ Char.ofNat code = (Nat.digitChar value).toUpper) := by
    decide
  have bound : c.toNat < 103 := Nat.lt_succ_of_le (toNat_le_of_hexValue? isValue)
  have entry := table ⟨c.toNat, bound⟩ value
  rw [Char.ofNat_toNat] at entry
  exact entry isValue

theorem hexValue?_digit : ∀ value < 16, hexValue? (Nat.digitChar value) = some value ∧
    hexValue? (Nat.digitChar value).toUpper = some value := by
  decide

theorem isDigit_iff {base : Nat} (small : base ≤ 16) {c : Char} {value : Nat} :
    IsDigit base c value ↔ hexValue? c = some value ∧ value < base := by
  constructor
  · rintro ⟨below, rfl | rfl⟩
    · exact ⟨(hexValue?_digit value (by omega)).1, below⟩
    · exact ⟨(hexValue?_digit value (by omega)).2, below⟩
  · rintro ⟨isValue, below⟩
    exact ⟨below, (isDigit_of_hexValue? isValue).2⟩

theorem hexValue?_eq_some_iff {c : Char} {value : Nat} : hexValue? c = some value ↔ IsDigit 16 c value :=
  ⟨isDigit_of_hexValue?, fun isDigit => ((isDigit_iff (Nat.le_refl 16)).1 isDigit).1⟩

theorem ofDigits_eq (base : Nat) (values : List Nat) : ofDigits base values = Nat.ofDigits base values.reverse := by
  rw [ofDigits, Nat.ofDigits_eq_foldr, List.foldr_reverse]
  simp only [Nat.cast_id, add_comm, mul_comm]

end Text

/-! ## Lists of digits -/

namespace Literal

open Text

variable {base : Nat} {cs : List Char} {values : List Nat}

theorem isDigitOf_iff (small : base ≤ 16) {c : Char} :
    isDigitOf base c ↔ c = '_' ∨ ∃ value, IsDigit base c value := by
  simp only [isDigitOf, isDigit_iff small, Bool.or_eq_true, decide_eq_true_eq, Option.any_eq_true]

/-- A check of the characters up to `f` is one of all that can stand among digits. -/
theorem of_isDigitOf {p : Char → Bool} (small : base ≤ 16)
    (table : ∀ code : Fin 103, isDigitOf base (Char.ofNat code) → p (Char.ofNat code)) {c : Char}
    (isDigit : isDigitOf base c) : p c := by
  have bound : c.toNat < 103 := by
    rcases (isDigitOf_iff small).1 isDigit with rfl | ⟨value, isValue⟩
    · decide
    · exact Nat.lt_succ_of_le (toNat_le_of_hexValue? ((isDigit_iff small).1 isValue).1)
  have entry := table ⟨c.toNat, bound⟩
  rw [Char.ofNat_toNat] at entry
  exact entry isDigit

/-- Digits are read as what they spell. -/
theorem spellsDigits_iff (small : base ≤ 16) :
    SpellsDigits base cs values ↔ (∀ c ∈ cs, isDigitOf base c) ∧ cs.filterMap hexValue? = values := by
  constructor
  · intro spells
    induction spells with
    | nil => simp
    | underscore _ inductionHypothesis =>
        obtain ⟨areDigits, rfl⟩ := inductionHypothesis
        exact ⟨List.forall_mem_cons.2 ⟨(isDigitOf_iff small).2 (.inl rfl), areDigits⟩, rfl⟩
    | digit isDigit _ inductionHypothesis =>
        obtain ⟨areDigits, rfl⟩ := inductionHypothesis
        refine ⟨List.forall_mem_cons.2 ⟨(isDigitOf_iff small).2 (.inr ⟨_, isDigit⟩), areDigits⟩, ?_⟩
        rw [List.filterMap_cons, ((isDigit_iff small).1 isDigit).1]
  · rintro ⟨areDigits, rfl⟩
    induction cs with
    | nil => exact .nil
    | cons c cs inductionHypothesis =>
        obtain ⟨here, behind⟩ := List.forall_mem_cons.1 areDigits
        rcases (isDigitOf_iff small).1 here with rfl | ⟨value, isDigit⟩
        · exact .underscore (inductionHypothesis behind)
        · rw [List.filterMap_cons, ((isDigit_iff small).1 isDigit).1]
          exact .digit isDigit (inductionHypothesis behind)

end Literal

end AttrGrammar
