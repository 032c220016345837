import AttrGrammar.Expr
import AttrGrammar.Tree

/-!
Contract: the terminals of the expression grammar, made of tokens.

Owns:
- the symbols: token kinds, with the words `as`, `true` and `false` set apart, and the shift to the right,
  which is two joint tokens;
- the sequence of terminals for a sequence of tokens;
- the operators that symbols stand for.
-/

namespace AttrGrammar

inductive Symbol where
  | token (kind : TokenKind)
  | boolean
  | asWord
  | shiftRight
deriving DecidableEq, Repr

namespace Symbol

/-- What messages call a symbol. -/
def description : Symbol → String
  | token kind => kind.description
  | boolean => "`true` or `false`"
  | asWord => "`as`"
  | shiftRight => "`>>`"

def ofToken (t : Token) : Symbol :=
  if t.kind = .ident then
    if t.text = "as" then asWord
    else if t.text = "true" ∨ t.text = "false" then boolean
    else token .ident
  else token t.kind

/-- The kind of token that a symbol is, the shift to the right aside. -/
def tokenKind : Symbol → TokenKind
  | token kind => kind
  | boolean => .ident
  | asWord => .ident
  | shiftRight => .rangle

def isLiteral : Symbol → Bool
  | token kind => kind.isLiteral
  | boolean => true
  | _ => false

/-- The binary operator that a symbol stands for behind an operand. -/
def binaryOp? : Symbol → Option BinaryOp
  | token .orOr => some .or
  | token .andAnd => some .and
  | token .eqEq => some .eq
  | token .notEq => some .ne
  | token .langle => some .lt
  | token .rangle => some .gt
  | token .lessEq => some .le
  | token .greaterEq => some .ge
  | token .pipe => some .bitOr
  | token .caret => some .bitXor
  | token .amp => some .bitAnd
  | token .shiftLeft => some .shl
  | shiftRight => some .shr
  | token .plus => some .add
  | token .minus => some .sub
  | token .star => some .mul
  | token .slash => some .div
  | token .percent => some .rem
  | _ => none

/-- The unary operator that a symbol stands for in front of an operand. -/
def unaryOp? : Symbol → Option UnaryOp
  | token .minus => some .neg
  | token .bang => some .not
  | token .star => some .deref
  | token .amp => some .ref
  | _ => none

end Symbol

/-- A terminal: its symbol, its text and its place. -/
structure Terminal where
  symbol : Symbol
  text : String
  position : Position
deriving DecidableEq, Repr

namespace Terminal

def ofToken (t : Token) : Terminal :=
  ⟨.ofToken t, t.text, t.position⟩

theorem tokenKind_ofToken (t : Token) : (ofToken t).symbol.tokenKind = t.kind := by
  rw [ofToken, Symbol.ofToken]
  split
  · rename_i isIdent
    rw [isIdent]
    split
    · rfl
    split <;> rfl
  · rfl

/-- The terminals of tokens: a joint `>` with the `>` behind it is a shift to the right. -/
def ofTokens : List Token → List Terminal
  | t :: u :: later =>
      if t.kind = .rangle && t.joint && u.kind = .rangle then
        ⟨.shiftRight, ">>", t.position⟩ :: ofTokens later
      else ofToken t :: ofTokens (u :: later)
  | [t] => [ofToken t]
  | [] => []

/-- A token that is no `>` is a terminal by itself. -/
theorem ofTokens_cons (t : Token) (later : List Token) (other : t.kind ≠ .rangle) :
    ofTokens (t :: later) = ofToken t :: ofTokens later := by
  cases later with
  | nil => rfl
  | cons u later => rw [ofTokens, if_neg (by simp [other])]

theorem ofTokens_append_cons (front : List Token) {t : Token} (later : List Token)
    (other : t.kind ≠ .rangle) :
    ofTokens (front ++ t :: later) = ofTokens front ++ ofToken t :: ofTokens later := by
  fun_induction ofTokens front with
  | case1 u v behind isShift inductionHypothesis =>
      rw [List.cons_append, List.cons_append, ofTokens, if_pos isShift, inductionHypothesis]
      rfl
  | case2 u v behind notShift inductionHypothesis =>
      rw [List.cons_append, List.cons_append, ofTokens, if_neg notShift, ← List.cons_append,
        inductionHypothesis]
      rfl
  | case3 u =>
      rw [List.singleton_append, ofTokens, if_neg (by simp [other]), ofTokens_cons t later other]
      rfl
  | case4 => exact ofTokens_cons t later other

/-- The terminals of trees, their brackets included. -/
def ofTrees (trees : List Tree) : List Terminal :=
  ofTokens (Tree.flattenAll trees)

end Terminal

end AttrGrammar
