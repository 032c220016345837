import AttrGrammar.Proofs.Reading.Outcomes
import AttrGrammar.Proofs.Reading.Taken
import AttrGrammar.TypeExpr.Reading

/-!
Contract: the grammar of types, as derivation trees over trees of tokens.

Owns:
- the derivations, one constructor for each alternative of the grammar;
- the trees that a derivation spells, and the type that it denotes;
- what a length of an array is.

A derivation holds what its leaves are: a token of a kind, a word, a literal with its value, a length with its
expression. Nothing here refers to the order in which the alternatives are tried, or to what is looked at ahead.

Does not own: how a derivation is found.
-/

namespace AttrGrammar

namespace TypeExpr

open Reader

/-! ## Derivations -/

/-- Whether a word can start a path that has no `::` in front: it is no placeholder, and reserved for paths if it
is reserved. -/
def StartsPath (word : String) : Prop :=
  word ≠ "_" ∧ (word ∈ reservedWords → word ∈ pathWords)

theorem startsPath_iff {word : String} :
    startsPath word ↔ (word ∈ reservedWords → word ∈ pathWords) := by
  simp [startsPath, or_iff_not_imp_left]

/-- Whether trees in brackets are the length of an array: an expression is read from them, and nothing is left. -/
def IsLength (trees : List Tree) (closing : Position) (length : Expr Literal) : Prop :=
  outcome (whole Expr.read) (.ofTrees trees closing) = .ok ⟨length, trees⟩

/-- What a pointer allows: `mut | const`. -/
inductive PointerMode where
  | writes (word : WordOf "mut")
  | reads (word : WordOf "const")

mutual

/-- The derivations of types. -/
inductive Derivation where
  /-- `& [lifetime] [mut] T` -/
  | reference (amp : TokenOf .amp) (lifetime : Option (TokenOf .lifetime))
      (mutability : Option (WordOf "mut")) (target : Derivation)
  /-- `* (mut | const) T` -/
  | pointer (star : TokenOf .star) (mode : PointerMode) (target : Derivation)
  /-- `( )` -/
  | unit (opening closing : Position)
  /-- `(T)`, which is `T`. -/
  | parens (opening closing : Position) (inner : Derivation)
  /-- `(T, ... [,])` -/
  | tuple (opening closing : Position) (first : Derivation) (comma : TokenOf .comma)
      (later : Elements)
  /-- `[T]` -/
  | slice (opening closing : Position) (element : Derivation)
  /-- `[T; expr]` -/
  | array (opening closing : Position) (element : Derivation) (semi : TokenOf .semi)
      (trees : List Tree) (length : Expr Literal) (isLength : IsLength trees closing length)
  /-- `_` -/
  | infer (word : WordOf "_")
  /-- `[::] segment (:: segment)*` -/
  | path (root : Option (TokenOf .pathSep)) (name : TokenOf .ident)
      (starts : root = none → StartsPath name.1.text) (generics : Generics) (later : Segments)

/-- `[T (, T)* [,]]`, the elements of a tuple behind its first comma. -/
inductive Elements where
  | done
  | last (element : Derivation)
  | next (element : Derivation) (comma : TokenOf .comma) (later : Elements)

/-- `(:: IDENT [<arguments>])*` -/
inductive Segments where
  | done
  | next (sep : TokenOf .pathSep) (name : TokenOf .ident) (generics : Generics) (later : Segments)

/-- `[<arguments>]` -/
inductive Generics where
  | absent
  | present (left : TokenOf .langle) (args : Arguments)

/-- `[argument (, argument)* [,]] >` -/
inductive Arguments where
  | done (right : TokenOf .rangle)
  | last (arg : Argument) (right : TokenOf .rangle)
  | next (arg : Argument) (comma : TokenOf .comma) (later : Arguments)

/-- A lifetime, a literal or a type. -/
inductive Argument where
  | lifetime (t : TokenOf .lifetime)
  | literal (t : Token) (isLiteral : (Tree.token t).isLiteral) (value : Literal)
      (isValue : Literal.decode t.kind t.text = .ok value)
  | type (d : Derivation)

end

/-! ## Trees -/

def PointerMode.token : PointerMode → Token
  | writes word => word.1
  | reads word => word.1

mutual

/-- The trees that a derivation spells. -/
def Derivation.trees : Derivation → List Tree
  | .reference amp lifetime mutability target =>
      .token amp.1 :: (optionalTrees lifetime ++ (optionalTrees mutability ++ target.trees))
  | .pointer star mode target => .token star.1 :: .token mode.token :: target.trees
  | .unit opening closing => [.group .paren opening closing []]
  | .parens opening closing inner => [.group .paren opening closing inner.trees]
  | .tuple opening closing first comma later =>
      [.group .paren opening closing (first.trees ++ .token comma.1 :: later.trees)]
  | .slice opening closing element => [.group .bracket opening closing element.trees]
  | .array opening closing element semi trees _ _ =>
      [.group .bracket opening closing (element.trees ++ .token semi.1 :: trees)]
  | .infer word => [.token word.1]
  | .path root name _ generics later =>
      optionalTrees root ++ .token name.1 :: (generics.trees ++ later.trees)

def Elements.trees : Elements → List Tree
  | .done => []
  | .last element => element.trees
  | .next element comma later => element.trees ++ .token comma.1 :: later.trees

def Segments.trees : Segments → List Tree
  | .done => []
  | .next sep name generics later =>
      .token sep.1 :: .token name.1 :: (generics.trees ++ later.trees)

def Generics.trees : Generics → List Tree
  | .absent => []
  | .present left args => .token left.1 :: args.trees

def Arguments.trees : Arguments → List Tree
  | .done right => [.token right.1]
  | .last arg right => arg.trees ++ [.token right.1]
  | .next arg comma later => arg.trees ++ .token comma.1 :: later.trees

def Argument.trees : Argument → List Tree
  | .lifetime t => [.token t.1]
  | .literal t _ _ _ => [.token t]
  | .type d => d.trees

end

/-! ## Types -/

def PointerMode.isMutable : PointerMode → Bool
  | writes _ => true
  | reads _ => false

mutual

/-- The type that a derivation denotes. -/
def Derivation.type : Derivation → TypeExpr
  | .reference amp lifetime mutability target =>
      .reference (lifetime.map fun t => t.1.text) mutability.isSome target.type amp.1.position
  | .pointer star mode target => .pointer mode.isMutable target.type star.1.position
  | .unit opening _ => .tuple [] opening
  | .parens _ _ inner => inner.type
  | .tuple opening _ first _ later => .tuple (first.type :: later.types) opening
  | .slice opening _ element => .slice element.type opening
  | .array opening _ element _ _ length _ => .array element.type length opening
  | .infer word => .infer word.1.position
  | .path root name _ generics later =>
      .path root.isSome (.mk name.1.text generics.args :: later.segments)
        (root.elim name.1.position fun sep => sep.1.position)

def Elements.types : Elements → List TypeExpr
  | .done => []
  | .last element => [element.type]
  | .next element _ later => element.type :: later.types

def Segments.segments : Segments → List PathSegment
  | .done => []
  | .next _ name generics later => .mk name.1.text generics.args :: later.segments

def Generics.args : Generics → List GenericArg
  | .absent => []
  | .present _ args => args.args

def Arguments.args : Arguments → List GenericArg
  | .done _ => []
  | .last arg _ => [arg.arg]
  | .next arg _ later => arg.arg :: later.args

def Argument.arg : Argument → GenericArg
  | .lifetime t => .lifetime t.1.text
  | .literal t _ value _ => .literal value t.position
  | .type d => .type d.type

end

/-- Whether a comma stands behind the last element, or there is none. -/
def Elements.commaLast : Elements → Bool
  | .done => true
  | .last _ => false
  | .next _ _ later => later.commaLast

/-- What stands in parentheses is nothing, a type or a tuple. -/
def Elements.derivation (opening closing : Position) : Elements → Derivation
  | .done => .unit opening closing
  | .last only => .parens opening closing only
  | .next first comma later => .tuple opening closing first comma later

theorem Elements.trees_derivation (opening closing : Position) (elements : Elements) :
    (elements.derivation opening closing).trees = [.group .paren opening closing elements.trees] := by
  cases elements <;> rfl

/-! ## Lengths -/

section Lengths

variable {trees : List Tree} {closing : Position} {length : Expr Literal}

theorem isLength_iff_extent : IsLength trees closing length ↔
    trees ≠ [] ∧ Expr.extent false none trees = trees.length ∧
      Expr.ofTrees trees closing = .ok length := by
  unfold IsLength
  rw [outcome_eq_ok_iff]
  constructor
  · rintro ⟨d, isRead⟩
    exact (Expr.whole_read_eq_ok_iff.1 isRead).1
  · intro holds
    exact ⟨_, Expr.whole_read_eq_ok_iff.2 ⟨holds, rfl, Cursor.takes_skip (List.append_nil _).symm⟩⟩

/-- Trees are a length exactly if they spell an expression, where no bracket stands for itself among them. -/
theorem isLength_iff_ofTrees (plain : ∀ t ∈ Tree.leavesAll trees, t.IsPlain) :
    IsLength trees closing length ↔ Expr.ofTrees trees closing = .ok length := by
  rw [isLength_iff_extent]
  refine ⟨fun holds => holds.2.2, fun isRead => ⟨Expr.ne_nil_of_ofTrees isRead, ?_, isRead⟩⟩
  have all : Expr.extent false none (trees ++ []) = trees.length :=
    Expr.extent_of_ofTrees plain isRead trivial
  rwa [List.append_nil] at all

end Lengths

end TypeExpr

end AttrGrammar
