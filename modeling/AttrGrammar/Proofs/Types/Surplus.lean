import AttrGrammar.Proofs.Reading.Rejections
import AttrGrammar.Proofs.Types.Derivation

/-!
Contract: what can be surplus in a type.

Owns:
- the generic arguments that the reader of a path comes to;
- the surplus of a type: what stands in brackets behind an element or its length, wherever in the type they are.

What is in front of the brackets is complete: arguments and segments by their derivations, and elements as they are
read.

Does not own: what readers of types do with a surplus.
-/

namespace AttrGrammar

namespace TypeExpr

open Cursor Reader

/-! ## Arguments of paths -/

/-- Whether the reader of generic arguments comes to one: a comma is behind each of those in front of it. -/
inductive ArgumentAt : Cursor → Cursor → Prop where
  | first (c : Cursor) : ArgumentAt c c
  | behind {c d e : Cursor} (arg : Argument) (comma : TokenOf .comma)
      (inFront : c.Takes (arg.trees ++ [.token comma.1]) d) (later : ArgumentAt d e) : ArgumentAt c e

/-- Whether the reader of the segments of a path comes to a generic argument: it is one of the first segment, or of one
behind it. -/
inductive PathArgumentAt : Cursor → Cursor → Prop where
  | inside {c d e : Cursor} (name : TokenOf .ident) (left : TokenOf .langle)
      (inFront : c.Takes [.token name.1, .token left.1] d) (argument : ArgumentAt d e) : PathArgumentAt c e
  | behind {c d e : Cursor} (name : TokenOf .ident) (generics : Generics) (sep : TokenOf .pathSep)
      (inFront : c.Takes (.token name.1 :: (generics.trees ++ [.token sep.1])) d) (later : PathArgumentAt d e) :
      PathArgumentAt c e

theorem PathArgumentAt.exists_name {c e : Cursor} (argument : PathArgumentAt c e) :
    ∃ (name : TokenOf .ident) (later : List Tree), c.rest = .token name.1 :: later := by
  cases argument with
  | inside name left inFront => exact ⟨name, _, inFront.rest⟩
  | behind name generics sep inFront => exact ⟨name, _, inFront.rest⟩

/-! ## Surplus -/

/-- Whether there is a surplus at a place in the type at a cursor: in brackets there, a tree that is no semicolon
follows an element, or any tree follows its length. The brackets are the type, or its target, one of its elements or one
of its generic arguments is a type with the surplus. -/
inductive Surplus : Cursor → Position → Prop where
  | reference {c d : Cursor} {p : Position} (amp : TokenOf .amp) (lifetime : Option (TokenOf .lifetime))
      (mutability : Option (WordOf "mut"))
      (inFront : c.Takes (.token amp.1 :: (optionalTrees lifetime ++ optionalTrees mutability)) d)
      (target : Surplus d p) : Surplus c p
  | pointer {c d : Cursor} {p : Position} (star : TokenOf .star) (mode : PointerMode)
      (inFront : c.Takes [.token star.1, .token mode.token] d) (target : Surplus d p) : Surplus c p
  | tuple {c d : Cursor} {p : Position} {opening closing : Position} {inner later : List Tree}
      (rest : c.rest = .group .paren opening closing inner :: later) (item : ItemAt read (.ofTrees inner closing) d)
      (element : Surplus d p) : Surplus c p
  | brackets {c : Cursor} {p : Position} {opening closing : Position} {inner later : List Tree}
      (rest : c.rest = .group .bracket opening closing inner :: later) (element : Surplus (.ofTrees inner closing) p) :
      Surplus c p
  | path {c d e : Cursor} {p : Position} (root : Option (TokenOf .pathSep)) (inRoot : c.Takes (optionalTrees root) d)
      (starts : root = none → ∀ t later, d.rest = .token t :: later → StartsPath t.text)
      (argument : PathArgumentAt d e) (type : Surplus e p) : Surplus c p
  | behindElement {c d : Cursor} {opening closing : Position} {inner later behind : List Tree} {tree : Tree}
      {element : Spelled TypeExpr} (rest : c.rest = .group .bracket opening closing inner :: later)
      (isElement : read (.ofTrees inner closing) = .ok element d) (left : d.rest = tree :: behind)
      (notSemi : tree.isKind .semi = false) : Surplus c tree.position
  | behindLength {c d e : Cursor} {opening closing : Position} {inner later behind : List Tree} {tree : Tree}
      {element : Spelled TypeExpr} {length : Spelled (Expr Literal)} (semi : TokenOf .semi)
      (rest : c.rest = .group .bracket opening closing inner :: later)
      (isElement : read (.ofTrees inner closing) = .ok element d) (inSemi : d.Takes [.token semi.1] e)
      (f : Cursor) (isLength : Expr.read e = .ok length f) (left : f.rest = tree :: behind) :
      Surplus c tree.position

end TypeExpr

end AttrGrammar
