import AttrGrammar.Expr
import AttrGrammar.Literal

/-!
Contract: types.

Owns:
- the type trees, with paths whose segments have generic arguments;
- where a type stands;
- equality of types, for which places do not count.
-/

namespace AttrGrammar

mutual

inductive TypeExpr where
  | path (rooted : Bool) (segments : List PathSegment) (position : Position)
  | reference (lifetime : Option String) (isMutable : Bool) (target : TypeExpr)
      (position : Position)
  | pointer (isMutable : Bool) (target : TypeExpr) (position : Position)
  | array (element : TypeExpr) (length : Expr Literal) (position : Position)
  | slice (element : TypeExpr) (position : Position)
  | tuple (elements : List TypeExpr) (position : Position)
  | infer (position : Position)

inductive PathSegment where
  | mk (name : String) (args : List GenericArg)

inductive GenericArg where
  | type (type : TypeExpr)
  | lifetime (name : String)
  | literal (value : Literal) (position : Position)

end

namespace PathSegment

def name : PathSegment → String
  | mk name _ => name

def args : PathSegment → List GenericArg
  | mk _ args => args

end PathSegment

namespace TypeExpr

def position : TypeExpr → Position
  | path _ _ position => position
  | reference _ _ _ position => position
  | pointer _ _ position => position
  | array _ _ position => position
  | slice _ position => position
  | tuple _ position => position
  | infer position => position

/-- The name of a path, without generic arguments. -/
def pathText (segments : List PathSegment) : String :=
  "::".intercalate (segments.map PathSegment.name)

mutual

def same : TypeExpr → TypeExpr → Bool
  | path r as _, path s bs _ => r = s && sameSegments as bs
  | reference l m a _, reference l' m' b _ => l = l' && m = m' && same a b
  | pointer m a _, pointer m' b _ => m = m' && same a b
  | array a n _, array b n' _ => same a b && n.same Literal.same n'
  | slice a _, slice b _ => same a b
  | tuple as _, tuple bs _ => sameAll as bs
  | infer _, infer _ => true
  | _, _ => false

def sameAll : List TypeExpr → List TypeExpr → Bool
  | [], [] => true
  | a :: as, b :: bs => same a b && sameAll as bs
  | _, _ => false

def sameSegments : List PathSegment → List PathSegment → Bool
  | [], [] => true
  | .mk m as :: later, .mk n bs :: later' => m = n && sameArgs as bs && sameSegments later later'
  | _, _ => false

/-- Equality of generic arguments. -/
def sameArgs : List GenericArg → List GenericArg → Bool
  | [], [] => true
  | .type a :: later, .type b :: later' => same a b && sameArgs later later'
  | .lifetime a :: later, .lifetime b :: later' => a = b && sameArgs later later'
  | .literal a _ :: later, .literal b _ :: later' => a.same b && sameArgs later later'
  | _, _ => false

end

end TypeExpr

end AttrGrammar
