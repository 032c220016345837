import AttrGrammar.Token
import AttrGrammar.Unicode.Digits

/-!
Contract: expressions.

Owns:
- names, operators with their binding strength, and the expression trees;
- where an expression counts as standing in the source;
- equality of expressions, for which places do not count.

The trees are generic in their literals: the parser makes trees over literal tokens, and their values are
filled in afterwards. Places are kept in names and literals alone, and every other expression stands where its
leading part does.
-/

namespace AttrGrammar

/-- A name of one or more segments, with the place of the first one. -/
structure NamePath where
  head : String
  tail : List String
  position : Position
deriving DecidableEq, Repr

namespace NamePath

def segments (p : NamePath) : List String :=
  p.head :: p.tail

/-- A name as it is written. -/
def text (p : NamePath) : String :=
  "::".intercalate p.segments

def push (p : NamePath) (segment : String) : NamePath :=
  ⟨p.head, p.tail ++ [segment], p.position⟩

def same (p q : NamePath) : Bool :=
  p.segments = q.segments

end NamePath

inductive BinaryOp where
  | or
  | and
  | eq
  | ne
  | lt
  | gt
  | le
  | ge
  | bitOr
  | bitXor
  | bitAnd
  | shl
  | shr
  | add
  | sub
  | mul
  | div
  | rem
deriving DecidableEq, Repr

namespace BinaryOp

/-- How an operator is written. -/
def text : BinaryOp → String
  | or => "||"
  | and => "&&"
  | eq => "=="
  | ne => "!="
  | lt => "<"
  | gt => ">"
  | le => "<="
  | ge => ">="
  | bitOr => "|"
  | bitXor => "^"
  | bitAnd => "&"
  | shl => "<<"
  | shr => ">>"
  | add => "+"
  | sub => "-"
  | mul => "*"
  | div => "/"
  | rem => "%"

/-- How strongly an operator binds. -/
def level : BinaryOp → Nat
  | or => 1
  | and => 2
  | eq | ne | lt | gt | le | ge => 3
  | bitOr => 4
  | bitXor => 5
  | bitAnd => 6
  | shl | shr => 7
  | add | sub => 8
  | mul | div | rem => 9

/-- The level of the comparisons, which do not chain. -/
def comparisonLevel : Nat := 3

def isComparison (op : BinaryOp) : Bool :=
  op.level = comparisonLevel

end BinaryOp

/-- How strongly casts bind: more than all binary operators, and less than the unary ones. -/
def castLevel : Nat := 10

inductive UnaryOp where
  | neg
  | not
  | deref
  | ref
deriving DecidableEq, Repr

/-- How an operator is written. -/
def UnaryOp.text : UnaryOp → String
  | neg => "-"
  | not => "!"
  | deref => "*"
  | ref => "&"

/-- A parameter of a closure, with its type if that is given. -/
structure ClosureParam where
  name : String
  type : Option NamePath
deriving DecidableEq, Repr

def ClosureParam.same (p q : ClosureParam) : Bool :=
  p.name = q.name &&
    match p.type, q.type with
    | none, none => true
    | some left, some right => left.same right
    | _, _ => false

inductive Expr (α : Type) where
  | literal (value : α) (position : Position)
  | path (name : NamePath)
  | binary (op : BinaryOp) (left right : Expr α)
  | unary (op : UnaryOp) (operand : Expr α)
  | call (callee : Expr α) (args : List (Expr α))
  | methodCall (receiver : Expr α) (method : String) (args : List (Expr α))
  | field (object : Expr α) (name : String)
  | index (object position : Expr α)
  | propagate (operand : Expr α)
  | cast (operand : Expr α) (target : NamePath)
  | tuple (elements : List (Expr α))
  | array (elements : List (Expr α))
  | fill (value count : Expr α)
  | closure (params : List ClosureParam) (body : Expr α)
  | invocation (name : NamePath) (args : List (Expr α))
deriving Repr

namespace Expr

/-- Where an expression stands: where its first name or literal does. Arrays and the empty tuple have no place
of their own. -/
def position {α : Type} : Expr α → Position
  | literal _ position => position
  | path name => name.position
  | binary _ left _ => left.position
  | unary _ operand => operand.position
  | call callee _ => callee.position
  | methodCall receiver _ _ => receiver.position
  | field object _ => object.position
  | index object _ => object.position
  | propagate operand => operand.position
  | cast operand _ => operand.position
  | tuple [] => .nowhere
  | tuple (first :: _) => first.position
  | array _ => .nowhere
  | fill value _ => value.position
  | closure _ body => body.position
  | invocation name _ => name.position

/-- Whether a field is a place in a tuple, that is, whether its name is one or more digits. -/
def isTupleField (name : String) : Bool :=
  !name.isEmpty && name.toList.all Unicode.isDigit

/-- A call of an expression. Calling a field that is not a place in a tuple is a method call. -/
def applied {α : Type} (callee : Expr α) (args : List (Expr α)) : Expr α :=
  match callee with
  | field object name => if isTupleField name then call callee args else methodCall object name args
  | _ => call callee args

mutual

/-- Equality of expressions, places aside, given equality of their literals. -/
def same {α : Type} (sameLiteral : α → α → Bool) : Expr α → Expr α → Bool
  | literal a _, literal b _ => sameLiteral a b
  | path p, path q => p.same q
  | binary op a b, binary op' a' b' => op = op' && same sameLiteral a a' && same sameLiteral b b'
  | unary op a, unary op' a' => op = op' && same sameLiteral a a'
  | call f as, call g bs => same sameLiteral f g && sameAll sameLiteral as bs
  | methodCall a m as, methodCall b n bs =>
      same sameLiteral a b && m = n && sameAll sameLiteral as bs
  | field a m, field b n => same sameLiteral a b && m = n
  | index a i, index b j => same sameLiteral a b && same sameLiteral i j
  | propagate a, propagate b => same sameLiteral a b
  | cast a p, cast b q => same sameLiteral a b && p.same q
  | tuple as, tuple bs => sameAll sameLiteral as bs
  | array as, array bs => sameAll sameLiteral as bs
  | fill a n, fill b m => same sameLiteral a b && same sameLiteral n m
  | closure ps a, closure qs b =>
      ps.length = qs.length && (ps.zip qs).all (fun pair => pair.1.same pair.2) &&
        same sameLiteral a b
  | invocation p as, invocation q bs => p.same q && sameAll sameLiteral as bs
  | _, _ => false

def sameAll {α : Type} (sameLiteral : α → α → Bool) : List (Expr α) → List (Expr α) → Bool
  | [], [] => true
  | a :: as, b :: bs => same sameLiteral a b && sameAll sameLiteral as bs
  | _, _ => false

end

mutual

/-- Replaces the literals from left to right, the first failure being the result. -/
def traverse {α β ε : Type} (replace : α → Position → Except ε β) :
    Expr α → Except ε (Expr β)
  | literal a p => do pure (literal (← replace a p) p)
  | path p => pure (path p)
  | binary op a b => do pure (binary op (← traverse replace a) (← traverse replace b))
  | unary op a => do pure (unary op (← traverse replace a))
  | call f as => do pure (call (← traverse replace f) (← traverseAll replace as))
  | methodCall a m as => do pure (methodCall (← traverse replace a) m (← traverseAll replace as))
  | field a m => do pure (field (← traverse replace a) m)
  | index a i => do pure (index (← traverse replace a) (← traverse replace i))
  | propagate a => do pure (propagate (← traverse replace a))
  | cast a p => do pure (cast (← traverse replace a) p)
  | tuple as => do pure (tuple (← traverseAll replace as))
  | array as => do pure (array (← traverseAll replace as))
  | fill a n => do pure (fill (← traverse replace a) (← traverse replace n))
  | closure ps a => do pure (closure ps (← traverse replace a))
  | invocation p as => do pure (invocation p (← traverseAll replace as))

def traverseAll {α β ε : Type} (replace : α → Position → Except ε β) :
    List (Expr α) → Except ε (List (Expr β))
  | [] => pure []
  | a :: as => do pure ((← traverse replace a) :: (← traverseAll replace as))

end

end Expr

end AttrGrammar
