import AttrGrammar.Literal.Write
import AttrGrammar.TypeExpr.Reading

/-!
Contract: the payloads of attributes.

Owns:
- the seven payload grammars and their names;
- what each of them yields, and its reader;
- the trees that a payload is spliced as into other trees;
- equality of payloads, for which places and spellings do not count.
-/

namespace AttrGrammar

inductive Payload where
  | lit
  | expr
  | type
  | ident
  | identPatType
  | identTypeMaybeDefault
  | fieldValue
deriving DecidableEq, Repr

namespace Payload

/-- All payload grammars, with the words by which definitions choose them. -/
def choices : List (String × Payload) :=
  [("lit", lit), ("expr", expr), ("type", type), ("ident", ident),
    ("ident_pat_type", identPatType), ("ident_type_maybe_default", identTypeMaybeDefault),
    ("field_value", fieldValue)]

/-- The name of a payload grammar in the names of nodes. -/
def name : Payload → String
  | lit => "Lit"
  | expr => "Expr"
  | type => "Type"
  | ident => "Ident"
  | identPatType => "IdentPatType"
  | identTypeMaybeDefault => "IdentTypeMaybeDefault"
  | fieldValue => "FieldValue"

end Payload

/-- What a payload grammar yields. -/
inductive PayloadValue where
  | lit (read : TokenLiteral)
  | expr (e : Spelled (Expr Literal))
  | type (t : Spelled TypeExpr)
  | ident (i : Ident)
  | identPatType (i : Ident) (t : Spelled TypeExpr)
  | identTypeMaybeDefault (i : Ident) (t : Spelled TypeExpr)
      (default : Option (Spelled (Expr Literal)))
  | fieldValue (i : Ident) (value : Option (Spelled (Expr Literal)))

namespace Payload

open Reader

def typedName : Reader (Ident × Spelled TypeExpr) := do
  let i ← Reader.ident
  let _ ← expect .colon (" after `" ++ i.name ++ "`") .malformedItem
  let t ← TypeExpr.read
  pure (i, t)

/-- Reads an expression if a token of a kind is next, which is consumed. -/
def exprBehind (kind : TokenKind) : Reader (Option (Spelled (Expr Literal))) := do
  if (← token? kind).isSome then pure (some (← Expr.read)) else pure none

def read : Payload → Reader PayloadValue
  | lit => do pure (.lit (← Reader.literal))
  | expr => do pure (.expr (← Expr.read))
  | type => do pure (.type (← TypeExpr.read))
  | ident => do pure (.ident (← Reader.ident))
  | identPatType => do
      let (i, t) ← typedName
      pure (.identPatType i t)
  | identTypeMaybeDefault => do
      let (i, t) ← typedName
      pure (.identTypeMaybeDefault i t (← exprBehind .equals))
  | fieldValue => do
      let i ← Reader.ident
      pure (.fieldValue i (← exprBehind .colon))

end Payload

def Ident.trees (i : Ident) : List Tree :=
  [.token (.word i.name i.position)]

namespace PayloadValue

/-- The trees that a payload is spliced as: none for the payloads that are not spliced. -/
def splice? : PayloadValue → Option (List Tree)
  | lit read => some [.token read.token]
  | expr e => some e.trees
  | type t => some t.trees
  | ident i => some i.trees
  | identPatType i t => some (i.trees ++ .token ⟨.colon, ":", i.position, false⟩ :: t.trees)
  | identTypeMaybeDefault .. => none
  | fieldValue .. => none

def sameExpr? : Option (Spelled (Expr Literal)) → Option (Spelled (Expr Literal)) → Bool
  | none, none => true
  | some a, some b => a.node.same Literal.same b.node
  | _, _ => false

def same : PayloadValue → PayloadValue → Bool
  | lit a, lit b => a.literal.same b.literal
  | expr a, expr b => a.node.same Literal.same b.node
  | type a, type b => a.node.same b.node
  | ident i, ident j => i.name = j.name
  | identPatType i t, identPatType j u => i.name = j.name && t.node.same u.node
  | identTypeMaybeDefault i t d, identTypeMaybeDefault j u e =>
      i.name = j.name && t.node.same u.node && sameExpr? d e
  | fieldValue i v, fieldValue j w => i.name = j.name && sameExpr? v w
  | _, _ => false

end PayloadValue

end AttrGrammar
