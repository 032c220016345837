import AttrGrammar.Cursor

/-!
Contract: the words and literals that single tokens are.

Owns:
- the reserved words, which are no identifiers, and those among them that can start the path of a type;
- which trees are literals;
- the readers of identifiers and literals.
-/

namespace AttrGrammar

def reservedWords : List String :=
  ["as", "break", "const", "continue", "crate", "else", "enum", "extern", "false", "fn", "for", "if", "impl",
    "in", "let", "loop", "match", "mod", "move", "mut", "pub", "ref", "return", "self", "Self", "static",
    "struct", "super", "trait", "true", "type", "unsafe", "use", "where", "while"]

/-- The reserved words that can start the path of a type. -/
def pathWords : List String :=
  ["Self", "self", "crate", "super"]

structure Ident where
  name : String
  position : Position
deriving DecidableEq, Repr

structure TokenLiteral where
  literal : Literal
  token : Token
deriving DecidableEq, Repr

/-- Whether a tree is a literal: a token of a literal kind, or one of the words `true` and `false`. -/
def Tree.isLiteral : Tree → Bool
  | .token t => t.kind.isLiteral || t.isWord "true" || t.isWord "false"
  | .group .. => false

namespace Reader

/-- The result of decoding the token of a literal that was consumed. -/
def decoded (t : Token) : Reader Literal :=
  match Literal.decode t.kind t.text with
  | .ok literal => pure literal
  | .error fault => throw (.ofLiteral t.position fault)

/-- Consumes the next token if it is a literal, and decodes it. -/
def literal? : Reader (Option TokenLiteral) := do
  let c ← get
  match c.rest with
  | .token t :: _ =>
      if (Tree.token t).isLiteral then
        set (c.skip 1)
        pure (some ⟨← decoded t, t⟩)
      else pure none
  | _ => pure none

def literal : Reader TokenLiteral := do
  match ← literal? with
  | some read => pure read
  | none => fail .malformedItem (.noItem .literal)

def ident : Reader Ident := do
  let c ← get
  match c.rest with
  | .token t :: _ =>
      if t.kind = .ident ∧ t.text ∉ reservedWords then
        set (c.skip 1)
        pure ⟨t.text, t.position⟩
      else fail .malformedItem (.noItem .identifier)
  | _ => fail .malformedItem (.noItem .identifier)

end Reader

end AttrGrammar
