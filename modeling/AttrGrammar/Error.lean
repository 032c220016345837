import AttrGrammar.Literal.Decode
import AttrGrammar.Tree

/-!
Contract: why trees do not match a grammar.

Owns:
- the kinds of errors;
- what was found at the place of an error, and what had been wanted there;
- the problems with their messages, and the error that puts a problem at a place;
- failures that are not about the input: grammars that cannot be used, and literals beyond all numbers.

Does not own: errors of sources that have no tokens or no trees.
-/

namespace AttrGrammar

/-- The kinds of errors, by the situation that they arise in. -/
inductive ErrorKind where
  | keywordMismatch
  | missingPayload
  | wrongDelimiter
  | malformedItem
  | ambiguousBracket
  | unexpectedToken
deriving DecidableEq, Repr

namespace ErrorKind

def name : ErrorKind → String
  | keywordMismatch => "KEYWORD_MISMATCH"
  | missingPayload => "MISSING_PAYLOAD"
  | wrongDelimiter => "WRONG_DELIMITER"
  | malformedItem => "MALFORMED_ITEM"
  | ambiguousBracket => "AMBIGUOUS_BRACKET"
  | unexpectedToken => "UNEXPECTED_TOKEN"

def all : List ErrorKind :=
  [keywordMismatch, missingPayload, wrongDelimiter, malformedItem, ambiguousBracket, unexpectedToken]

def ofName? (text : String) : Option ErrorKind :=
  all.find? fun kind => kind.name = text

end ErrorKind

/-- What stands at a place among trees. -/
inductive Found where
  | nothing
  | token (text : String)
  | group (delimiter : Delimiter)
deriving DecidableEq, Repr

namespace Found

def ofTree? : Option Tree → Found
  | none => nothing
  | some (.token t) => token t.text
  | some (.group delimiter ..) => group delimiter

/-- What messages call it. -/
def text : Found → String
  | nothing => "end of input"
  | token text => "`" ++ text ++ "`"
  | group delimiter => "`" ++ delimiter.openText ++ "`"

end Found

/-- What one tree can be asked to be. -/
inductive Pattern where
  | token (kind : TokenKind)
  | group (delimiter : Delimiter)
  | keyword (ident : String)
deriving DecidableEq, Repr

namespace Pattern

/-- What messages call it. -/
def description : Pattern → String
  | token kind => kind.description
  | group delimiter => delimiter.description
  | keyword ident => "`" ++ ident ++ "`"

def holds (tree : Tree) : Pattern → Bool
  | token kind => tree.isKind kind
  | group delimiter => tree.isGroup delimiter
  | keyword ident => tree.isWord ident

end Pattern

/-- The payloads that a keyword can require behind it. -/
inductive PayloadForm where
  | value
  | items
deriving DecidableEq, Repr

/-- What messages call a payload. -/
def PayloadForm.description : PayloadForm → String
  | value => "`=` or parentheses"
  | items => "parentheses"

/-- The items that a list can require. -/
inductive ItemForm where
  | identifier
  | literal
  | type
  | expression
deriving DecidableEq, Repr

/-- What messages call an item. -/
def ItemForm.description : ItemForm → String
  | identifier => "identifier"
  | literal => "literal"
  | type => "type"
  | expression => "expression"

/-- What is wrong at a place. -/
inductive Problem where
  /-- A tree was asked for behind the last one. -/
  | endOfInput
  /-- A tree stands where the input should end. -/
  | leftover (found : Found)
  /-- One tree was required; the context says where, in words that follow its description. -/
  | missing (wanted : Pattern) (context : String) (found : Found)
  /-- One of several trees was required. -/
  | noneOf (wanted : List Pattern) (found : Found)
  /-- A keyword lacks its payload. -/
  | noPayload (form : PayloadForm) (keyword : String) (found : Found)
  /-- An item of a form was required. -/
  | noItem (form : ItemForm) (found : Found)
  /-- A pointer type does not say what it allows. -/
  | noPointerMode (found : Found)
  /-- The keyword is not in the set. -/
  | unknownAttribute (set : String) (known : List String) (found : Found)
  /-- A token denotes no literal. -/
  | malformedLiteral (fault : LiteralFault)
  /-- An expression cannot go on with a token, or cannot stop: what could stand there is listed unless it is
  too much. -/
  | stuckExpression (token : Option String) (expected : List String)
deriving DecidableEq, Repr

namespace Problem

/-- The list of alternatives in a message: two are joined by "or". -/
def alternatives (wanted : List String) : String :=
  if wanted.length ≤ 2 then " or ".intercalate wanted
  else "one of: " ++ ", ".intercalate wanted

/-- The greatest count of expected terminals that a message lists. -/
def hintLimit : Nat := 6

/-- The end of a message that lists what could stand at the place, if that is little enough. -/
def hint (expected : List String) : String :=
  if expected.isEmpty || hintLimit < expected.length then ""
  else ", expected " ++ alternatives expected

def message : Problem → String
  | endOfInput => "unexpected end of input"
  | leftover found => "unexpected token " ++ found.text
  | missing wanted context found =>
      "expected " ++ wanted.description ++ context ++ ", found " ++ found.text
  | noneOf wanted found =>
      "expected " ++ alternatives (wanted.map Pattern.description) ++ ", found " ++ found.text
  | noPayload form keyword found =>
      "expected " ++ form.description ++ " after `" ++ keyword ++ "`, found " ++ found.text
  | noItem form found => "expected " ++ form.description ++ ", found " ++ found.text
  | noPointerMode found => "expected `const` or `mut` after `*`, found " ++ found.text
  | unknownAttribute set known found =>
      "unknown " ++ set ++ " attribute " ++ found.text ++ ", expected one of: " ++
        ", ".intercalate (known.map fun ident => "`" ++ ident ++ "`")
  | malformedLiteral fault => fault.message
  | stuckExpression (some token) expected =>
      "unexpected token `" ++ token ++ "` in expression" ++ hint expected
  | stuckExpression none expected => "unexpected end of expression" ++ hint expected

end Problem

/-- Trees that do not match a grammar: the problem, its place and its kind. -/
structure ParseError where
  kind : ErrorKind
  problem : Problem
  position : Position
deriving DecidableEq, Repr

/-- The message for trees that do not match a grammar. -/
def ParseError.message (e : ParseError) : String :=
  e.problem.message

/-- Why a grammar cannot be used at all. -/
inductive Misuse where
  /-- A node form was used without a keyword and payloads. -/
  | unspecialised (form : String)
  /-- An abbreviation of a node form was used without a keyword. -/
  | abbreviation (form : String)
  /-- The value, as shown, is no grammar. -/
  | notGrammar (shown : String)
deriving DecidableEq, Repr

/-- The message for a grammar that cannot be used. -/
def Misuse.message : Misuse → String
  | unspecialised form =>
      form ++ " must be specialised before parsing, e.g. " ++ form ++ "[kw.name, ...]"
  | abbreviation form => form ++ "() takes no arguments"
  | notGrammar shown => shown ++ " is not a grammar"

/-- Why reading trees by a grammar fails: the trees do not match, the grammar is unusable, or a literal is too
large for its type. -/
inductive Failure where
  | rejected (e : ParseError)
  | unusable (m : Misuse)
  | tooLarge
deriving DecidableEq, Repr

namespace Failure

/-- The failure for a token at a place that denotes no literal. -/
def ofLiteral (position : Position) : LiteralFault → Failure
  | .tooLarge => tooLarge
  | fault => rejected ⟨.malformedItem, .malformedLiteral fault, position⟩

end Failure

end AttrGrammar
