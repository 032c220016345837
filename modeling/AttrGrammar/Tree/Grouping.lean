import AttrGrammar.Token.Lexer
import AttrGrammar.Tree

/-!
Contract: the grouping of tokens into trees, and its failure on brackets that do not balance.

Owns:
- the groups that are open while tokens are read, and the step that each token takes;
- the three ways in which brackets fail to balance, each with the bracket that it is reported at.
-/

namespace AttrGrammar

namespace Grouping

/-- A group that was opened and not yet closed: its opening bracket, and the trees before it, the latest
first. -/
structure OpenGroup where
  delimiter : Delimiter
  opener : Token
  before : List Tree

/-- How brackets can fail to balance. -/
inductive Fault where
  | unexpected (text : String)
  | mismatched (text : String) (expected : Delimiter)
  | unclosed (text : String)
deriving DecidableEq, Repr

/-- The message for brackets that do not balance. -/
def Fault.message : Fault → String
  | unexpected text => "Unexpected closing " ++ Text.quoted text
  | mismatched text expected =>
      "Mismatched closing " ++ Text.quoted text ++ ", expected " ++ Text.quoted expected.closeText
  | unclosed text => "Unclosed " ++ Text.quoted text

end Grouping

/-- Tokens whose brackets do not balance, with the place of the bracket that shows it. -/
structure TreeError where
  fault : Grouping.Fault
  position : Position
deriving DecidableEq, Repr

/-- The message for tokens whose brackets do not balance. -/
def TreeError.message (e : TreeError) : String :=
  e.fault.message

namespace Grouping

/-- The trees at the end of the tokens: an open group is an error at the innermost opening bracket. -/
def finish (opened : List OpenGroup) (current : List Tree) : Except TreeError (List Tree) :=
  match opened with
  | [] => .ok current.reverse
  | innermost :: _ => .error ⟨.unclosed innermost.opener.text, innermost.opener.position⟩

/-- The trees of the rest of the tokens, given the open groups, the innermost first, and the trees read in
the innermost one, the latest first. An end token ends the tokens. -/
def treesFrom (opened : List OpenGroup) (current : List Tree) :
    List Token → Except TreeError (List Tree)
  | [] => finish opened current
  | t :: later =>
      if t.kind = .eof then finish opened current
      else match Delimiter.ofOpen? t.kind, Delimiter.ofClose? t.kind with
        | some delimiter, _ => treesFrom (⟨delimiter, t, current⟩ :: opened) [] later
        | none, none => treesFrom opened (.token t :: current) later
        | none, some delimiter =>
            match opened with
            | [] => .error ⟨.unexpected t.text, t.position⟩
            | innermost :: outer =>
                if innermost.delimiter = delimiter then
                  let group := Tree.group delimiter innermost.opener.position t.position current.reverse
                  treesFrom outer (group :: innermost.before) later
                else .error ⟨.mismatched t.text innermost.delimiter, t.position⟩

end Grouping

/-- The trees of a list of tokens, up to its first end token. -/
def groupTokens (tokens : List Token) : Except TreeError (List Tree) :=
  Grouping.treesFrom [] [] tokens

/-- A source that cannot be split into trees. -/
inductive SourceError where
  | lexical (e : LexError)
  | unbalanced (e : TreeError)
deriving DecidableEq, Repr

namespace SourceError

def position : SourceError → Position
  | lexical e => e.position
  | unbalanced e => e.position

/-- The message for a source that cannot be split into trees. -/
def message : SourceError → String
  | lexical e => e.message
  | unbalanced e => e.message

end SourceError

/-- The trees of a source, with the place where the source ends. -/
def treesOf (source : String) : Except SourceError (List Tree × Position) := do
  let tokens ← (tokenize source).mapError .lexical
  let trees ← (groupTokens tokens).mapError .unbalanced
  pure (trees, Position.start.after source.toList)

end AttrGrammar
