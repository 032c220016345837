import AttrGrammar.Yaml.Lexer
import AttrGrammar.Yaml.Node
import AttrGrammar.Yaml.Plain

/-!
Contract: plain data in YAML.

Owns:
- the data of a node: a later entry of a mapping replaces an earlier one with its key;
- merging: the entries of a mapping under the merge key come before all others and give way to them;
- reading a text, in which no integer has too many digits, and the loader that it makes.

This is the loader that the program comes with, for the part of YAML that definitions of sets are written in. What the
command does does not hang on it: the command is given its loader.
-/

namespace AttrGrammar.Yaml

/-- The entries that a value under the merge key stands for: those of a mapping, or those of several, of which
the first has the last word. -/
def mergedEntries? : Data → Option (List (Data × Data))
  | .map entries => some entries
  | .list items => do
      let parts ← items.mapM fun
        | .map entries => some entries
        | _ => none
      pure parts.reverse.flatten
  | _ => none

namespace Node

def isMergeKey : Node → Bool
  | scalar true text => text = mergeKey
  | _ => false

def scalarValue? (plain : Bool) (text : String) : Option Data :=
  if plain then plainValue? text else some (.str text)

/-- The data of a key, which has to be a scalar. -/
def keyData? : Node → Option Data
  | scalar plain text => if plain ∧ text = defaultKey then some (.str text) else scalarValue? plain text
  | _ => none

mutual

def data? : Node → Option Data
  | scalar plain text => scalarValue? plain text
  | sequence items => do pure (.list (← itemsData? items))
  | mapping entries => do
      let (merged, own) ← entriesData? entries
      pure (.ofEntries (merged ++ own))

def itemsData? : List Node → Option (List Data)
  | [] => some []
  | item :: later => do pure ((← item.data?) :: (← itemsData? later))

/-- The data of entries, those that are merged apart from the others. -/
def entriesData? : List (Node × Node) → Option (List (Data × Data) × List (Data × Data))
  | [] => some ([], [])
  | (key, value) :: later => do
      let read ← value.data?
      let (merged, own) ← entriesData? later
      if key.isMergeKey then pure ((← mergedEntries? read) ++ merged, own)
      else pure (merged, (← key.keyData?, read) :: own)

end

mutual

/-- The count of the digits of the first integer in a node that has too many to be read. -/
def longInteger? : Node → Option Nat
  | scalar plain text => if plain then Yaml.longInteger? text.toList else none
  | sequence items => firstLongInteger? items
  | mapping entries => firstLongIntegerIn? entries

def firstLongInteger? : List Node → Option Nat
  | [] => none
  | item :: later => longInteger? item <|> firstLongInteger? later

def firstLongIntegerIn? : List (Node × Node) → Option Nat
  | [] => none
  | (key, value) :: later => longInteger? key <|> longInteger? value <|> firstLongIntegerIn? later

end

/-- The value of a node in which no integer has too many digits. -/
def value (n : Node) : Except Fault Data :=
  match n.data?, n.longInteger? with
  | none, _ => .error .malformed
  | some _, some digits => .error (.longInteger digits)
  | some d, none => .ok d

end Node

def read (text : String) : Except Fault Data := do
  let tokens ← tokenize text.toList
  match Node.ofTokens? tokens with
  | some n => n.value
  | none => .error .malformed

/-- The loader of YAML texts. -/
def load : Loader Fault := fun text =>
  (read text).mapError fun fault =>
    match fault with
    | .malformed => .malformed fault.message
    | _ => .own fault

end AttrGrammar.Yaml
