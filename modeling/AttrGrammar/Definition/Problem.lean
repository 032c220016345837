/-!
Contract: what can be wrong in the definition of an attribute set.

Owns:
- the places at which a definition chooses one of several words;
- the problems with their messages.

Does not own: finding the problems.
-/

namespace AttrGrammar

/-- A place at which a definition chooses a word. -/
inductive ChoicePlace where
  /-- The set that is extended. -/
  | base
  /-- A key in what is said of a keyword. -/
  | setting (keyword key : String)
deriving DecidableEq, Repr

def ChoicePlace.text : ChoicePlace → String
  | base => "extends"
  | setting keyword key => "attributes." ++ keyword ++ "." ++ key

inductive DefinitionProblem where
  /-- The definition is no mapping. -/
  | notMapping (type : String)
  /-- The name is missing, or no text, or empty. -/
  | noName
  /-- A choice is no text. -/
  | notText (place : ChoicePlace) (type : String)
  /-- A choice is none of the words to choose from. -/
  | notOneOf (place : ChoicePlace) (value : String) (choices : List String)
  /-- The attributes are no mapping. -/
  | attributesNotMapping
  /-- There are no attributes and no set that is extended. -/
  | noAttributes
  /-- The text of a key among the attributes is no identifier. -/
  | badKeyword (key : String)
  /-- What is said of a keyword, as shown, is neither the word for a keyword alone nor a mapping. -/
  | badAttribute (keyword shown : String)
  /-- A key in what is said of a keyword has no meaning for the shape. -/
  | unusedKey (keyword key shape : String)
  /-- A key of the definition has no meaning. -/
  | unknownSetting (key : String)
deriving DecidableEq, Repr

def DefinitionProblem.message : DefinitionProblem → String
  | notMapping type => "expected a mapping at top level, got " ++ type
  | noName => "name: required string"
  | notText place type => place.text ++ ": expected a string, got " ++ type
  | notOneOf place value choices =>
      place.text ++ ": '" ++ value ++ "' is not one of " ++ ", ".intercalate choices
  | attributesNotMapping => "attributes: expected a mapping of keyword to shape"
  | noAttributes => "attributes: at least one attribute is required"
  | badKeyword key => "attributes: '" ++ key ++ "' is not a valid keyword"
  | badAttribute keyword shown =>
      "attributes." ++ keyword ++ ": expected 'void' or a mapping, got " ++ shown
  | unusedKey keyword key shape =>
      "attributes." ++ keyword ++ "." ++ key ++ ": not used by shape '" ++ shape ++ "'"
  | unknownSetting key => key ++ ": unknown setting"

end AttrGrammar
