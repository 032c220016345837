import AttrGrammar.Definition

/-!
Contract: definitions of attribute sets in texts.

Owns:
- the error for a definition that cannot be used, which names the source and lists what is wrong;
- reading a definition from data or from a text, under the name of its source.

Does not own: how texts are loaded. What is said of a malformed text, and all failures of its own, are the loader's.
-/

namespace AttrGrammar

/-- Why a definition cannot be used: its text is malformed, or there are problems in it. -/
inductive DefinitionFault where
  | malformed (message : String)
  | invalid (problems : List DefinitionProblem)
deriving DecidableEq, Repr

/-- What is wrong, one text for each problem. -/
def DefinitionFault.details : DefinitionFault → List String
  | malformed message => ["invalid YAML: " ++ message]
  | invalid problems => problems.map DefinitionProblem.message

/-- A definition that cannot be used, with the name of its source. -/
structure DefinitionError where
  source : String
  fault : DefinitionFault
deriving DecidableEq, Repr

namespace DefinitionError

def details (e : DefinitionError) : List String :=
  e.fault.details

/-- The message: all that is wrong, each on a line of its own. -/
def message (e : DefinitionError) : String :=
  "Invalid attribute set " ++ e.source ++ ":\n" ++
    "\n".intercalate (e.details.map fun detail => "  - " ++ detail)

end DefinitionError

/-- Why data yield no definition: what they define cannot be used, or an integer has too many digits to be shown by an
error. -/
inductive DefinitionFailure where
  | unusable (e : DefinitionError)
  | tooManyDigits
deriving DecidableEq, Repr

/-- Why a text yields no definition: its data do not, or the loader fails in a way of its own. -/
inductive TextFailure (ε : Type) where
  | definition (f : DefinitionFailure)
  | own (e : ε)
deriving DecidableEq, Repr

namespace Definition

def ofSourceData (source : String) (d : Data) : Except DefinitionFailure Definition :=
  (ofData d).mapError fun
    | .problems found => .unusable ⟨source, .invalid found⟩
    | .tooManyDigits => .tooManyDigits

def ofText {ε : Type} (load : Loader ε) (source text : String) : Except (TextFailure ε) Definition :=
  match load text with
  | .ok d => (ofSourceData source d).mapError .definition
  | .error (.malformed message) => .error (.definition (.unusable ⟨source, .malformed message⟩))
  | .error (.own e) => .error (.own e)

end Definition

end AttrGrammar
