import AttrGrammar.Grammar

/-!
Contract: checking texts that hold one list of attributes a line.

Owns:
- what is found wrong, with its place and its message;
- checking a line, which is read as a list of attributes by itself;
- checking a text: blank lines and comment lines are passed over, and places are those in the text.
-/

namespace AttrGrammar

/-- What is wrong at a place. -/
structure Finding where
  position : Position
  message : String
deriving DecidableEq, Repr

namespace Finding

/-- The finding for a line that is not the first one of its text. -/
def onLine (number : Nat) (f : Finding) : Finding :=
  { f with position := ⟨number + f.position.line - 1, f.position.column⟩ }

end Finding

namespace Lint

/-- The attributes of a line, or what is wrong with it. It fails only for a set of attributes that cannot be used
at all. -/
def check (attrs : Grammar) (line : String) : Except Failure (Except Finding (List (Attribute Parsed))) :=
  match parseAttributes attrs line with
  | .ok attributes => .ok (.ok attributes)
  | .error (.source e) => .ok (.error ⟨e.position, e.message⟩)
  | .error (.failure (.rejected e)) => .ok (.error ⟨e.position, e.message⟩)
  | .error (.failure f) => .error f

/-- What is wrong with a line, if anything. -/
def line? (attrs : Grammar) (line : String) : Except Failure (Option Finding) :=
  (check attrs line).map fun
    | .ok _ => none
    | .error finding => some finding

/-- Whether a line has no attributes to check: it is blank or a comment. -/
def isPassedOver (line : String) : Bool :=
  let text := Unicode.trim line
  text.isEmpty || "//".isPrefixOf text

/-- The lines of a text that are checked, with their numbers. -/
def checkedLines (source : String) : List (Nat × String) :=
  ((Unicode.lines source).zipIdx 1).filterMap fun (line, number) =>
    if isPassedOver line then none else some (number, line)

/-- What each of the checked lines of a text comes to. -/
def results (attrs : Grammar) (source : String) :
    Except Failure (List (Except Finding (List (Attribute Parsed)))) :=
  (checkedLines source).mapM fun (number, line) =>
    (check attrs line).map fun result => result.mapError (Finding.onLine number)

def findings (results : List (Except Finding (List (Attribute Parsed)))) : List Finding :=
  results.filterMap fun
    | .ok _ => none
    | .error finding => some finding

/-- All that is wrong with a text. -/
def source (attrs : Grammar) (text : String) : Except Failure (List Finding) :=
  (results attrs text).map findings

end Lint

end AttrGrammar
