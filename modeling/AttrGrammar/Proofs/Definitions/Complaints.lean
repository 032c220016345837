import AttrGrammar.Definition

/-!
Contract: what is wrong with a definition, all of it and in order.

Owns:
- the complaints about each part of a definition, as lists that depend on that part alone;
- results that come to complaints, and how they are put together;
- that reading a definition comes to the complaints about it.

Does not own: what a definition without complaints defines.
-/

namespace AttrGrammar

/-- A problem, with the value that its message shows. -/
structure Complaint where
  problem : DefinitionProblem
  shown : Data := .null

namespace Complaint

/-- Whether all complaints can be put into words. -/
def areShowable (complaints : List Complaint) : Bool :=
  complaints.all fun complaint => complaint.shown.isShowable

theorem areShowable_append (first later : List Complaint) :
    areShowable (first ++ later) = (areShowable first && areShowable later) :=
  List.all_append

end Complaint

open Complaint

/-- What complaints come to: a list of problems, if all of them can be put into words. -/
def Objection.ofComplaints (complaints : List Complaint) : Objection :=
  if areShowable complaints then .problems (complaints.map Complaint.problem) else .tooManyDigits

theorem Objection.ofComplaints_append (first later : List Complaint) :
    ofComplaints (first ++ later) = (ofComplaints first).and (ofComplaints later) := by
  unfold ofComplaints
  rw [areShowable_append]
  cases areShowable first <;> cases areShowable later <;> simp [Objection.and]

namespace Checked

/-! ## Results that come to complaints -/

/-- Whether a check comes to complaints: there is a result if there are none, and else they stand in its way. -/
def Finds {α : Type} (checked : Checked α) (complaints : List Complaint) : Prop :=
  match checked with
  | .ok _ => complaints = []
  | .error objection => complaints ≠ [] ∧ objection = .ofComplaints complaints

section Finds

variable {α β : Type} {a : Checked α} {b : Checked β} {found more : List Complaint}

theorem finds_refuse (problem : DefinitionProblem) (shown : Data) :
    Finds (refuse problem shown : Checked α) [⟨problem, shown⟩] := by
  refine ⟨nofun, ?_⟩
  simp [Objection.ofComplaints, areShowable]

theorem Finds.map (finds : Finds a found) (f : α → β) : Finds (a.map f) found := by
  cases a <;> exact finds

theorem Finds.both (finds : Finds a found) (findsMore : Finds b more) :
    Finds (both a b) (found ++ more) := by
  cases a with
  | ok x =>
      obtain rfl := finds
      cases b <;> exact findsMore
  | error objection =>
      obtain ⟨some, rfl⟩ := finds
      cases b with
      | ok y =>
          obtain rfl := findsMore
          rw [List.append_nil]
          exact ⟨some, rfl⟩
      | error objection' =>
          obtain ⟨-, rfl⟩ := findsMore
          exact ⟨List.append_ne_nil_of_left_ne_nil some more, (Objection.ofComplaints_append ..).symm⟩

theorem Finds.also (finds : Finds a found) (findsMore : Finds b more) :
    Finds (also a b) (found ++ more) :=
  (finds.both findsMore).map Prod.fst

/-- All results come to the complaints about each of them, in order. -/
theorem finds_all {check : α → Checked β} {complaintsOf : α → List Complaint} {xs : List α}
    (finds : ∀ x ∈ xs, Finds (check x) (complaintsOf x)) :
    Finds (all (xs.map check)) (xs.flatMap complaintsOf) := by
  induction xs with
  | nil => rfl
  | cons x later inductionHypothesis =>
      obtain ⟨here, behind⟩ := List.forall_mem_cons.1 finds
      exact (here.both (inductionHypothesis behind)).map _

theorem Finds.isOk_iff (finds : Finds a found) : (∃ x, a = .ok x) ↔ found = [] := by
  cases a with
  | ok x => exact iff_of_true ⟨x, rfl⟩ finds
  | error objection => exact iff_of_false nofun finds.1

/-- A check fails exactly with the complaints that it comes to. -/
theorem Finds.error (finds : Finds a found) (none : ¬∃ x, a = .ok x) :
    found ≠ [] ∧ a = .error (.ofComplaints found) := by
  cases a with
  | ok x => exact absurd ⟨x, rfl⟩ none
  | error objection =>
      obtain ⟨some, rfl⟩ := finds
      exact ⟨some, rfl⟩

end Finds

end Checked

open Checked

namespace Definition

/-! ## The complaints about each part -/

/-- The choice that a value makes, if it is one of some words. -/
def chosen? {α : Type} (choices : List (String × α)) : Data → Option α
  | .str word => choices.lookup word
  | _ => none

/-- What is wrong with a value that makes no choice. -/
def choiceProblem (place : ChoicePlace) (words : List String) : Data → DefinitionProblem
  | .str word => .notOneOf place word words
  | value => .notText place value.typeName

def choiceComplaints {α : Type} (place : ChoicePlace) (choices : List (String × α)) (value : Data) :
    List Complaint :=
  if (chosen? choices value).isSome then [] else [⟨choiceProblem place (choices.map Prod.fst) value, .null⟩]

/-- The complaints about the keys of a mapping, one for each that is not known. -/
def keyComplaints (known : List String) (problem : String → DefinitionProblem)
    (entries : List (Data × Data)) : List Complaint :=
  (unknownKeys known entries).map fun key => ⟨problem key.text, key⟩

/-- The complaints about what is said of a keyword in a mapping. If the shape is no shape, nothing else is looked
at. -/
def settingsComplaints (keyword : String) (settings : List (Data × Data)) : List Complaint :=
  let word := Data.lookup settings "shape"
  match chosen? shapes word with
  | none => choiceComplaints (.setting keyword "shape") shapes word
  | some shape =>
      (shape.params.flatMap fun key =>
        choiceComplaints (.setting keyword key) Payload.choices (Data.lookup settings key)) ++
      keyComplaints ("shape" :: shape.params) (.unusedKey keyword · word.text) settings

/-- The complaints about what is said of a keyword. -/
def descriptionComplaints (keyword : String) : Data → List Complaint
  | .null => []
  | .str "void" => []
  | .map settings => settingsComplaints keyword settings
  | other => [⟨.badAttribute keyword other.shown, other⟩]

/-- The complaints about one entry of the attributes. -/
def entryComplaints (entry : Data × Data) : List Complaint :=
  match entry.1 with
  | .str keyword =>
      if Unicode.isIdentifier keyword.toList then descriptionComplaints keyword entry.2
      else [⟨.badKeyword keyword, .null⟩]
  | key => [⟨.badKeyword key.text, key⟩]

def nameComplaints : Data → List Complaint
  | .str name => if name.isEmpty then [⟨.noName, .null⟩] else []
  | _ => [⟨.noName, .null⟩]

def baseComplaints : Data → List Complaint
  | .null => []
  | value => choiceComplaints .base BuiltinSet.choices value

/-- The entries of the attributes, none if they are no mapping. -/
def entriesIn : Data → List (Data × Data)
  | .map entries => entries
  | _ => []

/-- The complaints about the attributes as a whole. -/
def attributesComplaints (attributes : Data) : List Complaint :=
  if attributes.isFalsy then []
  else
    match attributes with
    | .map _ => []
    | _ => [⟨.attributesNotMapping, .null⟩]

/-- The complaint that nothing is defined. -/
def lackingComplaints (base attributes : Data) : List Complaint :=
  if (entriesIn attributes).isEmpty && (chosen? BuiltinSet.choices base).isNone then
    [⟨.noAttributes, .null⟩]
  else []

/-- The complaints about the name, about the set that is extended, and about the attributes as a whole. -/
def headerComplaints (name base attributes : Data) : List Complaint :=
  nameComplaints name ++ baseComplaints base ++ attributesComplaints attributes ++
    lackingComplaints base attributes

/-- All complaints about a definition: those about its head, those about each attribute, and those about settings
without a meaning. -/
def complaints : Data → List Complaint
  | .map settings =>
      let attributes := Data.lookup settings "attributes"
      headerComplaints (Data.lookup settings "name") (Data.lookup settings "extends") attributes ++
        (entriesIn attributes).flatMap entryComplaints ++
        keyComplaints ["name", "extends", "attributes"] .unknownSetting settings
  | other => [⟨.notMapping other.typeName, .null⟩]

/-! ## What reading comes to -/

theorem choose_eq {α : Type} (place : ChoicePlace) (choices : List (String × α)) (value : Data) :
    choose place choices value =
      match chosen? choices value with
      | some choice => .ok choice
      | none => refuse (choiceProblem place (choices.map Prod.fst) value) := by
  cases value <;> rfl

theorem finds_choose {α : Type} (place : ChoicePlace) (choices : List (String × α)) (value : Data) :
    Finds (choose place choices value) (choiceComplaints place choices value) := by
  rw [choose_eq, choiceComplaints]
  cases chosen? choices value with
  | none => exact finds_refuse _ _
  | some choice => rfl

theorem finds_onlyKeys (known : List String) (problem : String → DefinitionProblem)
    (entries : List (Data × Data)) :
    Finds (onlyKeys known problem entries) (keyComplaints known problem entries) := by
  rw [keyComplaints, List.map_eq_flatMap]
  exact finds_all fun key _ => finds_refuse _ _

/-- A shape is filled with what its keys choose. -/
theorem finds_fill {payloadOf : String → Checked Payload} {complaintsOf : String → List Complaint}
    (finds : ∀ key, Finds (payloadOf key) (complaintsOf key)) (shape : Shape String) :
    Finds (fill payloadOf shape) (shape.params.flatMap complaintsOf) := by
  cases shape with
  | void => rfl
  | value key =>
      rw [Shape.params, List.flatMap_singleton]
      exact (finds key).map _
  | list key =>
      rw [Shape.params, List.flatMap_singleton]
      exact (finds key).map _
  | enclosed parenKey braceKey =>
      rw [Shape.params, List.flatMap_cons, List.flatMap_singleton]
      exact ((finds parenKey).both (finds braceKey)).map _

theorem finds_shapeOf (keyword : String) (settings : List (Data × Data)) :
    Finds (shapeOf keyword settings) (settingsComplaints keyword settings) := by
  rw [shapeOf, settingsComplaints]
  cases isShape : chosen? shapes (Data.lookup settings "shape") with
  | none =>
      have finds := finds_choose (.setting keyword "shape") shapes (Data.lookup settings "shape")
      rw [choose_eq, isShape] at finds ⊢
      exact finds
  | some shape =>
      rw [choose_eq, isShape]
      exact (finds_fill (fun key => finds_choose ..) shape).also (finds_onlyKeys ..)

theorem finds_nodeOf (keyword : String) (description : Data) :
    Finds (nodeOf keyword description) (descriptionComplaints keyword description) := by
  cases description with
  | null => rfl
  | str word =>
      by_cases isVoid : word = "void"
      · rw [isVoid]
        rfl
      · simpa [nodeOf, descriptionComplaints, isVoid] using finds_refuse ..
  | map settings => exact (finds_shapeOf ..).map _
  | _ => exact finds_refuse ..

theorem finds_entryOf : ∀ entry : Data × Data, Finds (entryOf entry) (entryComplaints entry)
  | (.str keyword, description) => by
      simp only [entryOf, entryComplaints]
      split
      · exact finds_nodeOf ..
      · exact finds_refuse ..
  | (.null, _) | (.bool _, _) | (.int _, _) | (.float _, _) | (.list _, _) | (.map _, _) | (.other _, _) =>
      finds_refuse ..

theorem finds_nameOf (name : Data) : Finds (nameOf name) (nameComplaints name) := by
  cases name with
  | str text =>
      simp only [nameOf, nameComplaints]
      split
      · exact finds_refuse ..
      · rfl
  | _ => exact finds_refuse ..

theorem finds_baseOf (base : Data) : Finds (baseOf base) (baseComplaints base) := by
  cases base with
  | null => rfl
  | _ =>
      simp only [baseOf, baseComplaints]
      exact (finds_choose ..).map _

theorem finds_entriesOf (attributes : Data) :
    Finds (entriesOf attributes) (attributesComplaints attributes) := by
  unfold entriesOf attributesComplaints
  split
  · rfl
  · cases attributes with
    | map entries => rfl
    | _ => exact finds_refuse ..

/-- The entries that are read are those of the attributes, whether or not there are complaints about them. -/
theorem entries_eq (attributes : Data) :
    (entriesOf attributes).toOption.getD [] = entriesIn attributes := by
  unfold entriesOf entriesIn
  split
  · rename_i isFalsy
    cases attributes with
    | map entries => exact (List.isEmpty_iff.1 isFalsy).symm
    | _ => rfl
  · cases attributes <;> rfl

theorem base_eq (base : Data) : (baseOf base).toOption.join = chosen? BuiltinSet.choices base := by
  unfold baseOf
  split
  · rfl
  · rw [choose_eq]
    cases chosen? BuiltinSet.choices base <;> rfl

/-- Reading a definition comes to all complaints about it. -/
theorem finds_ofData (d : Data) : Finds (ofData d) (complaints d) := by
  cases d with
  | map settings =>
      have name := finds_nameOf (Data.lookup settings "name")
      have base := finds_baseOf (Data.lookup settings "extends")
      have attributes := finds_entriesOf (Data.lookup settings "attributes")
      simp only [ofData, complaints, entries_eq, base_eq]
      refine (((((name.both base).also attributes).also ?_).both (finds_all fun entry _ =>
        finds_entryOf entry)).also (finds_onlyKeys ..)).map _
      unfold lackingComplaints
      split
      · exact finds_refuse ..
      · rfl
  | _ => exact finds_refuse ..

end Definition

end AttrGrammar
