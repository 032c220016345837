import AttrGrammar.Data
import AttrGrammar.Definition.Problem
import AttrGrammar.Unicode.Identifiers
import AttrGrammar.Vocabulary

/-!
Contract: definitions of attribute sets, as plain data.

Owns:
- results that come with all the problems found, instead of the first one, unless a value that a problem shows
  has no shown form;
- the definition: a name, the set that it extends, and the attributes that it adds or replaces;
- reading a definition from data, and the set that it defines.

A definition is usable if and only if no problem is found in it. The problems are listed in this order: those
of the name, of the set that is extended, and of the attributes as a whole; those of each attribute, which
depend on that attribute alone; the settings that have no meaning.
-/

namespace AttrGrammar

/-- What stands in the way of a result: all the problems that were found, or a value that a problem names and that
cannot be shown. -/
inductive Objection where
  | problems (found : List DefinitionProblem)
  | tooManyDigits
deriving DecidableEq, Repr

namespace Objection

/-- Two objections as one. What cannot be shown hides all problems. -/
def and : Objection → Objection → Objection
  | problems found, problems more => problems (found ++ more)
  | _, _ => tooManyDigits

end Objection

/-- A result, or what stands in its way. -/
abbrev Checked (α : Type) :=
  Except Objection α

namespace Checked

/-- No result because of a problem, which shows a value. -/
def refuse {α : Type} (problem : DefinitionProblem) (shown : Data := .null) : Checked α :=
  .error (if shown.isShowable then .problems [problem] else .tooManyDigits)

/-- Two results, or the problems of both. -/
def both {α β : Type} (a : Checked α) (b : Checked β) : Checked (α × β) :=
  match a, b with
  | .ok x, .ok y => .ok (x, y)
  | .ok _, .error found => .error found
  | .error found, .ok _ => .error found
  | .error found, .error more => .error (found.and more)

/-- The first of two results, or the problems of both. -/
def also {α β : Type} (a : Checked α) (b : Checked β) : Checked α :=
  (both a b).map Prod.fst

/-- All results, or the problems of all of them. -/
def all {α : Type} : List (Checked α) → Checked (List α)
  | [] => .ok []
  | first :: later => (both first (all later)).map fun (x, xs) => x :: xs

theorem both_eq_ok_iff {α β : Type} {a : Checked α} {b : Checked β} {pair : α × β} :
    both a b = .ok pair ↔ a = .ok pair.1 ∧ b = .ok pair.2 := by
  cases a <;> cases b <;> simp [both, Prod.ext_iff]

theorem also_eq_ok_iff {α β : Type} {a : Checked α} {b : Checked β} {x : α} :
    also a b = .ok x ↔ a = .ok x ∧ ∃ y, b = .ok y := by
  cases a <;> cases b <;> simp [also, both, Except.map]

/-- All results are good exactly if each of them is. -/
theorem all_eq_ok_iff {α : Type} {results : List (Checked α)} {values : List α} :
    all results = .ok values ↔ results = values.map .ok := by
  induction results generalizing values with
  | nil => cases values <;> simp [all]
  | cons first later ih =>
      cases first with
      | error found => cases rest : all later <;> cases values <;> simp [all, both, Except.map, rest]
      | ok x =>
          cases values with
          | nil => cases rest : all later <;> simp [all, both, Except.map, rest]
          | cons y ys =>
              have tail : all later = .ok ys ↔ later = ys.map .ok := ih
              cases rest : all later with
              | error found =>
                  rw [rest] at tail
                  simp [all, both, Except.map, rest, ← tail]
              | ok xs =>
                  rw [rest] at tail
                  simp [all, both, Except.map, rest, ← tail]

end Checked

/-- The definition of a set: its name, the set that it extends, and its own attributes. -/
structure Definition where
  name : String
  base : Option BuiltinSet
  nodes : List (Node Payload)
deriving DecidableEq, Repr

namespace Definition

/-- The set that is defined: attributes of the definition replace those of the set that it extends. -/
def set (d : Definition) : AttrSet Payload :=
  (d.base.elim ⟨d.name, []⟩ BuiltinSet.set).extend d.name d.nodes

def choose {α : Type} (place : ChoicePlace) (choices : List (String × α)) (value : Data) : Checked α :=
  match value with
  | .str word =>
      match choices.lookup word with
      | some choice => .ok choice
      | none => Checked.refuse (.notOneOf place word (choices.map Prod.fst))
  | other => Checked.refuse (.notText place other.typeName)

/-- The shapes with the words for them: in place of a payload grammar stands the key that chooses it. -/
def shapes : List (String × Shape String) :=
  [("void", .void), ("value", .value "payload"), ("list", .list "item"),
    ("enclosed", .enclosed "paren" "brace")]

/-- The keys of a mapping other than some known ones, in the order of their texts. -/
def unknownKeys (known : List String) (entries : List (Data × Data)) : List Data :=
  let unknown := entries.filter fun entry => !known.any fun key => entry.1.sameKey (.str key)
  (unknown.map Prod.fst).mergeSort fun left right => left.text ≤ right.text

/-- Nothing, if a mapping has none but known keys: each other one is a problem. -/
def onlyKeys (known : List String) (problem : String → DefinitionProblem) (entries : List (Data × Data)) :
    Checked (List Unit) :=
  Checked.all ((unknownKeys known entries).map fun key => Checked.refuse (problem key.text) key)

/-- A shape with the payload grammar that each of its keys chooses. -/
def fill (payloadOf : String → Checked Payload) : Shape String → Checked (Shape Payload)
  | .void => .ok .void
  | .value key => (payloadOf key).map .value
  | .list key => (payloadOf key).map .list
  | .enclosed parenKey braceKey =>
      ((payloadOf parenKey).both (payloadOf braceKey)).map fun (paren, brace) => .enclosed paren brace

def shapeOf (keyword : String) (settings : List (Data × Data)) : Checked (Shape Payload) := do
  let word := Data.lookup settings "shape"
  let keyed ← choose (.setting keyword "shape") shapes word
  let payloadOf (key : String) : Checked Payload :=
    choose (.setting keyword key) Payload.choices (Data.lookup settings key)
  let unused (key : String) := DefinitionProblem.unusedKey keyword key word.text
  (fill payloadOf keyed).also (onlyKeys ("shape" :: keyed.params) unused settings)

/-- The attribute of a keyword: the keyword alone, or the shape that a mapping describes. -/
def nodeOf (keyword : String) (description : Data) : Checked (Node Payload) :=
  match description with
  | .null => .ok ⟨keyword, .void⟩
  | .str "void" => .ok ⟨keyword, .void⟩
  | .map settings => (shapeOf keyword settings).map fun shape => ⟨keyword, shape⟩
  | other => Checked.refuse (.badAttribute keyword other.shown) other

/-- The attribute of an entry, whose key has to be an identifier. -/
def entryOf (entry : Data × Data) : Checked (Node Payload) :=
  match entry.1 with
  | .str keyword =>
      if Unicode.isIdentifier keyword.toList then nodeOf keyword entry.2
      else Checked.refuse (.badKeyword keyword)
  | key => Checked.refuse (.badKeyword key.text) key

/-- The name of a set: a text that is not empty. -/
def nameOf : Data → Checked String
  | .str name => if name.isEmpty then Checked.refuse .noName else .ok name
  | _ => Checked.refuse .noName

/-- The set that is extended, if any. -/
def baseOf : Data → Checked (Option BuiltinSet)
  | .null => .ok none
  | value => (choose .base BuiltinSet.choices value).map some

/-- The entries of the attributes: a value that counts as nothing has none. -/
def entriesOf (attributes : Data) : Checked (List (Data × Data)) :=
  if attributes.isFalsy then .ok []
  else
    match attributes with
    | .map entries => .ok entries
    | _ => Checked.refuse .attributesNotMapping

/-- The definition that a value is. -/
def ofData : Data → Checked Definition
  | .map settings =>
      let name := nameOf (Data.lookup settings "name")
      let base := baseOf (Data.lookup settings "extends")
      let attributes := entriesOf (Data.lookup settings "attributes")
      let entries := attributes.toOption.getD []
      let extended := base.toOption.join
      let lacking : Checked Unit :=
        if entries.isEmpty && extended.isNone then Checked.refuse .noAttributes else .ok ()
      let unknown := onlyKeys ["name", "extends", "attributes"] .unknownSetting settings
      let header := ((name.both base).also attributes).also lacking
      ((header.both (Checked.all (entries.map entryOf))).also unknown).map
        fun ((name, base), nodes) => ⟨name, base, nodes⟩
  | other => Checked.refuse (.notMapping other.typeName)

end Definition

end AttrGrammar
