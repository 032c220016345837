import AttrGrammar.Definition.Text
import AttrGrammar.Proofs.Attributes.Extension
import AttrGrammar.Proofs.Definitions.Complaints
import AttrGrammar.Proofs.Reading.Outcomes
import Mathlib.Data.List.Forall2

/-!
Contract: which data define a set of attributes, and which set.

Owns:
- plain data: the values whose mappings have distinct keys that are no collections;
- what each part of a definition has to be, as relations between data and what they define;
- that reading yields exactly what the data define;
- the nodes of the set that is defined, in order;
- that every other definition is refused with all complaints about it.
-/

namespace AttrGrammar

namespace Data

/-! ## Plain data -/

/-- Whether no two entries have one key. -/
def DistinctKeys (entries : List (Data × Data)) : Prop :=
  entries.Pairwise fun first second => first.1.sameKey second.1 = false

instance (entries : List (Data × Data)) : Decidable (DistinctKeys entries) :=
  inferInstanceAs (Decidable (List.Pairwise _ entries))

/-- Whether a value is plain: the keys of every mapping in it are no collections, and differ. -/
inductive IsPlain : Data → Prop where
  | null : IsPlain .null
  | bool (b : Bool) : IsPlain (.bool b)
  | int (n : Int) : IsPlain (.int n)
  | float (x : Binary64) : IsPlain (.float x)
  | str (text : String) : IsPlain (.str text)
  | list {items : List Data} (plain : ∀ item ∈ items, IsPlain item) : IsPlain (.list items)
  | map {entries : List (Data × Data)} (distinct : DistinctKeys entries)
      (keys : ∀ entry ∈ entries, entry.1.isKey) (plain : ∀ entry ∈ entries, IsPlain entry.2) :
      IsPlain (.map entries)

section Mappings

variable {entries : List (Data × Data)}

theorem sameKey_str {d : Data} {text : String} : d.sameKey (.str text) ↔ d = .str text := by
  have noNumber : (Data.str text).keyInt? = none := rfl
  unfold sameKey
  rw [noNumber]
  cases d <;> simp

theorem IsPlain.distinctKeys (plain : IsPlain (.map entries)) : DistinctKeys entries := by
  cases plain
  assumption

theorem IsPlain.lookup {key : String} (plain : IsPlain (.map entries)) :
    IsPlain (lookup entries key) := by
  unfold Data.lookup
  cases found : entries.find? fun entry => entry.1.sameKey (.str key) with
  | none => exact IsPlain.null
  | some entry =>
      cases plain with
      | map _ _ plain => exact plain entry (List.mem_of_find?_eq_some found)

end Mappings

end Data

open Checked

namespace Definition

/-! ## What the parts define -/

/-- Whether a mapping has some settings, each of which is a word, and no others. -/
def HasSettings (settings : List (Data × Data)) (words : List (String × String)) : Prop :=
  (∀ word ∈ words, Data.lookup settings word.1 = .str word.2) ∧
    ∀ entry ∈ settings, ∃ word ∈ words, entry.1 = .str word.1

/-- Whether a value describes a shape with payloads. -/
inductive Describes : Data → Shape Payload → Prop where
  | null : Describes .null .void
  | word : Describes (.str "void") .void
  | void {settings : List (Data × Data)} (are : HasSettings settings [("shape", "void")]) :
      Describes (.map settings) .void
  | value {settings : List (Data × Data)} {word : String} {p : Payload}
      (are : HasSettings settings [("shape", "value"), ("payload", word)])
      (chosen : Payload.choices.lookup word = some p) : Describes (.map settings) (.value p)
  | list {settings : List (Data × Data)} {word : String} {p : Payload}
      (are : HasSettings settings [("shape", "list"), ("item", word)])
      (chosen : Payload.choices.lookup word = some p) : Describes (.map settings) (.list p)
  | enclosed {settings : List (Data × Data)} {parenWord braceWord : String} {paren brace : Payload}
      (are : HasSettings settings
        [("shape", "enclosed"), ("paren", parenWord), ("brace", braceWord)])
      (parenChosen : Payload.choices.lookup parenWord = some paren)
      (braceChosen : Payload.choices.lookup braceWord = some brace) :
      Describes (.map settings) (.enclosed paren brace)

/-- Whether an entry of the attributes declares an attribute. -/
def Declares (entry : Data × Data) (n : Node Payload) : Prop :=
  entry.1 = .str n.keyword ∧ Unicode.isIdentifier n.keyword.toList ∧ Describes entry.2 n.shape

/-- Whether a value names the set that is extended, or says that there is none. -/
inductive Extends : Data → Option BuiltinSet → Prop where
  | none : Extends .null none
  | some (b : BuiltinSet) : Extends (.str b.name) (some b)

/-- Whether a value has some entries, as a mapping, or as what counts as no attributes. -/
inductive HasEntries : Data → List (Data × Data) → Prop where
  | falsy {attributes : Data} (isFalsy : attributes.isFalsy) : HasEntries attributes []
  | map (entries : List (Data × Data)) : HasEntries (.map entries) entries

/-- Whether the settings of a mapping define a name, a set that is extended, and attributes. -/
structure Defines (settings : List (Data × Data)) (definition : Definition) : Prop where
  keys : ∀ entry ∈ settings, ∃ key ∈ ["name", "extends", "attributes"], entry.1 = .str key
  name : Data.lookup settings "name" = .str definition.name
  nameNotEmpty : definition.name ≠ ""
  base : Extends (Data.lookup settings "extends") definition.base
  attributes : ∃ entries, HasEntries (Data.lookup settings "attributes") entries ∧
    List.Forall₂ Declares entries definition.nodes
  notEmpty : definition.nodes ≠ [] ∨ definition.base ≠ none

/-! ## Reading yields what is defined -/

theorem refuse_ne_ok {α : Type} {problem : DefinitionProblem} {shown : Data} {x : α} :
    (refuse problem shown : Checked α) ≠ .ok x :=
  nofun

theorem map_eq_ok_iff {α β : Type} {a : Checked α} {f : α → β} {y : β} :
    a.map f = .ok y ↔ ∃ x, a = .ok x ∧ f x = y := by
  cases a <;> simp [Except.map]

theorem choose_eq_ok_iff {α : Type} {place : ChoicePlace} {choices : List (String × α)} {value : Data}
    {choice : α} : choose place choices value = .ok choice ↔
      ∃ word, value = .str word ∧ choices.lookup word = some choice := by
  cases value with
  | str word =>
      simp only [choose, Data.str.injEq, exists_eq_left']
      cases choices.lookup word with
      | none => exact iff_of_false refuse_ne_ok nofun
      | some choice' => simp
  | _ => exact iff_of_false refuse_ne_ok (by simp)

theorem unknownKeys_eq_nil_iff {known : List String} {entries : List (Data × Data)} :
    unknownKeys known entries = [] ↔ ∀ entry ∈ entries, ∃ key ∈ known, entry.1 = .str key := by
  rw [unknownKeys, ← List.length_eq_zero_iff, List.length_mergeSort, List.length_map,
    List.length_eq_zero_iff, List.filter_eq_nil_iff]
  simp [Data.sameKey_str]

theorem onlyKeys_eq_ok_iff {known : List String} {problem : String → DefinitionProblem}
    {entries : List (Data × Data)} : (∃ u, onlyKeys known problem entries = .ok u) ↔
      ∀ entry ∈ entries, ∃ key ∈ known, entry.1 = .str key := by
  rw [(finds_onlyKeys known problem entries).isOk_iff, keyComplaints, List.map_eq_nil_iff,
    unknownKeys_eq_nil_iff]

theorem mem_of_lookup {α : Type} {choices : List (String × α)} {word : String} {choice : α}
    (found : choices.lookup word = some choice) : (word, choice) ∈ choices := by
  obtain ⟨before, behind, rfl, -⟩ := List.lookup_eq_some_iff.1 found
  simp

theorem shapeOf_eq_ok_iff {keyword : String} {settings : List (Data × Data)} {shape : Shape Payload} :
    shapeOf keyword settings = .ok shape ↔ ∃ word keyed,
      Data.lookup settings "shape" = .str word ∧ shapes.lookup word = some keyed ∧
      fill (fun key => choose (.setting keyword key) Payload.choices (Data.lookup settings key)) keyed =
        .ok shape ∧
      ∀ entry ∈ settings, ∃ key ∈ "shape" :: keyed.params, entry.1 = .str key := by
  rw [shapeOf]
  constructor
  · intro isShape
    cases choice : choose (.setting keyword "shape") shapes (Data.lookup settings "shape") with
    | error objection =>
        rw [choice] at isShape
        cases isShape
    | ok keyed =>
        rw [choice] at isShape
        obtain ⟨filled, known⟩ := also_eq_ok_iff.1 isShape
        obtain ⟨word, isWord, found⟩ := choose_eq_ok_iff.1 choice
        exact ⟨word, keyed, isWord, found, filled, onlyKeys_eq_ok_iff.1 known⟩
  · rintro ⟨word, keyed, isWord, found, filled, known⟩
    rw [choose_eq_ok_iff.2 ⟨word, isWord, found⟩]
    exact also_eq_ok_iff.2 ⟨filled, onlyKeys_eq_ok_iff.2 known⟩

/-- A mapping describes the shape that is read from it. -/
theorem shapeOf_eq_ok_iff_describes {keyword : String} {settings : List (Data × Data)}
    {shape : Shape Payload} :
    shapeOf keyword settings = .ok shape ↔ Describes (.map settings) shape := by
  rw [shapeOf_eq_ok_iff]
  constructor
  · rintro ⟨word, keyed, isWord, found, filled, known⟩
    have isShape := mem_of_lookup found
    simp only [shapes, List.mem_cons, Prod.mk.injEq, List.not_mem_nil, or_false] at isShape
    rcases isShape with ⟨rfl, rfl⟩ | ⟨rfl, rfl⟩ | ⟨rfl, rfl⟩ | ⟨rfl, rfl⟩
    · cases filled
      exact .void ⟨by simpa using isWord, by simpa [Shape.params] using known⟩
    · obtain ⟨p, isPayload, rfl⟩ := map_eq_ok_iff.1 filled
      obtain ⟨word, isWord', chosen⟩ := choose_eq_ok_iff.1 isPayload
      exact .value ⟨by simpa using ⟨isWord, isWord'⟩, by simpa [Shape.params] using known⟩ chosen
    · obtain ⟨p, isPayload, rfl⟩ := map_eq_ok_iff.1 filled
      obtain ⟨word, isWord', chosen⟩ := choose_eq_ok_iff.1 isPayload
      exact .list ⟨by simpa using ⟨isWord, isWord'⟩, by simpa [Shape.params] using known⟩ chosen
    · obtain ⟨⟨paren, brace⟩, areBoth, rfl⟩ := map_eq_ok_iff.1 filled
      obtain ⟨isParen, isBrace⟩ := both_eq_ok_iff.1 areBoth
      obtain ⟨parenWord, isParenWord, parenChosen⟩ := choose_eq_ok_iff.1 isParen
      obtain ⟨braceWord, isBraceWord, braceChosen⟩ := choose_eq_ok_iff.1 isBrace
      exact .enclosed ⟨by simpa using ⟨isWord, isParenWord, isBraceWord⟩,
        by simpa [Shape.params] using known⟩ parenChosen braceChosen
  · intro describes
    cases describes with
    | void are =>
        refine ⟨"void", .void, by simpa using are.1, rfl, rfl, by simpa [Shape.params] using are.2⟩
    | value are chosen =>
        obtain ⟨isWord, isPayload⟩ : _ ∧ _ := by simpa using are.1
        refine ⟨"value", .value "payload", isWord, rfl, ?_, by simpa [Shape.params] using are.2⟩
        exact map_eq_ok_iff.2 ⟨_, choose_eq_ok_iff.2 ⟨_, isPayload, chosen⟩, rfl⟩
    | list are chosen =>
        obtain ⟨isWord, isItem⟩ : _ ∧ _ := by simpa using are.1
        refine ⟨"list", .list "item", isWord, rfl, ?_, by simpa [Shape.params] using are.2⟩
        exact map_eq_ok_iff.2 ⟨_, choose_eq_ok_iff.2 ⟨_, isItem, chosen⟩, rfl⟩
    | enclosed are parenChosen braceChosen =>
        obtain ⟨isWord, isParen, isBrace⟩ : _ ∧ _ ∧ _ := by simpa using are.1
        refine ⟨"enclosed", .enclosed "paren" "brace", isWord, rfl, ?_,
          by simpa [Shape.params] using are.2⟩
        exact map_eq_ok_iff.2 ⟨(_, _), both_eq_ok_iff.2 ⟨choose_eq_ok_iff.2 ⟨_, isParen, parenChosen⟩,
          choose_eq_ok_iff.2 ⟨_, isBrace, braceChosen⟩⟩, rfl⟩

theorem nodeOf_eq_ok_iff {keyword : String} {description : Data} {n : Node Payload} :
    nodeOf keyword description = .ok n ↔ n.keyword = keyword ∧ Describes description n.shape := by
  obtain ⟨k, shape⟩ := n
  cases description with
  | null =>
      simp only [nodeOf, Except.ok.injEq, Node.mk.injEq]
      refine and_congr eq_comm ⟨?_, ?_⟩
      · rintro rfl
        exact .null
      · rintro ⟨⟩
        rfl
  | str word =>
      by_cases isVoid : word = "void"
      · subst isVoid
        simp only [nodeOf, Except.ok.injEq, Node.mk.injEq]
        refine and_congr eq_comm ⟨?_, ?_⟩
        · rintro rfl
          exact .word
        · rintro ⟨⟩
          rfl
      · have isRefused : nodeOf keyword (.str word) =
            refuse (.badAttribute keyword (Data.str word).shown) (.str word) := by
          simp [nodeOf, isVoid]
        rw [isRefused]
        refine iff_of_false refuse_ne_ok ?_
        rintro ⟨-, ⟨⟩⟩
        exact isVoid rfl
  | map settings =>
      simp only [nodeOf, map_eq_ok_iff, shapeOf_eq_ok_iff_describes, Node.mk.injEq]
      constructor
      · rintro ⟨shape', describes, rfl, rfl⟩
        exact ⟨rfl, describes⟩
      · rintro ⟨rfl, describes⟩
        exact ⟨shape, describes, rfl, rfl⟩
  | _ =>
      refine iff_of_false refuse_ne_ok ?_
      rintro ⟨-, ⟨⟩⟩

/-- An entry declares the attribute that is read from it. -/
theorem entryOf_eq_ok_iff {entry : Data × Data} {n : Node Payload} :
    entryOf entry = .ok n ↔ Declares entry n := by
  obtain ⟨key, description⟩ := entry
  cases key with
  | str keyword =>
      simp only [entryOf, Declares, Data.str.injEq]
      split
      · rename_i isIdentifier
        rw [nodeOf_eq_ok_iff]
        constructor
        · rintro ⟨rfl, describes⟩
          exact ⟨rfl, isIdentifier, describes⟩
        · rintro ⟨rfl, -, describes⟩
          exact ⟨rfl, describes⟩
      · rename_i noIdentifier
        refine iff_of_false refuse_ne_ok ?_
        rintro ⟨rfl, isIdentifier, -⟩
        exact noIdentifier isIdentifier
  | _ =>
      refine iff_of_false refuse_ne_ok ?_
      rintro ⟨⟨⟩, -⟩

theorem all_entryOf_eq_ok_iff {entries : List (Data × Data)} {nodes : List (Node Payload)} :
    all (entries.map entryOf) = .ok nodes ↔ List.Forall₂ Declares entries nodes := by
  rw [all_eq_ok_iff, ← List.forall₂_eq_eq_eq, List.forall₂_map_left_iff, List.forall₂_map_right_iff]
  simp only [entryOf_eq_ok_iff]

theorem nameOf_eq_ok_iff {value : Data} {name : String} :
    nameOf value = .ok name ↔ value = .str name ∧ name ≠ "" := by
  cases value with
  | str text =>
      simp only [nameOf, Data.str.injEq]
      split
      · rename_i isEmpty
        refine iff_of_false refuse_ne_ok ?_
        rintro ⟨rfl, notEmpty⟩
        exact notEmpty (String.isEmpty_iff.1 isEmpty)
      · rename_i notEmpty
        constructor
        · rintro ⟨⟩
          exact ⟨rfl, fun isEmpty => notEmpty (String.isEmpty_iff.2 isEmpty)⟩
        · rintro ⟨rfl, -⟩
          rfl
  | _ =>
      refine iff_of_false refuse_ne_ok ?_
      rintro ⟨⟨⟩, -⟩

theorem baseOf_eq_ok_iff {value : Data} {base : Option BuiltinSet} :
    baseOf value = .ok base ↔ Extends value base := by
  cases value with
  | null =>
      constructor
      · rintro ⟨⟩
        exact .none
      · rintro ⟨⟩
        rfl
  | str word =>
      simp only [baseOf, map_eq_ok_iff, choose_eq_ok_iff, Data.str.injEq, exists_eq_left']
      constructor
      · rintro ⟨b, found, rfl⟩
        have isChoice := mem_of_lookup found
        simp only [BuiltinSet.choices, List.mem_cons, Prod.mk.injEq, List.not_mem_nil, or_false] at isChoice
        rcases isChoice with ⟨rfl, rfl⟩ | ⟨rfl, rfl⟩
        · exact .some .struct
        · exact .some .field
      · rintro ⟨⟩
        rename_i b
        exact ⟨b, by cases b <;> rfl, rfl⟩
  | _ =>
      simp only [baseOf, map_eq_ok_iff, choose_eq_ok_iff]
      refine iff_of_false (by simp) ?_
      rintro ⟨⟩

theorem entriesOf_eq_ok_iff {attributes : Data} {entries : List (Data × Data)} :
    entriesOf attributes = .ok entries ↔ HasEntries attributes entries := by
  unfold entriesOf
  split
  · rename_i isFalsy
    constructor
    · rintro ⟨⟩
      exact .falsy isFalsy
    · intro hasEntries
      cases hasEntries with
      | falsy => rfl
      | map => rw [List.isEmpty_iff.1 isFalsy]
  · rename_i notFalsy
    cases attributes with
    | map entries' =>
        constructor
        · rintro ⟨⟩
          exact .map _
        · intro hasEntries
          cases hasEntries with
          | falsy isFalsy => exact absurd isFalsy notFalsy
          | map => rfl
    | _ =>
        refine iff_of_false refuse_ne_ok fun hasEntries => ?_
        cases hasEntries
        rename_i isFalsy
        exact notFalsy isFalsy

/-- Something is defined if there is an attribute or a set that is extended. -/
theorem lacking_eq_ok_iff {entries : List (Data × Data)} {base : Option BuiltinSet} :
    (∃ u, (if entries.isEmpty && base.isNone then refuse .noAttributes else .ok () : Checked Unit) =
      .ok u) ↔ entries ≠ [] ∨ base ≠ none := by
  cases entries <;> cases base <;> simp [refuse]

/-- The definition that is read from data is what their settings define. -/
theorem ofData_eq_ok_iff {d : Data} {definition : Definition} :
    ofData d = .ok definition ↔ ∃ settings, d = .map settings ∧ Defines settings definition := by
  cases d with
  | map settings =>
      simp only [ofData, Data.map.injEq, exists_eq_left']
      constructor
      · intro isRead
        obtain ⟨⟨⟨name, base⟩, nodes⟩, collected, rfl⟩ := map_eq_ok_iff.1 isRead
        obtain ⟨parts, keys⟩ := also_eq_ok_iff.1 collected
        obtain ⟨header, areNodes⟩ := both_eq_ok_iff.1 parts
        obtain ⟨header, notLacking⟩ := also_eq_ok_iff.1 header
        obtain ⟨header, entries, areEntries⟩ := also_eq_ok_iff.1 header
        obtain ⟨isName, isBase⟩ := both_eq_ok_iff.1 header
        obtain ⟨nameIs, nameNotEmpty⟩ := nameOf_eq_ok_iff.1 isName
        rw [areEntries] at areNodes notLacking
        rw [isBase] at notLacking
        have declared : List.Forall₂ Declares entries nodes := all_entryOf_eq_ok_iff.1 areNodes
        have notEmpty : entries ≠ [] ∨ base ≠ none := lacking_eq_ok_iff.1 notLacking
        refine ⟨onlyKeys_eq_ok_iff.1 keys, nameIs, nameNotEmpty, baseOf_eq_ok_iff.1 isBase,
          ⟨entries, entriesOf_eq_ok_iff.1 areEntries, declared⟩, notEmpty.imp_left ?_⟩
        rintro someEntries rfl
        exact someEntries (List.forall₂_nil_right_iff.1 declared)
      · rintro ⟨keys, nameIs, nameNotEmpty, base, ⟨entries, hasEntries, declared⟩, notEmpty⟩
        have isName := nameOf_eq_ok_iff.2 ⟨nameIs, nameNotEmpty⟩
        have isBase := baseOf_eq_ok_iff.2 base
        have areEntries := entriesOf_eq_ok_iff.2 hasEntries
        have areNodes := all_entryOf_eq_ok_iff.2 declared
        have notLacking : entries ≠ [] ∨ definition.base ≠ none :=
          notEmpty.imp_left fun someNodes noEntries =>
            someNodes (List.forall₂_nil_left_iff.1 (noEntries ▸ declared))
        rw [isName, isBase, areEntries]
        refine map_eq_ok_iff.2 ⟨((definition.name, definition.base), definition.nodes), ?_, rfl⟩
        refine also_eq_ok_iff.2 ⟨both_eq_ok_iff.2 ⟨?_, areNodes⟩, onlyKeys_eq_ok_iff.2 keys⟩
        exact also_eq_ok_iff.2 ⟨rfl, lacking_eq_ok_iff.2 notLacking⟩
  | _ => exact iff_of_false refuse_ne_ok (by simp)

/-! ## The set that is defined -/

/-- The attributes that entries with different keys declare have different keywords. -/
theorem distinctKeywords_of_declares {entries : List (Data × Data)} {nodes : List (Node Payload)}
    (distinct : Data.DistinctKeys entries) (declared : List.Forall₂ Declares entries nodes) :
    AttrSet.DistinctKeywords nodes := by
  have keys : entries.map Prod.fst = nodes.map fun n => .str n.keyword := by
    rw [← List.forall₂_eq_eq_eq, List.forall₂_map_left_iff, List.forall₂_map_right_iff]
    exact declared.imp fun _ _ declares => declares.1
  have distinct : (entries.map Prod.fst).Pairwise fun key other => key.sameKey other = false :=
    List.pairwise_map.2 distinct
  rw [keys] at distinct
  refine List.pairwise_map.2 ((List.pairwise_map.1 distinct).imp fun {n m} others same => ?_)
  rw [same, Data.sameKey_str.2 rfl] at others
  cases others

theorem HasEntries.distinctKeys {attributes : Data} {entries : List (Data × Data)}
    (hasEntries : HasEntries attributes entries) (plain : attributes.IsPlain) :
    Data.DistinctKeys entries := by
  cases hasEntries with
  | falsy => exact .nil
  | map => exact plain.distinctKeys

/-- A definition in plain data declares no keyword twice. -/
theorem Defines.distinctKeywords {settings : List (Data × Data)} {definition : Definition}
    (defines : Defines settings definition) (plain : Data.IsPlain (.map settings)) :
    AttrSet.DistinctKeywords definition.nodes := by
  obtain ⟨entries, hasEntries, declared⟩ := defines.attributes
  exact distinctKeywords_of_declares (hasEntries.distinctKeys plain.lookup) declared

/-- The nodes of the set that a definition extends. -/
def baseNodes (definition : Definition) : List (Node Payload) :=
  definition.base.elim [] fun b => b.set.nodes

theorem distinctKeywords_baseNodes (definition : Definition) :
    AttrSet.DistinctKeywords definition.baseNodes := by
  unfold baseNodes
  cases definition.base with
  | none => exact List.nodup_nil
  | some b => exact b.distinctKeywords

theorem set_eq_extend (definition : Definition) : definition.set =
    AttrSet.extend ⟨definition.name, definition.baseNodes⟩ definition.name definition.nodes := by
  unfold Definition.set baseNodes
  cases definition.base <;> rfl

/-- The set that is defined holds the nodes of the set that is extended, redefined in place, and behind them the
others in the order in which they are declared. No two of them share a keyword. -/
theorem set_eq {definition : Definition} (distinct : AttrSet.DistinctKeywords definition.nodes) :
    definition.set = ⟨definition.name, definition.baseNodes.map (AttrSet.redefined definition.nodes) ++
      AttrSet.added definition.baseNodes definition.nodes⟩ ∧
    AttrSet.ofNodes definition.name definition.set.nodes = .ok definition.set := by
  have distinctBase := definition.distinctKeywords_baseNodes
  rw [set_eq_extend]
  refine ⟨AttrSet.nodes_extend distinctBase distinct _, AttrSet.ofNodes_eq_ok_iff.2 ⟨?_, rfl⟩⟩
  exact AttrSet.distinctKeywords_extend distinctBase _ _

/-- What is declared for a keyword is what the set has for it. -/
theorem find?_set {definition : Definition} (distinct : AttrSet.DistinctKeywords definition.nodes)
    {n : Node Payload} (declared : n ∈ definition.nodes) : definition.set.find? n.keyword = some n := by
  have distinctBase := definition.distinctKeywords_baseNodes
  rw [set_eq_extend]
  exact AttrSet.find?_eq_some_of_mem (AttrSet.distinctKeywords_extend distinctBase _ _)
    (AttrSet.mem_extend distinctBase distinct _ declared)

/-! ## All data -/

/-- Whether data define a set. -/
def IsValid (d : Data) : Prop :=
  ∃ settings definition, d = .map settings ∧ Defines settings definition

/-- Data define a set exactly if there are no complaints about them. -/
theorem isValid_iff {d : Data} : IsValid d ↔ complaints d = [] := by
  rw [← (finds_ofData d).isOk_iff]
  simp only [ofData_eq_ok_iff, IsValid]
  exact exists_comm

theorem ofSourceData_eq_ok_iff {source : String} {d : Data} {definition : Definition} :
    ofSourceData source d = .ok definition ↔ ofData d = .ok definition :=
  Reader.mapError_eq_ok_iff

/-- Data with complaints about them are refused with all of these, if they can be shown. -/
theorem ofSourceData_of_complaints {d : Data} (some : complaints d ≠ []) (source : String) :
    ofSourceData source d = .error (
      if Complaint.areShowable (complaints d) then
        .unusable ⟨source, .invalid ((complaints d).map Complaint.problem)⟩
      else .tooManyDigits) := by
  have finds := finds_ofData d
  obtain ⟨-, isRefused⟩ := finds.error fun isRead => some (finds.isOk_iff.1 isRead)
  rw [ofSourceData, isRefused, Objection.ofComplaints]
  split <;> rfl

/-- Data yield a set exactly if they define one, and then that set. Else they are refused with all complaints about
them, those about the head first, then those about each attribute, which depend on nothing else, and then those about
settings without a meaning; unless a complaint shows an integer with too many digits, which is then the only thing
that is said. -/
theorem ofSourceData_iff (source : String) {d : Data} (plain : d.IsPlain) :
    ((∃ definition, ofSourceData source d = .ok definition) ↔ IsValid d) ∧
    (∀ definition, ofSourceData source d = .ok definition →
      (∃ settings, d = .map settings ∧ Defines settings definition) ∧
      definition.set = ⟨definition.name,
        definition.baseNodes.map (AttrSet.redefined definition.nodes) ++
          AttrSet.added definition.baseNodes definition.nodes⟩ ∧
      AttrSet.ofNodes definition.name definition.set.nodes = .ok definition.set) ∧
    (¬IsValid d → complaints d ≠ [] ∧ ofSourceData source d = .error (
      if Complaint.areShowable (complaints d) then
        .unusable ⟨source, .invalid ((complaints d).map Complaint.problem)⟩
      else .tooManyDigits)) := by
  simp only [ofSourceData_eq_ok_iff]
  refine ⟨?_, fun definition isRead => ?_, fun invalid => ?_⟩
  · rw [isValid_iff, (finds_ofData d).isOk_iff]
  · obtain ⟨settings, rfl, defines⟩ := ofData_eq_ok_iff.1 isRead
    exact ⟨⟨settings, rfl, defines⟩, set_eq (defines.distinctKeywords plain)⟩
  · have some : complaints d ≠ [] := mt isValid_iff.2 invalid
    exact ⟨some, ofSourceData_of_complaints some source⟩

/-- The settings for the attributes of fields with a checksum, and with an expression for the magic number. -/
def packetSettings : List (Data × Data) :=
  [(.str "name", .str "packet"), (.str "extends", .str "field"),
    (.str "attributes", .map
      [(.str "checksum", .str "void"),
        (.str "magic", .map [(.str "shape", .str "value"), (.str "payload", .str "expr")])])]

def packet : Definition :=
  ⟨"packet", some .field, [⟨"checksum", .void⟩, ⟨"magic", .value .expr⟩]⟩

theorem defines_packet : Defines packetSettings packet where
  keys := by simp [packetSettings]
  name := rfl
  nameNotEmpty := by decide
  base := .some .field
  attributes := by
    have magic : HasSettings [(.str "shape", .str "value"), (.str "payload", .str "expr")]
        [("shape", "value"), ("payload", "expr")] := by
      simp [HasSettings, Data.lookup, Data.sameKey_str]
    exact ⟨_, .map _, .cons ⟨rfl, by decide, .word⟩ (.cons ⟨rfl, by decide, .value magic rfl⟩ .nil)⟩
  notEmpty := .inl nofun

theorem isPlain_packetSettings : Data.IsPlain (.map packetSettings) := by
  refine .map (by decide) (by decide) ?_
  simp only [packetSettings, List.forall_mem_cons]
  refine ⟨.str _, .str _, .map (by decide) (by decide) ?_, nofun⟩
  simp only [List.forall_mem_cons]
  refine ⟨.str _, .map (by decide) (by decide) ?_, nofun⟩
  simp only [List.forall_mem_cons]
  exact ⟨.str _, .str _, nofun⟩

/-- A definition that extends a set and redefines one of its attributes. -/
theorem ofSourceData_iff_packet : Data.IsPlain (.map packetSettings) ∧
    ofSourceData "<dict>" (.map packetSettings) = .ok packet ∧
      packet.set = ⟨"packet", BuiltinSet.field.set.nodes.map (AttrSet.redefined packet.nodes) ++
        [⟨"checksum", .void⟩]⟩ := by
  have isRead : ofSourceData "<dict>" (.map packetSettings) = .ok packet :=
    ofSourceData_eq_ok_iff.2 (ofData_eq_ok_iff.2 ⟨packetSettings, rfl, defines_packet⟩)
  obtain ⟨-, isSet, -⟩ := (ofSourceData_iff "<dict>" isPlain_packetSettings).2.1 packet isRead
  exact ⟨isPlain_packetSettings, isRead, isSet⟩

/-- A definition that says of an attribute no more than an integer with a digit too many. -/
def longInteger : Data :=
  .map [(.str "name", .str "n"),
    (.str "attributes", .map [(.str "a", .int (Nat.pow 10 Text.decimalDigitLimit))])]

theorem isPlain_longInteger : longInteger.IsPlain := by
  refine .map (by decide) (by decide) ?_
  simp only [List.forall_mem_cons]
  refine ⟨.str _, .map (by decide) (by decide) ?_, nofun⟩
  simp only [List.forall_mem_cons]
  exact ⟨.int _, nofun⟩

theorem isShowable_of_le {n : Nat} (long : Nat.pow 10 Text.decimalDigitLimit ≤ n) :
    (Data.int n).isShowable = false := by
  rw [Data.isShowable, Int.natAbs_natCast]
  exact decide_eq_false (Nat.not_lt.2 long)

/-- There is no list of problems for a definition if one of them shows an integer with too many digits. -/
theorem ofSourceData_longInteger : longInteger.IsPlain ∧ ¬IsValid longInteger ∧
    ofSourceData "<dict>" longInteger = .error .tooManyDigits := by
  let n : Data := .int (Nat.pow 10 Text.decimalDigitLimit)
  have notShowable : n.isShowable = false := isShowable_of_le (Nat.le_refl _)
  have isComplaint : entryComplaints (.str "a", n) = [⟨.badAttribute "a" n.shown, n⟩] := by
    simp only [entryComplaints, n, descriptionComplaints]
    exact if_pos (by decide)
  have allComplaints : complaints longInteger = [⟨.badAttribute "a" n.shown, n⟩] := by
    have noHeader : headerComplaints (.str "n") .null (.map [(.str "a", n)]) = [] := by
      simp [headerComplaints, nameComplaints, baseComplaints, attributesComplaints, lackingComplaints,
        Data.isFalsy, entriesIn]
    have known : keyComplaints ["name", "extends", "attributes"] .unknownSetting
        [(.str "name", .str "n"), (.str "attributes", .map [(.str "a", n)])] = [] := by
      rw [keyComplaints, unknownKeys_eq_nil_iff.2 (by simp), List.map_nil]
    have inOrder : complaints longInteger =
        headerComplaints (.str "n") .null (.map [(.str "a", n)]) ++ [(.str "a", n)].flatMap entryComplaints ++
          keyComplaints ["name", "extends", "attributes"] .unknownSetting
            [(.str "name", .str "n"), (.str "attributes", .map [(.str "a", n)])] := rfl
    rw [inOrder, noHeader, known, List.flatMap_singleton, isComplaint, List.nil_append, List.append_nil]
  have some : complaints longInteger ≠ [] := allComplaints ▸ List.cons_ne_nil _ _
  refine ⟨isPlain_longInteger, mt isValid_iff.1 some, ?_⟩
  rw [ofSourceData_of_complaints some, allComplaints]
  simp [Complaint.areShowable, notShowable]

end Definition

end AttrGrammar
