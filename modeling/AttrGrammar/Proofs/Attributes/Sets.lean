import AttrGrammar.Grammar
import AttrGrammar.Proofs.Reading.Tracks

/-!
Contract: reading by the grammar of a set is reading by the set.

Owns:
- readers of lists and attributes commute with changes of the values that their parts yield;
- the result that an attribute over payloads is, and the readers of attributes and sets over payloads;
- the grammar of lists of attributes of a set.
-/

namespace AttrGrammar

open Reader

/-! ## Changes of values -/

namespace Reader

section Map

variable {α β : Type} (f : α → β) (r : Reader α)

theorem map_inside (inner : Cursor) : inside inner (f <$> r) = f <$> inside inner r := by
  funext c
  show inside inner (EStateM.map f r) c = EStateM.map f (inside inner r) c
  unfold inside EStateM.map
  cases r inner <;> rfl

theorem map_whole : whole (f <$> r) = f <$> whole r := by
  simp only [whole, bind_map_left, map_bind, map_pure]

theorem map_itemsUpTo (count : Nat) : itemsUpTo (f <$> r) count = List.map f <$> itemsUpTo r count := by
  induction count with
  | zero => rfl
  | succ count inductionHypothesis =>
      simp only [itemsUpTo, map_bind]
      congr 1
      funext c
      split
      · rfl
      simp only [bind_map_left, map_bind]
      congr 1
      funext v
      congr 1
      funext d
      split
      · rfl
      simp only [inductionHypothesis, bind_map_left, map_bind, map_pure, List.map_cons]

theorem map_terminated : terminated (f <$> r) = List.map f <$> terminated r := by
  simp only [terminated, map_itemsUpTo, map_bind]

end Map

end Reader

namespace Attribute

section Map

variable {α β : Type} (f : α → β) (keyword : String)

theorem map_readVoid : (map f <$> readVoid keyword : Reader (Attribute β)) = readVoid keyword := by
  simp only [readVoid, map_bind, map_pure, map]

theorem map_readValue (payload : Reader α) :
    readValue keyword (f <$> payload) = map f <$> readValue keyword payload := by
  simp only [readValue, map_bind]
  congr 1
  funext position
  congr 1
  funext group
  cases group with
  | some group =>
      simp only [map_whole, map_inside, bind_map_left, map_bind, map_pure]
      rfl
  | none =>
      simp only [map_bind]
      congr 1
      funext equals
      cases equals with
      | some t =>
          show (f <$> payload >>= _) = map f <$> (payload >>= _)
          simp only [bind_map_left, map_bind, map_pure]
          rfl
      | none => rfl

theorem map_readList (items : Reader (List α)) :
    readList keyword (List.map f <$> items) = map f <$> readList keyword items := by
  simp only [readList, map_bind]
  congr 1
  funext position
  congr 1
  funext group
  cases group with
  | some group =>
      simp only [map_inside, bind_map_left, map_bind, map_pure]
      rfl
  | none => rfl

theorem map_readEnclosed (parenItems braceItems : Reader (List α)) :
    readEnclosed keyword (List.map f <$> parenItems) (List.map f <$> braceItems) =
      map f <$> readEnclosed keyword parenItems braceItems := by
  simp only [readEnclosed, map_bind]
  congr 1
  funext position
  congr 1
  funext group
  cases group with
  | some group =>
      simp only [map_inside, bind_map_left, map_bind, map_pure]
      rfl
  | none =>
      simp only [map_bind]
      congr 1
      funext group
      cases group with
      | some group =>
          simp only [map_inside, bind_map_left, map_bind, map_pure]
          rfl
      | none => rfl

end Map

end Attribute

theorem map_readByKeyword {α β : Type} (f : α → β) (set : String) (known : List String)
    (readerOf : String → Option (Reader α)) :
    readByKeyword set known (fun keyword => (readerOf keyword).map (f <$> ·)) =
      f <$> readByKeyword set known readerOf := by
  simp only [readByKeyword, map_bind]
  congr 1
  funext c
  match c.rest with
  | [] => rfl
  | .group .. :: _ => rfl
  | .token t :: _ =>
      show (if t.kind = .ident then ((readerOf t.text).map _).getD _ else _) =
        f <$> (if t.kind = .ident then (readerOf t.text).getD _ else _)
      by_cases isIdent : t.kind = .ident
      · rw [if_pos isIdent, if_pos isIdent]
        cases readerOf t.text <;> rfl
      · rw [if_neg isIdent, if_neg isIdent]
        rfl

/-! ## Attributes over payloads -/

/-- The result that an attribute over payloads is. -/
def Attribute.parsed (a : Attribute PayloadValue) : Parsed :=
  .attr (a.map .payload)

namespace Grammar

theorem map_payload (p : Payload) : Parsed.payload <$> p.read = Grammar.read (.payload p) := by
  rw [Grammar.read]
  rfl

theorem readItems_payload (p : Payload) :
    readItems (.payload p) (read (.payload p)) =
      List.map Parsed.payload <$> Reader.terminated p.read := by
  rw [readItems, ← map_payload, ← map_terminated]
  rfl

theorem readShape_payload (n : Node Payload) :
    readShape n.keyword (n.shape.map .payload) =
      Attribute.map Parsed.payload <$> Attribute.read Payload.read n := by
  obtain ⟨keyword, shape⟩ := n
  cases shape with
  | void =>
      rw [Shape.map, readShape]
      exact (Attribute.map_readVoid _ keyword).symm
  | value p =>
      rw [Shape.map, readShape, ← map_payload]
      exact Attribute.map_readValue _ keyword p.read
  | list p =>
      rw [Shape.map, readShape, readItems_payload]
      exact Attribute.map_readList _ keyword _
  | enclosed p q =>
      rw [Shape.map, readShape, readItems_payload, readItems_payload]
      exact Attribute.map_readEnclosed _ keyword _ _

/-- An attribute over payloads is read as a node is. -/
theorem read_node (n : Node Payload) :
    Grammar.read (.node (n.map .payload)) = Attribute.parsed <$> Attribute.read Payload.read n := by
  rw [Grammar.read, Node.map, readNode, readShape_payload, bind_map_left]
  rfl

/-- A set has a reader for a keyword exactly if it has a node with it. -/
theorem readerOf?_eq (nodes : List (Node Grammar)) (keyword : String) :
    readerOf? nodes keyword = (nodes.find? fun n => n.keyword = keyword).map fun n => (node n).read := by
  induction nodes with
  | nil =>
      rw [readerOf?]
      rfl
  | cons n later inductionHypothesis =>
      rw [readerOf?, inductionHypothesis, List.find?_cons]
      by_cases isKeyword : n.keyword = keyword <;> simp [isKeyword, read]

theorem read_set (s : AttrSet Grammar) : (attrs s).read =
    readByKeyword s.name s.keywords fun keyword => (s.find? keyword).map fun n => (node n).read := by
  obtain ⟨set, nodes⟩ := s
  rw [read, readSet]
  exact congrArg _ (funext fun keyword => readerOf?_eq nodes keyword)

/-- An attribute is read by the grammar of a set as it is by the set. -/
theorem read_attrs (s : AttrSet Payload) :
    Grammar.read (.attrs (s.map .payload)) = Attribute.parsed <$> s.read := by
  have sameKeywords : (s.map payload).keywords = s.keywords := by
    rw [AttrSet.keywords, AttrSet.map, List.map_map]
    rfl
  have sameReaders (keyword : String) : ((s.map payload).find? keyword).map (fun n => (node n).read) =
      ((s.find? keyword).map (Attribute.read Payload.read)).map (Attribute.parsed <$> ·) := by
    rw [AttrSet.find?, AttrSet.map, List.find?_map, Option.map_map, Option.map_map]
    exact Option.map_congr fun n _ => read_node n
  rw [read_set, AttrSet.read, ← map_readByKeyword, sameKeywords, funext sameReaders]
  rfl

end Grammar

/-! ## Lists of attributes -/

/-- The result that a list of attributes over payloads is. -/
def Attribute.parsedList (attributes : List (Attribute PayloadValue)) : Parsed :=
  .terminated (attributes.map Attribute.parsed)

namespace AttrSet

/-- The grammar of lists of attributes of a set. -/
def listGrammar (s : AttrSet Payload) : Grammar :=
  .terminated (.attrs (s.map .payload))

theorem read_listGrammar (s : AttrSet Payload) :
    s.listGrammar.read = Attribute.parsedList <$> Reader.terminated s.read := by
  rw [listGrammar, Grammar.read, Grammar.readItems, Grammar.read_attrs]
  show (Parsed.terminated <$> Reader.terminated (Attribute.parsed <$> s.read) : Reader Parsed) = _
  rw [map_terminated, Functor.map_map]
  rfl

end AttrSet

end AttrGrammar
