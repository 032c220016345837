import AttrGrammar.Attribute
import AttrGrammar.Text.Quoted

/-!
Contract: sets of attributes, chosen from by their keywords.

Owns:
- the set, as a list of nodes in order, and the order in which it keeps them;
- making a set, which needs distinct keywords, and extending one, which replaces in place.

Does not own: the attributes that there are, and reading attributes by a set.
-/

namespace AttrGrammar

structure AttrSet (γ : Type) where
  name : String
  nodes : List (Node γ)
deriving DecidableEq, Repr

/-- Two nodes of a set with the given name have this keyword. -/
structure DuplicateKeyword where
  keyword : String
  set : String
deriving DecidableEq, Repr

def DuplicateKeyword.message (e : DuplicateKeyword) : String :=
  "duplicate attribute keyword `" ++ e.keyword ++ "` in " ++ e.set ++ " attributes"

namespace AttrSet

def keywords {γ : Type} (s : AttrSet γ) : List String :=
  s.nodes.map Node.keyword

def size {γ : Type} (s : AttrSet γ) : Nat :=
  s.nodes.length

def find? {γ : Type} (s : AttrSet γ) (keyword : String) : Option (Node γ) :=
  s.nodes.find? fun n => n.keyword = keyword

def contains {γ : Type} (s : AttrSet γ) (keyword : String) : Bool :=
  s.keywords.contains keyword

/-- A set over other grammars. -/
def map {γ δ : Type} (f : γ → δ) (s : AttrSet γ) : AttrSet δ :=
  ⟨s.name, s.nodes.map (Node.map f)⟩

def shown {γ : Type} (s : AttrSet γ) : String :=
  "AttrSet(" ++ Text.quoted s.name ++ ")"

/-- The first keyword of some nodes that is among the given ones or stands twice. -/
def firstDuplicate? {γ : Type} (seen : List String) : List (Node γ) → Option String
  | [] => none
  | n :: later =>
      if n.keyword ∈ seen then some n.keyword else firstDuplicate? (n.keyword :: seen) later

/-- The set of some nodes, whose keywords have to be distinct. -/
def ofNodes {γ : Type} (name : String) (nodes : List (Node γ)) :
    Except DuplicateKeyword (AttrSet γ) :=
  match firstDuplicate? [] nodes with
  | some keyword => .error ⟨keyword, name⟩
  | none => .ok ⟨name, nodes⟩

/-- Nodes with one more: it takes the place of the node with its keyword, or comes last. -/
def put {γ : Type} (n : Node γ) : List (Node γ) → List (Node γ)
  | [] => [n]
  | first :: later => if first.keyword = n.keyword then n :: later else first :: put n later

/-- A set under a new name with nodes added one after another. -/
def extend {γ : Type} (s : AttrSet γ) (name : String) (nodes : List (Node γ)) : AttrSet γ :=
  ⟨name, nodes.foldl (fun kept n => put n kept) s.nodes⟩

end AttrSet

end AttrGrammar
