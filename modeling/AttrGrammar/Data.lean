import AttrGrammar.Binary64.Decimal
import AttrGrammar.Text.Quoted

/-!
Contract: plain data, as definitions of attribute sets are written in.

Owns:
- the values, mappings keeping the order of their keys, and values of other types by what is said of them;
- the names of their types, and their shown forms, which integers with too many digits lack;
- equality of keys, and looking a key up;
- what a loader of texts may do: yield data, find a text malformed, or fail in a way of its own.

Does not own: any loader.
-/

namespace AttrGrammar

/-- What there is to say of a value that is not plain, such as a date or a value that contains itself. -/
structure Foreign where
  typeName : String
  shown : String
  text : String
  isShowable : Bool
  isFalsy : Bool
  isKey : Bool
deriving DecidableEq, Repr

/-- A value. A mapping is a list of entries with different keys. A value is plain unless there is a foreign one in
it. -/
inductive Data where
  | null
  | bool (b : Bool)
  | int (n : Int)
  | float (x : Binary64)
  | str (text : String)
  | list (items : List Data)
  | map (entries : List (Data × Data))
  | other (value : Foreign)

namespace Data

def typeName : Data → String
  | null => "NoneType"
  | bool _ => "bool"
  | int _ => "int"
  | float _ => "float"
  | str _ => "str"
  | list _ => "list"
  | map _ => "dict"
  | other value => value.typeName

mutual

/-- The shown form of a value. -/
def shown : Data → String
  | null => "None"
  | bool b => if b then "True" else "False"
  | int n => toString n
  | float x => x.text
  | str text => Text.quoted text
  | list items => "[" ++ showItems items ++ "]"
  | map entries => "\x7b" ++ showEntries entries ++ "\x7d"
  | other value => value.shown

/-- The shown forms of items, with commas between them. -/
def showItems : List Data → String
  | [] => ""
  | [item] => shown item
  | item :: later => shown item ++ ", " ++ showItems later

/-- The shown forms of entries, with commas between them. -/
def showEntries : List (Data × Data) → String
  | [] => ""
  | [(key, value)] => shown key ++ ": " ++ shown value
  | (key, value) :: later => shown key ++ ": " ++ shown value ++ ", " ++ showEntries later

end

mutual

/-- Whether a value has a shown form: there is none if an integer in it has too many decimal digits. -/
def isShowable : Data → Bool
  | int n => n.natAbs < Nat.pow 10 Text.decimalDigitLimit
  | list items => areShowable items
  | map entries => areShowableEntries entries
  | other value => value.isShowable
  | _ => true

def areShowable : List Data → Bool
  | [] => true
  | item :: later => isShowable item && areShowable later

def areShowableEntries : List (Data × Data) → Bool
  | [] => true
  | (key, value) :: later => isShowable key && isShowable value && areShowableEntries later

end

/-- The text of a value by itself: a string without quotes, and else the shown form. -/
def text : Data → String
  | str text => text
  | other value => value.text
  | d => d.shown

/-- The number that a scalar counts as when it is a key: truth values are zero and one. -/
def keyInt? : Data → Option Int
  | bool b => some (if b then 1 else 0)
  | int n => some n
  | float x =>
      if x.isSpecial then none
      else
        let magnitude := x.significand * Nat.pow 2 x.scale
        if magnitude % Nat.pow 2 1074 = 0 then
          let n : Int := magnitude / Nat.pow 2 1074
          some (if x.isNegative then -n else n)
        else none
  | _ => none

/-- Whether two values are one key: numbers are compared by value, and lists and mappings are no keys. -/
def sameKey (left right : Data) : Bool :=
  match left.keyInt?, right.keyInt? with
  | some m, some n => m = n
  | _, _ =>
      match left, right with
      | null, null => true
      | str s, str t => s = t
      | float x, float y => x.same y
      | other x, other y => x = y
      | _, _ => false

/-- Whether a value can be a key. -/
def isKey : Data → Bool
  | list _ => false
  | map _ => false
  | other value => value.isKey
  | _ => true

/-- Entries with one more: a key that is there keeps its place and gets the new value. -/
def put (key value : Data) : List (Data × Data) → List (Data × Data)
  | [] => [(key, value)]
  | (k, v) :: later => if k.sameKey key then (k, value) :: later else (k, v) :: put key value later

/-- The mapping of entries in which a later one wins. -/
def ofEntries (entries : List (Data × Data)) : Data :=
  map (entries.foldl (fun kept entry => put entry.1 entry.2 kept) [])

/-- The value of a key that is a string: null if it is not there. -/
def lookup (entries : List (Data × Data)) (key : String) : Data :=
  match entries.find? fun entry => entry.1.sameKey (str key) with
  | some entry => entry.2
  | none => null

/-- Whether a value counts as no attributes: null, false, zero, or empty. -/
def isFalsy : Data → Bool
  | null => true
  | bool b => !b
  | int n => n = 0
  | float x => x.isZero
  | str text => text.isEmpty
  | list items => items.isEmpty
  | map entries => entries.isEmpty
  | other value => value.isFalsy

end Data

/-- Why a text yields no data: it is malformed, or the loader fails in a way of its own. -/
inductive LoadFault (ε : Type) where
  | malformed (message : String)
  | own (e : ε)
deriving DecidableEq, Repr

/-- How texts are loaded as data. -/
abbrev Loader (ε : Type) :=
  String → Except (LoadFault ε) Data

end AttrGrammar
