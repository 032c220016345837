import AttrGrammar.AttrSet
import AttrGrammar.Payload

/-!
Contract: the attributes of binary layouts.

Owns:
- every attribute that the declaration of a struct or of a field may carry, with its shape;
- the two sets of them, for structs and for fields.
-/

namespace AttrGrammar

namespace Vocabulary

/-- A keyword alone. -/
def flag (keyword : String) : Node Payload :=
  ⟨keyword, .void⟩

def withExpr (keyword : String) : Node Payload :=
  ⟨keyword, .value .expr⟩

def withExprs (keyword : String) : Node Payload :=
  ⟨keyword, .list .expr⟩

def withLit (keyword : String) : Node Payload :=
  ⟨keyword, .value .lit⟩

/-- All attributes, each with the name of its node. -/
def entries : List (String × Node Payload) :=
  [("Big", flag "big"),
    ("Little", flag "little"),
    ("IsBig", withExpr "is_big"),
    ("IsLittle", withExpr "is_little"),
    ("Magic", withLit "magic"),
    ("Assert", withExprs "assert"),
    ("PreAssert", withExprs "pre_assert"),
    ("Imports", ⟨"import", .enclosed .identPatType .identTypeMaybeDefault⟩),
    ("ImportRaw", ⟨"import_raw", .value .identPatType⟩),
    ("Args", ⟨"args", .enclosed .expr .fieldValue⟩),
    ("ArgsRaw", withExpr "args_raw"),
    ("Map", withExpr "map"),
    ("TryMap", withExpr "try_map"),
    ("ParseWith", withExpr "parse_with"),
    ("Count", withExpr "count"),
    ("If", withExprs "if"),
    ("Default", flag "default"),
    ("Ignore", flag "ignore"),
    ("Calc", withExpr "calc"),
    ("Temp", flag "temp"),
    ("RestorePosition", flag "restore_position"),
    ("PadBefore", withExpr "pad_before"),
    ("PadAfter", withExpr "pad_after"),
    ("AlignBefore", withExpr "align_before"),
    ("AlignAfter", withExpr "align_after"),
    ("SeekBefore", withExpr "seek_before"),
    ("PadSizeTo", withExpr "pad_size_to"),
    ("Offset", withExpr "offset"),
    ("Repr", ⟨"repr", .value .type⟩),
    ("ReturnAllErrors", flag "return_all_errors"),
    ("ReturnUnexpectedError", flag "return_unexpected_error")]

def node? (name : String) : Option (Node Payload) :=
  (entries.find? fun entry => entry.1 = name).map Prod.snd

/-- The nodes with some keywords, in the order of the keywords. -/
def nodesOf (keywords : List String) : List (Node Payload) :=
  keywords.filterMap fun keyword => (entries.map Prod.snd).find? fun n => n.keyword = keyword

end Vocabulary

/-- The sets that need no definition. -/
inductive BuiltinSet where
  | struct
  | field
deriving DecidableEq, Repr

namespace BuiltinSet

def name : BuiltinSet → String
  | struct => "struct"
  | field => "field"

/-- The sets with their names. -/
def choices : List (String × BuiltinSet) :=
  [("struct", struct), ("field", field)]

def keywords : BuiltinSet → List String
  | struct =>
      ["big", "little", "magic", "assert", "pre_assert", "import", "import_raw", "map", "try_map", "repr",
        "return_all_errors", "return_unexpected_error"]
  | field =>
      ["big", "little", "is_big", "is_little", "magic", "assert", "args", "args_raw", "map", "try_map",
        "parse_with", "count", "if", "default", "ignore", "calc", "temp", "restore_position",
        "pad_before", "pad_after", "align_before", "align_after", "seek_before", "pad_size_to",
        "offset"]

def set (b : BuiltinSet) : AttrSet Payload :=
  ⟨b.name, Vocabulary.nodesOf b.keywords⟩

end BuiltinSet

end AttrGrammar
