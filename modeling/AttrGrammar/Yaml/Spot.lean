/-!
Contract: the characters of a YAML text with their places.

Owns:
- the characters that a text may hold, and those that are blank or end a line;
- a character with its line, its column and its place in the text;
- the markers between documents, which stand at the start of a line.

Line ends are unified: a carriage return, a line feed, both of them, and a next line character are one line feed.
The line and the paragraph separator end a line too and stay what they are.
-/

namespace AttrGrammar.Yaml

def isAllowed (c : Char) : Bool :=
  c = '\t' || c = '\n' || c = '\r' || (' ' ≤ c && c ≤ '~') || c = '\u0085' ||
    ('\u00a0' ≤ c && c ≠ '\ufffe' && c ≠ '\uffff')

/-- Whether a character ends a line, line ends being unified. -/
def isBreak (c : Char) : Bool :=
  c = '\n' || c = '\u2028' || c = '\u2029'

def isBlank (c : Char) : Bool :=
  c = ' ' || c = '\t'

/-- Whether a character is blank or ends a line. -/
def isSpace (c : Char) : Bool :=
  isBlank c || isBreak c

/-- The mark that a text may begin with and that takes no column anywhere. -/
def byteOrderMark : Char :=
  '\ufeff'

/-- A character with its place: lines and columns, and the characters of the text, are counted from zero. -/
structure Spot where
  char : Char
  line : Nat
  column : Nat
  index : Nat
deriving DecidableEq, Repr

namespace Spot

/-- Whether a character ends a line. -/
def isBreak (s : Spot) : Bool :=
  Yaml.isBreak s.char

/-- Whether a character is blank or ends a line. -/
def isSpace (s : Spot) : Bool :=
  Yaml.isSpace s.char

end Spot

def spotsFrom (line column index : Nat) : List Char → List Spot
  | [] => []
  | '\r' :: '\n' :: later => ⟨'\n', line, column, index⟩ :: spotsFrom (line + 1) 0 (index + 1) later
  | c :: later =>
      let c := if c = '\r' ∨ c = '\u0085' then '\n' else c
      ⟨c, line, column, index⟩ ::
        if isBreak c then spotsFrom (line + 1) 0 (index + 1) later
        else spotsFrom line (if c = byteOrderMark then column else column + 1) (index + 1) later

/-- The characters of a text, without the mark that it may begin with. -/
def spots (text : List Char) : List Spot :=
  match text with
  | [] => []
  | c :: later => if c = byteOrderMark then spotsFrom 0 0 1 later else spotsFrom 0 0 0 text

/-- Whether a word ends before some characters: at the end, at a blank or at a line end. -/
def endsWord : List Spot → Bool
  | [] => true
  | s :: _ => s.isSpace

/-- Whether three times a character, at the start of a line and as a word, is what stands next. -/
def marksDocument (mark : Char) : List Spot → Bool
  | a :: b :: c :: later =>
      a.column = 0 && a.char = mark && b.char = mark && c.char = mark && endsWord later
  | _ => false

/-- Whether the start or the end of a document is marked next. -/
def atDocumentMark (later : List Spot) : Bool :=
  marksDocument '-' later || marksDocument '.' later

end AttrGrammar.Yaml
