import AttrGrammar.Text.Quoted
import AttrGrammar.Yaml.Spot

/-!
Contract: the scalars of YAML, with and without quotes.

Owns:
- how far a scalar reaches;
- the text that it stands for: escapes, and line ends with the blanks around them.

Does not own: which value a scalar without quotes stands for.
-/

namespace AttrGrammar.Yaml

/-- Why a text is not YAML, or not YAML for plain data. -/
inductive Fault where
  | malformed
  /-- An escape stands for a number beyond all code points. -/
  | noCharacter (code : Nat)
  /-- An integer in base ten has more digits than can be read. -/
  | longInteger (digits : Nat)
deriving DecidableEq, Repr

/-- What is said of a text that yields no data. -/
def Fault.message : Fault → String
  | malformed => "the text is not in the part of YAML that is read"
  | noCharacter code => "no character has the code point " ++ toString code
  | longInteger digits => "an integer has " ++ toString digits ++ " digits, which are too many"

/-- What a run of blanks and line ends between words stands for. One line end is a space; of more, the first
is dropped; the blanks around line ends do not count. -/
def foldRun (run : List Char) : List Char :=
  match run.filter isBreak with
  | [] => run
  | ['\n'] => [' ']
  | '\n' :: more => more
  | breaks => breaks

/-- What an escape of one character stands for. -/
def escapes : List (Char × Char) :=
  [('0', '\x00'), ('a', '\x07'), ('b', '\x08'), ('t', '\t'), ('\t', '\t'), ('n', '\n'), ('v', '\x0b'),
    ('f', '\x0c'), ('r', '\r'), ('e', '\x1b'), (' ', ' '), ('"', '"'), ('\\', '\\'), ('/', '/'),
    ('N', '\u0085'), ('_', '\u00a0'), ('L', '\u2028'), ('P', '\u2029')]

/-- How many hexadecimal digits belong to an escape that is told by its code point. -/
def codeLengths : List (Char × Nat) :=
  [('x', 2), ('u', 4), ('U', 8)]

/-- The character that so many hexadecimal digits in front of some characters stand for. -/
def codeChar (count : Nat) (later : List Spot) : Except Fault Char :=
  match ((later.take count).map Spot.char).mapM Text.hexValue? with
  | none => .error .malformed
  | some digits =>
      let code := Text.ofDigits 16 digits
      if digits.length < count then .error .malformed
      else if 0x10ffff < code then .error (.noCharacter code)
      else if code.isValidChar then .ok (Char.ofNat code)
      else .error .malformed

/-- Text in front of what is read behind it, and the count of characters that it was read from. -/
def prepend (text : List Char) (count : Nat) (later : Except Fault (List Char × Nat)) :
    Except Fault (List Char × Nat) :=
  later.map fun (behind, more) => (text ++ behind, count + more)

/-- The text of a scalar up to its closing quote, and its length with that quote. `run` is the run of blanks
and line ends that has been read, the last first; `joined` says that an escaped line end stands before the run,
and then only its line ends count. -/
def quotedFrom (quote : Char) (joined : Bool) (run : List Char) :
    List Spot → Except Fault (List Char × Nat)
  | [] => .error .malformed
  | s :: later =>
      if atDocumentMark (s :: later) then .error .malformed
      else if s.isSpace then prepend [] 1 (quotedFrom quote joined (s.char :: run) later)
      else
        let before := if joined then run.reverse.filter isBreak else foldRun run.reverse
        if s.char = quote then
          match later with
          | next :: more =>
              if quote = '\'' ∧ next.char = quote then
                prepend (before ++ [quote]) 2 (quotedFrom quote false [] more)
              else .ok (before, 1)
          | [] => .ok (before, 1)
        else if quote = '"' ∧ s.char = '\\' then
          match later with
          | [] => .error .malformed
          | mark :: more =>
              if mark.isBreak then prepend before 2 (quotedFrom quote true [] more)
              else
                match escapes.lookup mark.char, codeLengths.lookup mark.char with
                | some c, _ => prepend (before ++ [c]) 2 (quotedFrom quote false [] more)
                | none, some count => do
                    let c ← codeChar count more
                    prepend (before ++ [c]) (2 + count) (quotedFrom quote false [] (more.drop count))
                | none, none => .error .malformed
        else prepend (before ++ [s.char]) 1 (quotedFrom quote false [] later)
termination_by spots => spots.length
decreasing_by all_goals (simp only [List.length_cons, List.length_drop]; omega)

/-- Whether a scalar without quotes ends before some characters. Within brackets, more characters end it. -/
def endsPlain (inBrackets : Bool) (s : Spot) (later : List Spot) : Bool :=
  let isBracket (c : Char) : Bool := c ∈ [',', '[', ']', '\x7b', '\x7d']
  s.char = '\t' ||
    (s.char = ':' &&
      (endsWord later || (inBrackets && later.head?.any fun next => isBracket next.char))) ||
    (inBrackets && (s.char = '?' || isBracket s.char))

/-- The text of a scalar without quotes, and its length. `run` is the run of spaces and line ends that has been
read, the last first. Behind a run, the scalar does not go on with a comment, with a mark between documents, or,
outside of brackets, to the left of the given column. -/
def plainFrom (inBrackets : Bool) (column : Nat) (run : List Char) : List Spot → List Char × Nat
  | [] => ([], 0)
  | s :: later =>
      if s.char = ' ' || s.isBreak then plainFrom inBrackets column (s.char :: run) later
      else if endsPlain inBrackets s later then ([], 0)
      else if !run.isEmpty &&
          (s.char = '#' || atDocumentMark (s :: later) || (!inBrackets && s.column < column)) then
        ([], 0)
      else
        let (text, length) := plainFrom inBrackets column [] later
        (foldRun run.reverse ++ s.char :: text, run.length + 1 + length)

end AttrGrammar.Yaml
