/-!
Contract: a character property as an ascending list of closed code point ranges.

Owns:
- membership of a code point in such a list;
- the blank characters, to be trimmed from a line;
- the characters that end a line, and the splitting of a text into its lines.

Does not own: the properties with many ranges; each has a table module of its own.
-/

namespace AttrGrammar.Unicode

/-- Whether a code point lies in one of the ranges, which ascend: the search ends at the first range
that starts above it. -/
def inRanges (code : Nat) : List (Nat × Nat) → Bool
  | [] => false
  | (low, high) :: later => low ≤ code && (code ≤ high || inRanges code later)

/-- A code point that the search accepts is inside a listed range. -/
theorem exists_range_of_inRanges {code : Nat} {ranges : List (Nat × Nat)}
    (found : inRanges code ranges = true) :
    ∃ range ∈ ranges, range.1 ≤ code ∧ code ≤ range.2 := by
  induction ranges with
  | nil => simp [inRanges] at found
  | cons range later inductionHypothesis =>
      obtain ⟨low, high⟩ := range
      simp only [inRanges, Bool.and_eq_true, decide_eq_true_eq, Bool.or_eq_true] at found
      rcases found with ⟨lowLe, leHigh | inLater⟩
      · exact ⟨(low, high), by simp, lowLe, leHigh⟩
      · obtain ⟨range, member, bounds⟩ := inductionHypothesis inLater
        exact ⟨range, List.mem_cons_of_mem _ member, bounds⟩

/-! ## Blanks and lines -/

def blankRanges : List (Nat × Nat) :=
  [(0x9, 0xd), (0x1c, 0x20), (0x85, 0x85), (0xa0, 0xa0), (0x1680, 0x1680), (0x2000, 0x200a),
    (0x2028, 0x2029), (0x202f, 0x202f), (0x205f, 0x205f), (0x3000, 0x3000)]

def isBlank (c : Char) : Bool :=
  inRanges c.toNat blankRanges

/-- Whether a character ends a line: line feed, vertical tab, form feed, carriage return, the three
information separators of file, group and record, next line, and the line and paragraph separators. -/
def endsLine (c : Char) : Bool :=
  inRanges c.toNat
    [(0xa, 0xd), (0x1c, 0x1e), (0x85, 0x85), (0x2028, 0x2029)]

/-- The lines of a text without their ends, when `line` (latest character first) has been read of the
current one. A carriage return and a line feed behind it are one end. A text that stops at a line end
has no empty line after it. -/
def splitLines (line : List Char) : List Char → List (List Char)
  | [] => if line.isEmpty then [] else [line.reverse]
  | '\r' :: '\n' :: later => line.reverse :: splitLines [] later
  | c :: later =>
      if endsLine c then line.reverse :: splitLines [] later
      else splitLines (c :: line) later

def lines (text : String) : List String :=
  (splitLines [] text.toList).map String.ofList

/-- A text without the blank characters at its start and end. -/
def trim (text : String) : String :=
  String.ofList ((text.toList.dropWhile isBlank).reverse.dropWhile isBlank).reverse

end AttrGrammar.Unicode
