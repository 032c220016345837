import AttrGrammar.Proofs.Printing.Print
import AttrGrammar.Proofs.Reading.Payloads
import AttrGrammar.Proofs.Trees.RoundTrip

/-!
Contract: which sources have trees that are found again in their print.

Owns:
- that the print of trees with an empty character cannot be read, and where it fails;
- that the print of all other trees of sources has these trees, places aside.

An empty character is a token only where a third quote stands behind its two, and no print has a quote there.
-/

namespace AttrGrammar

open Lexer

/-- Two quotes start no token where no third one follows. -/
theorem scan_emptyCharacter {tail : List Char} (ends : Ends tail) :
    scan '\'' ('\'' :: tail) = .error .invalidCharacter := by
  have isQuote : scan '\'' ('\'' :: tail) = scanSingleQuote ('\'' :: tail) := rfl
  have notCharacter : ¬startsCharacter ('\'' :: tail) := by
    rintro (isEscape | isThird)
    · cases isEscape
    · exact ends.ne_quote (.inr rfl) (by simpa [List.head?_eq_getElem?] using isThird)
  have notLifetime : ¬startsWord '\'' := by decide
  rw [isQuote, scanSingleQuote_eq, if_neg notCharacter]
  exact if_neg notLifetime

namespace Tree

/-- Whether a text in front of a tail is read up to an empty character in it, which is no token there. -/
def StopsIn (text : String) (tail : List Char) : Prop :=
  ∃ before behind : List Char, text.toList = before ++ Token.emptyCharacter.toList ++ behind ∧
    ∀ start : Position, tokensFrom start (text.toList ++ tail) =
      .error ⟨.invalidCharacter, start.after before⟩

section StopsIn

variable {first second : String} {tail : List Char}

theorem StopsIn.append (stops : StopsIn first (second.toList ++ tail)) :
    StopsIn (first ++ second) tail := by
  obtain ⟨before, behind, split, fails⟩ := stops
  refine ⟨before, behind ++ second.toList, ?_, fun start => ?_⟩
  · rw [String.toList_append, split, List.append_assoc]
  · rw [String.toList_append, List.append_assoc, fails]

theorem PrintsTo.stopsIn {flat : List Token} (reads : PrintsTo first flat (second.toList ++ tail))
    (stops : StopsIn second tail) : StopsIn (first ++ second) tail := by
  obtain ⟨before, behind, split, fails⟩ := stops
  refine ⟨first.toList ++ before, behind, ?_, fun start => ?_⟩
  · rw [String.toList_append, split, List.append_assoc, List.append_assoc, List.append_assoc]
  · obtain ⟨ts, -, read⟩ := reads start
    rw [String.toList_append, List.append_assoc, read, fails, Position.after_append]
    rfl

theorem stopsIn_emptyCharacter (ends : Ends tail) : StopsIn Token.emptyCharacter tail := by
  refine ⟨[], [], (List.append_nil _).symm, fun start => ?_⟩
  have behind := @tokensFrom_behind start [] ('\'' :: tail) '\'' rfl
  rw [scan_emptyCharacter ends] at behind
  exact behind

end StopsIn

/-- Whether an empty character is among tokens. -/
def HasEmptyCharacter (tokens : List Token) : Prop :=
  ∃ t ∈ tokens, t.text = Token.emptyCharacter

theorem hasEmptyCharacter_append {front back : List Token} :
    HasEmptyCharacter (front ++ back) ↔ HasEmptyCharacter front ∨ HasEmptyCharacter back := by
  simp only [HasEmptyCharacter, List.mem_append, or_and_right, exists_or]

theorem rescans_of_no_emptyCharacter {tokens : List Token} (scanned : ∀ t ∈ tokens, t.IsScanned)
    (none : ¬HasEmptyCharacter tokens) : ∀ t ∈ tokens, t.Rescans :=
  fun t member => (scanned t member).rescans fun isEmpty => none ⟨t, member, isEmpty⟩

mutual

/-- The print of a tree with an empty character is read up to the first one. -/
theorem stopsIn_print : ∀ tree : Tree, (∀ t ∈ tree.leaves, t.IsScanned) → tree.Meets →
    HasEmptyCharacter tree.leaves → ∀ tail, Follows tree.isJoint tail → StopsIn tree.print tail
  | token t, scanned, _, ⟨u, member, isEmpty⟩, tail, follows => by
      obtain rfl := List.mem_singleton.1 member
      have isScanned := scanned u member
      have isChar := isScanned.kind_of_emptyCharacter isEmpty
      have notJoint : u.joint = false := isScanned.joint_eq_false (by rw [isChar]; decide)
      rw [print, isEmpty]
      exact stopsIn_emptyCharacter (follows.ends notJoint)
  | group d opening closing trees, scanned, meet, isEmpty, tail, _ =>
      ((printsTo_opening d opening _).stopsIn
        (stopsIn_printAll trees scanned meet isEmpty _ (ends_closing d tail))).append

theorem stopsIn_printAll : ∀ trees : List Tree, (∀ t ∈ leavesAll trees, t.IsScanned) →
    MeetAll trees → HasEmptyCharacter (leavesAll trees) → ∀ tail, Ends tail →
      StopsIn (printAll trees) tail
  | [], _, _, ⟨_, member, _⟩, _, _ => nomatch member
  | tree :: later, scanned, ⟨meetHere, joint, meetBehind⟩, isEmpty, tail, ends => by
      obtain ⟨here, behind⟩ := List.forall_mem_append.1 scanned
      have follows := follows_separator joint ends
      rw [printAll_eq]
      by_cases inFirst : HasEmptyCharacter tree.leaves
      · exact (stopsIn_print tree here meetHere inFirst _ follows).append
      · have inLater : HasEmptyCharacter (leavesAll later) :=
          (hasEmptyCharacter_append.1 isEmpty).resolve_left inFirst
        have rescan := rescans_of_no_emptyCharacter here inFirst
        have stops := (printsTo_separator _ _ (separator_among tree later)).stopsIn
          (stopsIn_printAll later behind meetBehind inLater tail ends)
        exact (printsTo_print tree rescan meetHere _ follows).stopsIn stops

end

end Tree

open AttrGrammar.Tree

/-- The print of the trees of a source has these trees, places aside, exactly if there is no empty character among
them. If there is one, then the print has no tokens, and the fault is at an empty character in it. -/
theorem treesOf_print_iff {source : String} {trees : List Tree} {finish : Position}
    (read : treesOf source = .ok (trees, finish)) :
    ((∃ printed finish', treesOf (printAll trees) = .ok (printed, finish') ∧
        unplacedAll printed = unplacedAll trees) ↔ ¬HasEmptyCharacter (leavesAll trees)) ∧
    (HasEmptyCharacter (leavesAll trees) → ∃ before behind : List Char,
      (printAll trees).toList = before ++ Token.emptyCharacter.toList ++ behind ∧
        treesOf (printAll trees) =
          .error (.lexical ⟨.invalidCharacter, Position.start.after before⟩)) := by
  have isFrom := fromSource_of_treesOf read
  have fails (isEmpty : HasEmptyCharacter (leavesAll trees)) : ∃ before behind : List Char,
      (printAll trees).toList = before ++ Token.emptyCharacter.toList ++ behind ∧
        treesOf (printAll trees) =
          .error (.lexical ⟨.invalidCharacter, Position.start.after before⟩) := by
    obtain ⟨before, behind, split, stops⟩ :=
      stopsIn_printAll trees isFrom.scanned isFrom.meet isEmpty [] ends_nil
    have noTokens := stops .start
    rw [List.append_nil] at noTokens
    exact ⟨before, behind, split, treesOf_eq_error_iff.2 (.inl ⟨_, noTokens, rfl⟩)⟩
  refine ⟨⟨?_, fun none => ?_⟩, fails⟩
  · rintro ⟨printed, finish', again, -⟩ isEmpty
    obtain ⟨before, behind, -, noTrees⟩ := fails isEmpty
    rw [again] at noTrees
    cases noTrees
  · exact treesOf_printAll (rescans_of_no_emptyCharacter isFrom.scanned none) isFrom.plain isFrom.meet

/-- The trees of `'''a`: the first two quotes are an empty character, since a third one stands behind them. -/
def strayQuotes : List Tree :=
  [.token ⟨.char, "''", ⟨1, 1⟩, false⟩, .token ⟨.lifetime, "'a", ⟨1, 3⟩, false⟩]

theorem treesOf_strayQuotes : treesOf "'''a" = .ok (strayQuotes, ⟨1, 5⟩) := by
  have lexed : Lexed .start "'''a".toList (flattenAll strayQuotes ++ [Token.atEnd ⟨1, 5⟩]) := by
    refine @Lexed.token _ [] '\'' ['\'', '\'', 'a'] .char 1 _ rfl (by rfl) ?_
    exact @Lexed.token _ [] '\'' ['a'] .lifetime 1 _ rfl (by rfl) (.finish rfl)
  exact treesOf_eq_ok_iff_lexed.2 ⟨lexed, by decide⟩

/-- The trees of a source whose print cannot be read. -/
theorem treesOf_print_iff_strayQuotes :
    treesOf "'''a" = .ok (strayQuotes, ⟨1, 5⟩) ∧ HasEmptyCharacter (leavesAll strayQuotes) ∧
      ¬∃ printed finish', treesOf (printAll strayQuotes) = .ok (printed, finish') ∧
        unplacedAll printed = unplacedAll strayQuotes := by
  have isEmpty : HasEmptyCharacter (leavesAll strayQuotes) :=
    ⟨⟨.char, "''", ⟨1, 1⟩, false⟩, .head _, rfl⟩
  exact ⟨treesOf_strayQuotes, isEmpty, fun reads => (treesOf_print_iff treesOf_strayQuotes).1.1 reads isEmpty⟩

/-- In the print of the trees of `'''a` a space stands behind the two quotes, and they are no token there. -/
theorem treesOf_print_strayQuotes :
    treesOf "'''a" = .ok (strayQuotes, ⟨1, 5⟩) ∧ printAll strayQuotes = "'' 'a" ∧
      treesOf "'' 'a" = .error (.lexical ⟨.invalidCharacter, ⟨1, 1⟩⟩) := by
  have noToken : scan '\'' ['\'', ' ', '\'', 'a'] = .error .invalidCharacter := by rfl
  have noTokens := @tokensFrom_behind .start [] ['\'', ' ', '\'', 'a'] '\'' rfl
  rw [noToken] at noTokens
  exact ⟨treesOf_strayQuotes, by decide, treesOf_eq_error_iff.2 (.inl ⟨_, noTokens, rfl⟩)⟩

end AttrGrammar
