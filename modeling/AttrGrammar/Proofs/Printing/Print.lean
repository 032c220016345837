import AttrGrammar.Proofs.Printing.Source

/-!
Contract: the print of trees has these trees, places aside.

Owns:
- the tokens of a print, tree by tree;
- the trees of a print whose tokens are scanned again and whose joint tokens meet.
-/

namespace AttrGrammar

open Lexer

namespace Lexer

/-! ## Pieces of prints -/

section Pieces

variable {start : Position} {cs : List Char}

/-- A space in front of a source separates nothing. -/
theorem tokensFrom_space (start : Position) (cs : List Char) :
    tokensFrom start (' ' :: cs) = tokensFrom (start.next ' ') cs := by
  rcases exists_gap cs with onlyGap | ⟨gap, c, more, rfl, isGap⟩
  · rw [tokensFrom_gap onlyGap, tokensFrom_gap (by simp [gapLength, isBlank, onlyGap])]
    rfl
  · have isGapBehind : gapLength false ((' ' :: gap) ++ c :: more) = (' ' :: gap).length := by
      simp [gapLength, isBlank, isGap]
    rw [tokensFrom_behind isGap, ← List.cons_append, tokensFrom_behind isGapBehind]
    rfl

theorem tokensFrom_opening (d : Delimiter) (start : Position) (cs : List Char) :
    tokensFrom start (d.openText.toList ++ cs) = (tokensFrom (start.after d.openText.toList) cs).map
      (⟨d.openKind, d.openText, start, false⟩ :: ·) := by
  cases d <;> exact @tokensFrom_token start [] cs _ _ 0 rfl (by cases cs <;> rfl)

theorem tokensFrom_closing (d : Delimiter) (start : Position) (cs : List Char) :
    tokensFrom start (d.closeText.toList ++ cs) = (tokensFrom (start.after d.closeText.toList) cs).map
      (⟨d.closeKind, d.closeText, start, false⟩ :: ·) := by
  cases d <;> exact @tokensFrom_token start [] cs _ _ 0 rfl (by cases cs <;> rfl)

theorem ends_closing (d : Delimiter) (cs : List Char) : Ends (d.closeText.toList ++ cs) := by
  intro c first
  rw [Delimiter.closeText, String.toList_ofList] at first
  cases d <;> obtain rfl := Option.some.inj first <;> simp

end Pieces

/-- Whether characters can follow a tree in a print: a `>` behind a joint token, and else some that end it. -/
def Follows (isJoint : Bool) (tail : List Char) : Prop :=
  if isJoint then tail.head? = some '>' else Ends tail

section Follows

variable {isJoint : Bool} {tail : List Char}

theorem Follows.of_joint (follows : Follows isJoint tail) (joint : isJoint = true) :
    tail.head? = some '>' := by
  rwa [Follows, if_pos joint] at follows

theorem Follows.ends (follows : Follows isJoint tail) (notJoint : isJoint = false) : Ends tail := by
  rwa [Follows, notJoint] at follows

theorem Follows.noSlash (follows : Follows isJoint tail) : tail.head? ≠ some '/' := by
  intro first
  cases isJoint with
  | true => cases (follows.of_joint rfl).symm.trans first
  | false => exact (follows.ends rfl).ne_of_first first (by decide) rfl

/-- What follows tells whether a `>` is joint. -/
theorem Follows.isJoint_eq (follows : Follows isJoint tail) {kind : TokenKind}
    (angle : isJoint → kind = .rangle) :
    (kind = .rangle && tail.head? = some '>' : Bool) = isJoint := by
  cases isJoint with
  | true => simp [angle rfl, follows.of_joint rfl]
  | false =>
      have noAngle : tail.head? ≠ some '>' := fun first =>
        (follows.ends rfl).ne_of_first first (by decide) rfl
      simp [noAngle]

end Follows

/-- A token that is scanned again is the first one of a source that starts with its text. -/
theorem tokensFrom_text {t : Token} {tail : List Char} (rescans : t.Rescans)
    (follows : Follows t.joint tail) (start : Position) :
    tokensFrom start (t.text.toList ++ tail) =
      (tokensFrom (start.after t.text.toList) tail).map ({ t with position := start } :: ·) := by
  obtain ⟨c, more, text, notBlank, slash, angle, scans⟩ := rescans
  rw [text]
  have scanned : scan c (more ++ tail) = .ok (t.kind, more.length) := by
    refine scans tail ?_
    cases joint : t.joint with
    | true => exact .inr ⟨rfl, follows.of_joint joint⟩
    | false => exact .inl (follows.ends joint)
  have noComment : ¬(c = '/' ∧ (more ++ tail).head? = some '/') := by
    rintro ⟨isSlash, second⟩
    rw [slash isSlash] at second
    exact follows.noSlash second
  have noGap : gapLength false (c :: (more ++ tail)) = 0 := by
    rw [gapLength, if_neg (by decide), notBlank, if_neg (by decide), if_neg noComment]
  have sameToken : tokenAt t.kind start (c :: more) tail = { t with position := start } := by
    rw [tokenAt, follows.isJoint_eq angle, ← text, String.ofList_toList]
  have isToken := @tokensFrom_token start [] (more ++ tail) c t.kind more.length noGap scanned
  simp only [List.take_left, List.drop_left, Position.after_nil, sameToken] at isToken
  exact isToken

end Lexer

/-! ## Prints -/

namespace Tree

theorem openText_head (d : Delimiter) : d.openText.toList.head? ≠ some '>' := by
  cases d <;> decide

/-- The print of trees starts as their first token does. -/
theorem printAll_head {trees : List Tree} (starts : StartsAngle (flattenAll trees)) :
    (printAll trees).toList.head? = some '>' := by
  obtain ⟨t, others, same, isFirst⟩ := starts
  cases trees with
  | nil => cases same
  | cons tree later =>
      cases tree with
      | token u =>
          obtain ⟨rfl, -⟩ := List.cons.inj same
          rw [printAll_cons, print, String.toList_append, String.toList_append,
            List.append_assoc, List.head?_append, isFirst]
          rfl
      | group d opening closing trees =>
          obtain ⟨rfl, -⟩ := List.cons.inj same
          exact absurd isFirst (openText_head d)

/-- Whether a text in front of a tail is read as tokens like given ones, behind which the tail is read. -/
def PrintsTo (text : String) (flat : List Token) (tail : List Char) : Prop :=
  ∀ start : Position, ∃ ts : List Token,
    ts.map Token.unplaced = flat.map Token.unplaced ∧
      tokensFrom start (text.toList ++ tail) =
        (tokensFrom (start.after text.toList) tail).map (ts ++ ·)

section PrintsTo

variable {text first second : String} {flat behind : List Token} {tail : List Char}

theorem PrintsTo.append (here : PrintsTo first flat (second.toList ++ tail))
    (later : PrintsTo second behind tail) : PrintsTo (first ++ second) (flat ++ behind) tail := by
  intro start
  obtain ⟨ts, same, reads⟩ := here start
  obtain ⟨us, sameBehind, readsBehind⟩ := later (start.after first.toList)
  refine ⟨ts ++ us, by rw [List.map_append, List.map_append, same, sameBehind], ?_⟩
  rw [String.toList_append, List.append_assoc, Position.after_append, reads, readsBehind]
  cases tokensFrom ((start.after first.toList).after second.toList) tail with
  | error e => rfl
  | ok tokens => exact congrArg Except.ok (List.append_assoc ts us tokens).symm

theorem printsTo_separator (separator : String) (tail : List Char)
    (among : separator = "" ∨ separator = " ") : PrintsTo separator [] tail := by
  intro start
  refine ⟨[], rfl, ?_⟩
  have reads : tokensFrom start (separator.toList ++ tail) =
      tokensFrom (start.after separator.toList) tail := by
    rcases among with rfl | rfl
    · rfl
    · exact tokensFrom_space start tail
  rw [reads]
  cases tokensFrom (start.after separator.toList) tail <;> rfl

theorem printsTo_opening (d : Delimiter) (opening : Position) (tail : List Char) :
    PrintsTo d.openText [⟨d.openKind, d.openText, opening, false⟩] tail :=
  fun start => ⟨[⟨d.openKind, d.openText, start, false⟩], rfl, tokensFrom_opening d start tail⟩

theorem printsTo_closing (d : Delimiter) (closing : Position) (tail : List Char) :
    PrintsTo d.closeText [⟨d.closeKind, d.closeText, closing, false⟩] tail :=
  fun start => ⟨[⟨d.closeKind, d.closeText, start, false⟩], rfl, tokensFrom_closing d start tail⟩

end PrintsTo

/-- What the print of trees has between the first and the others. -/
def separator (tree : Tree) (later : List Tree) : String :=
  if later = [] ∨ tree.isJoint then "" else " "

theorem printAll_eq (tree : Tree) (later : List Tree) :
    printAll (tree :: later) = tree.print ++ (separator tree later ++ printAll later) := by
  rw [printAll_cons, String.append_assoc, separator]

theorem separator_among (tree : Tree) (later : List Tree) :
    separator tree later = "" ∨ separator tree later = " " := by
  unfold separator
  split
  · exact .inl rfl
  · exact .inr rfl

/-- What a print goes on with can follow the tree in front of it. -/
theorem follows_separator {tree : Tree} {later : List Tree} {tail : List Char}
    (joint : tree.isJoint → StartsAngle (flattenAll later)) (ends : Ends tail) :
    Follows tree.isJoint ((separator tree later ++ printAll later).toList ++ tail) := by
  unfold separator
  cases isJoint : tree.isJoint with
  | true =>
      rw [if_pos (.inr rfl), String.empty_append]
      show List.head? _ = _
      rw [List.head?_append, printAll_head (joint isJoint)]
      rfl
  | false =>
      by_cases atEnd : later = []
      · subst atEnd
        show Ends _
        simpa [printAll] using ends
      · rw [if_neg (by simp [atEnd]), String.toList_append]
        exact ends_space _

mutual

theorem printsTo_print : ∀ tree : Tree, (∀ t ∈ tree.leaves, t.Rescans) → tree.Meets →
    ∀ tail, Follows tree.isJoint tail → PrintsTo tree.print tree.flatten tail
  | token t, rescan, _, tail, follows => fun start =>
      ⟨[{ t with position := start }], by simp [flatten, Token.unplaced],
        tokensFrom_text (rescan t (List.mem_singleton_self t)) follows start⟩
  | group d opening closing trees, rescan, meet, tail, _ =>
      ((printsTo_opening d opening _).append
        (printsTo_printAll trees rescan meet _ (ends_closing d tail))).append
          (printsTo_closing d closing tail)

theorem printsTo_printAll : ∀ trees : List Tree, (∀ t ∈ leavesAll trees, t.Rescans) →
    MeetAll trees → ∀ tail, Ends tail → PrintsTo (printAll trees) (flattenAll trees) tail
  | [], _, _, tail, _ => printsTo_separator "" tail (.inl rfl)
  | tree :: later, rescan, ⟨meetHere, joint, meetBehind⟩, tail, ends => by
      obtain ⟨here, behind⟩ := List.forall_mem_append.1 rescan
      have readsBehind : PrintsTo (separator tree later ++ printAll later) (flattenAll later) tail :=
        (printsTo_separator _ _ (separator_among tree later)).append
          (printsTo_printAll later behind meetBehind tail ends)
      rw [printAll_eq, flattenAll]
      exact (printsTo_print tree here meetHere _ (follows_separator joint ends)).append readsBehind

end

end Tree

/-- The print of trees has these trees, places aside. -/
theorem treesOf_printAll {trees : List Tree} (rescan : ∀ t ∈ Tree.leavesAll trees, t.Rescans)
    (plain : ∀ t ∈ Tree.leavesAll trees, t.IsPlain) (meet : Tree.MeetAll trees) :
    ∃ trees' finish, treesOf (Tree.printAll trees) = .ok (trees', finish) ∧
      Tree.unplacedAll trees' = Tree.unplacedAll trees := by
  obtain ⟨ts, same, reads⟩ := Tree.printsTo_printAll trees rescan meet [] ends_nil .start
  have atEnd (p : Position) : tokensFrom p [] = .ok [Token.atEnd p] := tokensFrom_gap rfl
  rw [List.append_nil, atEnd] at reads
  have lexed := tokensFrom_eq_ok_iff.1 reads
  obtain ⟨trees', sameTrees, rfl⟩ := Tree.exists_flattenAll_of_alike trees ts same
  have plain' : ∀ t ∈ Tree.leavesAll trees', t.IsPlain :=
    Tree.leaves_of_alike sameTrees (fun _ _ => Grouping.isPlain_of_unplaced) plain
  refine ⟨trees', _, treesOf_eq_ok_iff.2 ⟨rfl, _, lexed, ?_⟩, sameTrees⟩
  rw [groupTokens, Grouping.treesFrom_flattenAll trees' plain']
  simp [Grouping.treesFrom, Token.atEnd, Grouping.finish]

end AttrGrammar
