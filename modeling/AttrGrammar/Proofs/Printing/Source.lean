import AttrGrammar.Proofs.Printing.Rescan
import AttrGrammar.Proofs.Trees.Alike

/-!
Contract: the trees of a source are ready to be printed.

Owns:
- the tokens that are scanned again from their texts, and the one text of a source that is not;
- joint tokens that meet the token they are joint with, among tokens and in trees;
- both for the trees of every source.
-/

namespace AttrGrammar

open Lexer

/-! ## Tokens that are scanned again -/

/-- The text of a character without a character: it is scanned only in front of one more quote, and it has no
value. -/
def Token.emptyCharacter : String := "''"

/-- Whether a token is scanned from its text in front of all that can follow it in a print. -/
def Token.Rescans (t : Token) : Prop :=
  ∃ c more, t.text.toList = c :: more ∧ isBlank c = false ∧ (c = '/' → more = []) ∧
    (t.joint → t.kind = .rangle) ∧
    ∀ tail, (Ends tail ∨ t.joint ∧ tail.head? = some '>') →
      scan c (more ++ tail) = .ok (t.kind, more.length)

section Scanned

variable {c : Char} {more : List Char} {kind : TokenKind} {length : Nat}

theorem isBlank_of_scan (scanned : scan c more = .ok (kind, length)) : isBlank c = false := by
  cases blank : isBlank c with
  | false => rfl
  | true =>
      have among := isBlank_iff.1 blank
      simp only [List.mem_cons, List.not_mem_nil, or_false] at among
      rcases among with rfl | rfl | rfl | rfl <;> cases more <;> cases scanned

/-- Behind a slash, nothing belongs to its token. -/
theorem length_of_slash (scanned : scan '/' more = .ok (kind, length)) : length = 0 := by
  cases more <;> cases scanned <;> rfl

theorem eq_rangle_of_scan (scanned : scan c more = .ok (.rangle, length)) :
    c = '>' ∧ more.take length = [] :=
  List.cons.inj (text_of_spelling scanned (by decide))

/-- A scanned token, the empty character aside, is scanned again. -/
theorem rescans_tokenAt {position : Position} (scanned : scan c more = .ok (kind, length))
    (notEmpty : (tokenAt kind position (c :: more.take length) (more.drop length)).text ≠
      Token.emptyCharacter) :
    (tokenAt kind position (c :: more.take length) (more.drop length)).Rescans := by
  refine ⟨c, more.take length, by simp [tokenAt], isBlank_of_scan scanned, ?_, ?_, ?_⟩
  · rintro rfl
    rw [length_of_slash scanned, List.take_zero]
  · intro joint
    simp only [tokenAt, Bool.and_eq_true, decide_eq_true_eq] at joint
    exact joint.1
  · rintro tail (ends | ⟨joint, next⟩)
    · have noQuotes : ¬(c = '\'' ∧ more.take length = ['\'']) := by
        rintro ⟨rfl, text⟩
        exact notEmpty (by simp [tokenAt, text, Token.emptyCharacter])
      obtain ⟨lengthLe, again⟩ := scan_take_append ends scanned noQuotes
      rw [again, List.length_take, Nat.min_eq_left lengthLe]
      rfl
    · simp only [tokenAt, Bool.and_eq_true, decide_eq_true_eq] at joint
      obtain ⟨rfl, -⟩ := joint
      obtain ⟨rfl, none⟩ := eq_rangle_of_scan scanned
      rw [none]
      exact scan_rangle next

end Scanned

/-! ## Joint tokens -/

/-- Whether the first of some tokens starts with `>`. -/
def StartsAngle (tokens : List Token) : Prop :=
  ∃ t later, tokens = t :: later ∧ t.text.toList.head? = some '>'

/-- Whether each joint token stands in front of one that starts with `>`. -/
def JointsMeet : List Token → Prop
  | [] => True
  | t :: later => (t.joint → StartsAngle later) ∧ JointsMeet later

theorem JointsMeet.of_append {front back : List Token} (meet : JointsMeet (front ++ back)) :
    JointsMeet back := by
  induction front with
  | nil => exact meet
  | cons t front inductionHypothesis => exact inductionHypothesis meet.2

theorem not_startsAngle_cons {t : Token} {later : List Token}
    (other : t.text.toList.head? ≠ some '>') : ¬StartsAngle (t :: later) := by
  rintro ⟨u, rest, same, starts⟩
  obtain ⟨rfl, rfl⟩ := List.cons.inj same
  exact other starts

namespace Tree

mutual

/-- Whether each joint token in the groups of a tree stands in front of one that starts with `>`. -/
def Meets : Tree → Prop
  | token _ => True
  | group _ _ _ trees => MeetAll trees

/-- Whether each joint token of trees stands in front of one that starts with `>`. -/
def MeetAll : List Tree → Prop
  | [] => True
  | tree :: later =>
      Meets tree ∧ (tree.isJoint → StartsAngle (flattenAll later)) ∧ MeetAll later

end

theorem MeetAll.append {front back : List Tree} (first : MeetAll front) (second : MeetAll back) :
    MeetAll (front ++ back) := by
  induction front with
  | nil => exact second
  | cons tree front inductionHypothesis =>
      obtain ⟨here, joint, behind⟩ := first
      refine ⟨here, fun isJoint => ?_, inductionHypothesis behind⟩
      obtain ⟨t, later, same, starts⟩ := joint isJoint
      exact ⟨t, later ++ flattenAll back, by simp [same], starts⟩

theorem MeetAll.drop {trees : List Tree} (meet : MeetAll trees) (count : Nat) :
    MeetAll (trees.drop count) := by
  induction count generalizing trees with
  | zero => exact meet
  | succ count inductionHypothesis =>
      cases trees with
      | nil => trivial
      | cons tree later => exact inductionHypothesis meet.2.2

theorem MeetAll.of_group {d : Delimiter} {opening closing : Position} {trees inner : List Tree}
    (meet : MeetAll trees) (isGroup : Tree.group d opening closing inner ∈ trees) :
    MeetAll inner := by
  induction trees with
  | nil => cases isGroup
  | cons tree later inductionHypothesis =>
      rcases List.mem_cons.1 isGroup with rfl | behind
      · exact meet.1
      · exact inductionHypothesis meet.2.2 behind

theorem startsAngle_flattenAll_unplacedAll {trees : List Tree} :
    StartsAngle (flattenAll (unplacedAll trees)) ↔ StartsAngle (flattenAll trees) := by
  rw [flattenAll_unplacedAll]
  cases flattenAll trees with
  | nil => exact Iff.rfl
  | cons t later =>
      constructor
      · rintro ⟨u, behind, same, starts⟩
        obtain ⟨rfl, -⟩ := List.cons.inj same
        exact ⟨t, later, rfl, starts⟩
      · rintro ⟨u, behind, same, starts⟩
        obtain ⟨rfl, -⟩ := List.cons.inj same
        exact ⟨t.unplaced, _, rfl, starts⟩

mutual

theorem meets_unplaced : ∀ tree : Tree, tree.unplaced.Meets ↔ tree.Meets
  | token _ => Iff.rfl
  | group _ _ _ trees => meetAll_unplacedAll trees

theorem meetAll_unplacedAll : ∀ trees : List Tree, MeetAll (unplacedAll trees) ↔ MeetAll trees
  | [] => Iff.rfl
  | tree :: later => by
      have joint : tree.unplaced.isJoint = tree.isJoint := by cases tree <;> rfl
      rw [unplacedAll, MeetAll, MeetAll, meets_unplaced tree, meetAll_unplacedAll later, joint,
        startsAngle_flattenAll_unplacedAll]

end

theorem closeText_head (d : Delimiter) : d.closeText.toList.head? ≠ some '>' := by
  cases d <;> decide

mutual

/-- Joint tokens meet in a tree if they do among the tokens that it is flattened to. -/
theorem meets_of_flatten : ∀ (tree : Tree) (next : List Token),
    JointsMeet (tree.flatten ++ next) → tree.Meets
  | token _, _, _ => trivial
  | group d opening closing trees, next, meet => by
      simp only [flatten, List.cons_append, List.append_assoc] at meet
      exact meetAll_of_flattenAll trees _ meet.2 (not_startsAngle_cons (closeText_head d))

theorem meetAll_of_flattenAll : ∀ (trees : List Tree) (next : List Token),
    JointsMeet (flattenAll trees ++ next) → ¬StartsAngle next → MeetAll trees
  | [], _, _, _ => trivial
  | tree :: later, next, meet, ends => by
      simp only [flattenAll, List.append_assoc] at meet
      refine ⟨meets_of_flatten tree _ meet, fun isJoint => ?_,
        meetAll_of_flattenAll later next meet.of_append ends⟩
      cases tree with
      | group => cases isJoint
      | token t =>
          obtain ⟨u, rest, same, starts⟩ := meet.1 isJoint
          cases shape : flattenAll later with
          | nil =>
              rw [shape] at same
              exact absurd ⟨u, rest, same, starts⟩ ends
          | cons first others =>
              rw [shape] at same
              obtain ⟨rfl, -⟩ := List.cons.inj same
              exact ⟨_, others, rfl, starts⟩

end

end Tree

/-! ## Sources -/

/-- Whether a token was scanned in a source. -/
def Token.IsScanned (t : Token) : Prop :=
  ∃ c more kind length, scan c more = .ok (kind, length) ∧
    t = tokenAt kind t.position (c :: more.take length) (more.drop length)

theorem Token.IsScanned.rescans {t : Token} (isScanned : t.IsScanned)
    (notEmpty : t.text ≠ Token.emptyCharacter) : t.Rescans := by
  obtain ⟨c, more, kind, length, scanned, same⟩ := isScanned
  rw [same] at notEmpty ⊢
  exact rescans_tokenAt scanned notEmpty

theorem Token.IsScanned.kind_ne_eof {t : Token} (isScanned : t.IsScanned) : t.kind ≠ .eof := by
  obtain ⟨c, more, kind, length, scanned, same⟩ := isScanned
  rw [same]
  exact scan_ne_eof scanned

/-- A scanned token that has a spelling is that spelling, and it is joint only if it is a `>`. -/
theorem Token.IsScanned.eq_of_spelling {t : Token} (isScanned : t.IsScanned)
    (hasSpelling : t.kind.spelling ≠ []) (notAngle : t.kind ≠ .rangle) :
    t = ⟨t.kind, String.ofList t.kind.spelling, t.position, false⟩ := by
  obtain ⟨c, more, kind, length, scanned, same⟩ := isScanned
  have isKind : t.kind = kind := by rw [same]; rfl
  rw [isKind] at hasSpelling notAngle ⊢
  rw [same, ← text_of_spelling scanned hasSpelling]
  simp [tokenAt, notAngle]

/-- What has the text of an empty character is a character. -/
theorem Token.IsScanned.kind_of_emptyCharacter {t : Token} (isScanned : t.IsScanned)
    (isEmpty : t.text = emptyCharacter) : t.kind = .char := by
  obtain ⟨c, more, kind, length, scanned, same⟩ := isScanned
  have isKind : t.kind = kind := by rw [same]; rfl
  have text : c :: more.take length = ['\'', '\''] := by
    rw [show ['\'', '\''] = emptyCharacter.toList by decide, ← isEmpty, same]
    exact String.toList_ofList.symm
  obtain ⟨rfl, quote⟩ := List.cons.inj text
  have second : more.head? = some '\'' := by
    cases more with
    | nil => simp at quote
    | cons d behind =>
        cases length with
        | zero => simp at quote
        | succ length => rw [← (List.cons.inj quote).1]; rfl
  have isQuote : scan '\'' more = scanSingleQuote more := rfl
  rw [isQuote, scanSingleQuote] at scanned
  split at scanned
  · split at scanned
    · exact isKind.trans (congrArg Prod.fst (Except.ok.inj scanned)).symm
    · cases scanned
  · rw [second, if_neg (by decide)] at scanned
    cases scanned

theorem Token.isScanned_of_alike (t u : Token) (alike : t.unplaced = u.unplaced)
    (isScanned : u.IsScanned) : t.IsScanned := by
  obtain ⟨c, more, kind, length, scanned, same⟩ := isScanned
  refine ⟨c, more, kind, length, scanned, ?_⟩
  rw [← Token.at_position_of_alike alike, same]
  rfl

theorem Token.IsScanned.isSpelled {t : Token} (isScanned : t.IsScanned) : t.IsSpelled := by
  intro d
  constructor
  · intro isOpen
    have spelled := isScanned.eq_of_spelling (by rw [isOpen]; cases d <;> decide)
      (by rw [isOpen]; cases d <;> decide)
    rwa [isOpen] at spelled
  · intro isClose
    have spelled := isScanned.eq_of_spelling (by rw [isClose]; cases d <;> decide)
      (by rw [isClose]; cases d <;> decide)
    rwa [isClose] at spelled

theorem Lexer.Lexed.tokens {start : Position} {cs : List Char} {tokens : List Token}
    (lexed : Lexed start cs tokens) :
    ∃ ts, tokens = ts ++ [Token.atEnd (start.after cs)] ∧ ∀ t ∈ ts, t.IsScanned := by
  induction lexed with
  | finish onlyGap => exact ⟨[], rfl, by simp⟩
  | @token start gap c more kind length tokens isGap scanned rest inductionHypothesis =>
      obtain ⟨ts, rfl, areScanned⟩ := inductionHypothesis
      refine ⟨tokenAt kind (start.after gap) (c :: more.take length) (more.drop length) :: ts,
        ?_, List.forall_mem_cons.2 ⟨⟨c, more, kind, length, scanned, rfl⟩, areScanned⟩⟩
      rw [← Position.after_append, ← Position.after_append, List.cons_append,
        List.take_append_drop]
      rfl

/-- A source that starts with `>` has a token that does. -/
theorem Lexer.Lexed.startsAngle {start : Position} {cs : List Char} {tokens : List Token}
    (lexed : Lexed start cs tokens) (first : cs.head? = some '>') : StartsAngle tokens := by
  obtain ⟨others, rfl⟩ := List.head?_eq_some_iff.1 first
  have noGap : gapLength false ('>' :: others) = 0 := rfl
  generalize shape : '>' :: others = source at lexed
  cases lexed with
  | finish onlyGap =>
      rw [← shape, noGap] at onlyGap
      cases onlyGap
  | @token _ gap c more kind length tokens isGap scanned rest =>
      rw [← shape, noGap] at isGap
      obtain rfl : gap = [] := List.eq_nil_of_length_eq_zero isGap.symm
      obtain ⟨rfl, rfl⟩ := List.cons.inj shape
      exact ⟨_, tokens, rfl, by simp [tokenAt]⟩

theorem Lexer.Lexed.jointsMeet {start : Position} {cs : List Char} {tokens : List Token}
    (lexed : Lexed start cs tokens) : JointsMeet tokens := by
  induction lexed with
  | finish onlyGap => exact ⟨nofun, trivial⟩
  | token isGap scanned rest inductionHypothesis =>
      refine ⟨fun joint => ?_, inductionHypothesis⟩
      simp only [tokenAt, Bool.and_eq_true, decide_eq_true_eq] at joint
      exact rest.startsAngle joint.2

/-- What is known of the trees of a source. -/
structure FromSource (trees : List Tree) : Prop where
  scanned : ∀ t ∈ Tree.leavesAll trees, t.IsScanned
  plain : ∀ t ∈ Tree.leavesAll trees, t.IsPlain
  meet : Tree.MeetAll trees

namespace FromSource

variable {trees : List Tree}

theorem nil : FromSource [] :=
  ⟨nofun, nofun, trivial⟩

theorem append {front back : List Tree} (first : FromSource front) (second : FromSource back) :
    FromSource (front ++ back) where
  scanned := by
    rw [Tree.leavesAll_append]
    exact List.forall_mem_append.2 ⟨first.scanned, second.scanned⟩
  plain := by
    rw [Tree.leavesAll_append]
    exact List.forall_mem_append.2 ⟨first.plain, second.plain⟩
  meet := first.meet.append second.meet

theorem drop (isFrom : FromSource trees) (count : Nat) : FromSource (trees.drop count) where
  scanned t member := isFrom.scanned t (Tree.leavesAll_drop_subset trees count member)
  plain t member := isFrom.plain t (Tree.leavesAll_drop_subset trees count member)
  meet := isFrom.meet.drop count

theorem of_group {d : Delimiter} {opening closing : Position} {inner : List Tree}
    (isFrom : FromSource trees) (isGroup : Tree.group d opening closing inner ∈ trees) :
    FromSource inner where
  scanned t member := isFrom.scanned t (Tree.mem_leavesAll.2 ⟨_, isGroup, member⟩)
  plain t member := isFrom.plain t (Tree.mem_leavesAll.2 ⟨_, isGroup, member⟩)
  meet := isFrom.meet.of_group isGroup

/-- Places do not count. -/
theorem of_alike {trees' : List Tree} (isFrom : FromSource trees')
    (alike : Tree.unplacedAll trees = Tree.unplacedAll trees') : FromSource trees where
  scanned := Tree.leaves_of_alike alike Token.isScanned_of_alike isFrom.scanned
  plain := Tree.leaves_of_alike alike
    (fun _ _ same plain => Grouping.isPlain_of_unplaced same plain) isFrom.plain
  meet := by
    rw [← Tree.meetAll_unplacedAll, alike, Tree.meetAll_unplacedAll]
    exact isFrom.meet

end FromSource

/-- The trees of a source are its tokens, grouped. -/
theorem treesOf_of_tokens {source : String} {tokens : List Token} (lexed : tokenize source = .ok tokens) :
    treesOf source =
      ((groupTokens tokens).mapError .unbalanced).map (·, Position.start.after source.toList) := by
  rw [treesOf, lexed]
  show ((groupTokens tokens).mapError SourceError.unbalanced >>= fun trees =>
    pure (trees, Position.start.after source.toList)) = _
  cases groupTokens tokens <;> rfl

theorem treesOf_eq_ok_iff {source : String} {trees : List Tree} {finish : Position} :
    treesOf source = .ok (trees, finish) ↔
      finish = Position.start.after source.toList ∧
        ∃ tokens, Lexed .start source.toList tokens ∧ groupTokens tokens = .ok trees := by
  constructor
  · intro read
    cases lexed : tokenize source with
    | error fault =>
        rw [treesOf, lexed] at read
        cases read
    | ok tokens =>
        rw [treesOf_of_tokens lexed] at read
        cases grouped : groupTokens tokens with
        | error fault =>
            rw [grouped] at read
            cases read
        | ok trees' =>
            rw [grouped] at read
            cases read
            exact ⟨rfl, tokens, tokensFrom_eq_ok_iff.1 lexed, grouped⟩
  · rintro ⟨rfl, tokens, isLexed, grouped⟩
    rw [treesOf_of_tokens (tokensFrom_eq_ok_iff.2 isLexed), grouped]
    rfl

/-- A source that has no trees has no tokens, or its brackets do not balance. -/
theorem treesOf_eq_error_iff {source : String} {e : SourceError} :
    treesOf source = .error e ↔ (∃ fault, tokenize source = .error fault ∧ e = .lexical fault) ∨
      ∃ tokens fault, tokenize source = .ok tokens ∧ groupTokens tokens = .error fault ∧
        e = .unbalanced fault := by
  constructor
  · intro fails
    cases lexed : tokenize source with
    | error fault =>
        rw [treesOf, lexed] at fails
        exact .inl ⟨fault, rfl, (Except.error.inj fails).symm⟩
    | ok tokens =>
        rw [treesOf_of_tokens lexed] at fails
        cases grouped : groupTokens tokens with
        | error fault =>
            rw [grouped] at fails
            exact .inr ⟨tokens, fault, rfl, grouped, (Except.error.inj fails).symm⟩
        | ok trees =>
            rw [grouped] at fails
            cases fails
  · rintro (⟨fault, lexed, rfl⟩ | ⟨tokens, fault, lexed, grouped, rfl⟩)
    · rw [treesOf, lexed]
      rfl
    · rw [treesOf_of_tokens lexed, grouped]
      rfl

/-- The trees of a source are flattened to its tokens but for the end, which are scanned ones. -/
theorem flattenAll_of_treesOf {source : String} {trees : List Tree} {finish : Position}
    (read : treesOf source = .ok (trees, finish)) :
    Lexed .start source.toList (Tree.flattenAll trees ++ [Token.atEnd finish]) ∧
      (∀ t ∈ Tree.flattenAll trees, t.IsScanned) ∧ ∀ t ∈ Tree.leavesAll trees, t.IsPlain := by
  obtain ⟨rfl, tokens, lexed, grouped⟩ := treesOf_eq_ok_iff.1 read
  obtain ⟨ts, rfl, areScanned⟩ := lexed.tokens
  have spelled : ∀ t ∈ ts ++ [Token.atEnd (Position.start.after source.toList)], t.IsSpelled := by
    intro t member
    rcases List.mem_append.1 member with scanned | atEnd
    · exact (areScanned t scanned).isSpelled
    · obtain rfl := List.mem_singleton.1 atEnd
      intro d
      exact ⟨fun isOpen => absurd isOpen.symm d.openKind_ne_eof,
        fun isClose => absurd isClose.symm d.closeKind_ne_eof⟩
  have noEnd : (ts ++ [Token.atEnd (Position.start.after source.toList)]).takeWhile
      (fun t => t.kind ≠ .eof) = ts := by
    rw [List.takeWhile_append_of_pos fun t member => by
      simpa using (areScanned t member).kind_ne_eof]
    simp [Token.atEnd]
  have flat : Tree.flattenAll trees = ts := by
    rw [Grouping.flattenAll_of_treesFrom spelled grouped, noEnd]
    rfl
  rw [flat]
  exact ⟨lexed, areScanned, Grouping.plain_of_treesFrom ⟨by simp, by simp [Tree.leavesAll]⟩ grouped⟩

theorem fromSource_of_treesOf {source : String} {trees : List Tree} {finish : Position}
    (read : treesOf source = .ok (trees, finish)) : FromSource trees := by
  obtain ⟨lexed, areScanned, plain⟩ := flattenAll_of_treesOf read
  refine ⟨fun t member => areScanned t (Tree.leavesAll_subset_flattenAll trees member), plain, ?_⟩
  exact Tree.meetAll_of_flattenAll trees _ lexed.jointsMeet (not_startsAngle_cons (by simp [Token.atEnd]))

end AttrGrammar
