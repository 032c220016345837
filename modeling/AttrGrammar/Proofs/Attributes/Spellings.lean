import AttrGrammar.Proofs.Attributes.Lists
import AttrGrammar.Proofs.Reading.Payloads
import Mathlib.Data.List.Forall2

/-!
Contract: the value of an attribute means the same in parentheses and behind `=`.

Owns:
- what it takes for each of the two spellings to be read;
- an attribute by itself, which yields one result in both spellings;
- the spellings of the attributes of a list, any of which may be changed.
-/

namespace AttrGrammar

open Cursor Reader

/-- What is read to the end is read as well from the same trees elsewhere. -/
theorem Reader.IsLocal.outcome_whole {α : Type} {r : Reader α} (isLocal : IsLocal r) {c c' : Cursor}
    {v : α} (plain : IsPlainAhead c) (same : c'.rest = c.rest) (isRead : outcome (whole r) c = .ok v) :
    outcome (whole r) c' = .ok v := by
  obtain ⟨d, isRead⟩ := outcome_eq_ok_iff.1 isRead
  obtain ⟨isRead, atEnd⟩ := whole_eq_ok_iff.1 isRead
  have agrees : Agrees .item r r c' c := isLocal.agrees plain
  obtain ⟨count, within, rfl, again⟩ := agrees.reads v d isRead
  have all : c.rest = c.rest ++ [] ∧ Expr.Stops [] := ⟨(List.append_nil _).symm, trivial⟩
  refine outcome_eq_ok_iff.2 ⟨c'.skip count, whole_eq_ok_iff.2 ⟨again ?_, ?_⟩⟩
  · exact ⟨c.rest, [], [], within, all, same.trans all.1, trivial⟩
  · rw [Cursor.skip, same]
    exact atEnd

/-! ## The two spellings -/

namespace Attribute

section Spellings

variable {α : Type} {keyword : String} {payload : Reader α} {a : Attribute α} {c d : Cursor}
  {word : Token} {later : List Tree}

theorem readKeyword_of_token_iff {position : Position} (rest : c.rest = .token word :: later) :
    readKeyword keyword c = .ok position d ↔
      word.isWord keyword ∧ position = word.position ∧ d = c.skip 1 := by
  rw [readKeyword_eq_ok_iff]
  constructor
  · rintro ⟨word', later', rest', isWord, rfl, rfl⟩
    obtain ⟨same, -⟩ := List.cons.inj (rest.symm.trans rest')
    obtain rfl := Tree.token.inj same
    exact ⟨isWord, rfl, rfl⟩
  · rintro ⟨isWord, rfl, rfl⟩
    exact ⟨word, later, rest, isWord, rfl, rfl⟩

/-- A value in parentheses takes all of them. -/
theorem readValue_paren_iff {opening closing : Position} {inner : List Tree}
    (rest : c.rest = .token word :: .group .paren opening closing inner :: later) :
    readValue keyword payload c = .ok a d ↔ word.isWord keyword ∧ d = c.skip 2 ∧
      ∃ v, a = ⟨keyword, word.position, .value v⟩ ∧
        outcome (whole payload) (.ofTrees inner closing) = .ok v := by
  have behind := rest_skip_one rest
  rw [readValue, bind_eq_ok_iff]
  constructor
  · rintro ⟨position, e, isKeyword, isValue⟩
    obtain ⟨isWord, rfl, rfl⟩ := (readKeyword_of_token_iff rest).1 isKeyword
    rw [bind_of_ok (group?_of_group behind)] at isValue
    obtain ⟨v, isInside, rfl⟩ := bind_pure_eq_ok_iff.1 isValue
    obtain ⟨isRead, rfl⟩ := inside_eq_ok_iff.1 isInside
    exact ⟨isWord, skip_skip c 1 1, v, rfl, isRead⟩
  · rintro ⟨isWord, rfl, v, rfl, isRead⟩
    refine ⟨word.position, c.skip 1, (readKeyword_of_token_iff rest).2 ⟨isWord, rfl, rfl⟩, ?_⟩
    rw [bind_of_ok (group?_of_group behind)]
    rw [← skip_skip c 1 1]
    exact bind_pure_eq_ok_iff.2 ⟨v, inside_eq_ok_iff.2 ⟨isRead, rfl⟩, rfl⟩

/-- Behind `=` a value takes as much as it can. -/
theorem readValue_equals_iff {equals : Token} (isEquals : equals.kind = .equals)
    (rest : c.rest = .token word :: .token equals :: later) :
    readValue keyword payload c = .ok a d ↔ word.isWord keyword ∧
      ∃ v, a = ⟨keyword, word.position, .value v⟩ ∧ payload (c.skip 2) = .ok v d := by
  have behind := rest_skip_one rest
  have noGroup : group? .paren (c.skip 1) = .ok none (c.skip 1) := by
    apply group?_of_other
    intro opening closing inner others restAgain
    rw [behind] at restAgain
    cases restAgain
  have isNext : token? .equals (c.skip 1) = .ok (some equals) (c.skip 2) := by
    rw [← isEquals, token?_of_kind behind, skip_skip]
  rw [readValue, bind_eq_ok_iff]
  constructor
  · rintro ⟨position, e, isKeyword, isValue⟩
    obtain ⟨isWord, rfl, rfl⟩ := (readKeyword_of_token_iff rest).1 isKeyword
    rw [bind_of_ok noGroup] at isValue
    obtain ⟨found, f, isFound, isValue⟩ := bind_eq_ok_iff.1 isValue
    rw [isNext] at isFound
    obtain ⟨rfl, rfl⟩ := EStateM.Result.ok.inj isFound
    obtain ⟨v, isRead, rfl⟩ := bind_pure_eq_ok_iff.1 isValue
    exact ⟨isWord, v, rfl, isRead⟩
  · rintro ⟨isWord, v, rfl, isRead⟩
    refine ⟨word.position, c.skip 1, (readKeyword_of_token_iff rest).2 ⟨isWord, rfl, rfl⟩, ?_⟩
    rw [bind_of_ok noGroup]
    refine bind_eq_ok_iff.2 ⟨some equals, c.skip 2, isNext, ?_⟩
    exact bind_pure_eq_ok_iff.2 ⟨v, isRead, rfl⟩

/-- By itself, an attribute with a value yields the same in both spellings. -/
theorem outcome_readValue_iff {equals : Token} (isEquals : equals.kind = .equals)
    (isLocal : IsLocal payload) {inner : List Tree} (plain : ∀ t ∈ Tree.leavesAll inner, t.IsPlain)
    (opening closing finish finish' : Position) :
    outcome (whole (readValue keyword payload))
        (.ofTrees [.token word, .group .paren opening closing inner] finish) = .ok a ↔
      outcome (whole (readValue keyword payload))
        (.ofTrees (.token word :: .token equals :: inner) finish') = .ok a := by
  let enclosed : Cursor := .ofTrees [.token word, .group .paren opening closing inner] finish
  let open' : Cursor := .ofTrees (.token word :: .token equals :: inner) finish'
  have rest : enclosed.rest = .token word :: [.group .paren opening closing inner] := rfl
  have rest' : open'.rest = .token word :: .token equals :: inner := rfl
  have plainInner : IsPlainAhead (.ofTrees inner closing) := plain
  have plainBehind : IsPlainAhead (open'.skip 2) := plain
  rw [outcome_eq_ok_iff, outcome_eq_ok_iff]
  constructor
  · rintro ⟨d, isRead⟩
    obtain ⟨isValue, -⟩ := whole_eq_ok_iff.1 isRead
    obtain ⟨isWord, -, v, rfl, isInner⟩ := (readValue_paren_iff rest).1 isValue
    have isBehind : outcome (whole payload) (open'.skip 2) = .ok v :=
      isLocal.outcome_whole plainInner rfl isInner
    obtain ⟨e, isRead'⟩ := outcome_eq_ok_iff.1 isBehind
    obtain ⟨isPayload, atEnd⟩ := whole_eq_ok_iff.1 isRead'
    exact ⟨e, whole_eq_ok_iff.2
      ⟨(readValue_equals_iff isEquals rest').2 ⟨isWord, v, rfl, isPayload⟩, atEnd⟩⟩
  · rintro ⟨d, isRead⟩
    obtain ⟨isValue, atEnd⟩ := whole_eq_ok_iff.1 isRead
    obtain ⟨isWord, v, rfl, isPayload⟩ := (readValue_equals_iff isEquals rest').1 isValue
    have isBehind : outcome (whole payload) (open'.skip 2) = .ok v :=
      outcome_eq_ok_iff.2 ⟨d, whole_eq_ok_iff.2 ⟨isPayload, atEnd⟩⟩
    have isInner : outcome (whole payload) (.ofTrees inner closing) = .ok v :=
      isLocal.outcome_whole plainBehind rfl isBehind
    exact ⟨enclosed.skip 2, whole_eq_ok_iff.2
      ⟨(readValue_paren_iff rest).2 ⟨isWord, rfl, v, rfl, isInner⟩, rfl⟩⟩

/-- In a list, an attribute whose value is in parentheses may have it behind `=`. -/
theorem readsItem_equals {equals : Token} (isEquals : equals.kind = .equals) (isLocal : IsLocal payload)
    {opening closing : Position} {inner : List Tree} (plain : ∀ t ∈ Tree.leavesAll inner, t.IsPlain)
    (reads : ReadsItem (readValue keyword payload)
      [.token word, .group .paren opening closing inner] a) :
    ReadsItem (readValue keyword payload) (.token word :: .token equals :: inner) a := by
  let enclosed : Cursor := .ofTrees [.token word, .group .paren opening closing inner] ⟨1, 1⟩
  have rest : enclosed.rest = .token word :: [.group .paren opening closing inner] := rfl
  have isValue := reads.2 enclosed [] rest trivial
  obtain ⟨isWord, -, v, rfl, isInner⟩ := (readValue_paren_iff rest).1 isValue
  obtain ⟨d, isRead⟩ := outcome_eq_ok_iff.1 isInner
  obtain ⟨isPayload, atEnd⟩ := whole_eq_ok_iff.1 isRead
  have plainInner : IsPlainAhead (.ofTrees inner closing) := plain
  obtain ⟨item, readsInner, isItem, -⟩ :=
    isLocal.exists_item plainInner isPayload (by rw [atEnd]; trivial)
  rw [atEnd, List.append_nil] at isItem
  obtain rfl : inner = item := isItem
  refine ⟨nofun, fun c behind shape stops => ?_⟩
  rw [readValue_equals_iff isEquals shape]
  refine ⟨isWord, v, rfl, ?_⟩
  have isNext : (c.skip 2).rest = inner ++ behind := by
    simp [Cursor.skip, shape]
  rw [readsInner.2 (c.skip 2) behind isNext stops, skip_skip, List.length_cons, List.length_cons,
    Nat.add_comm 2]

end Spellings

end Attribute

/-! ## Lists -/

namespace AttrSet

/-- How the trees of an attribute of a set may be spelled otherwise: not at all, or with the value that is in
parentheses behind `=`. -/
inductive Respelled (s : AttrSet Payload) : List Tree → List Tree → Prop where
  | same (item : List Tree) : Respelled s item item
  | equals {word equals : Token} {p : Payload} (opening closing : Position) (inner : List Tree)
      (isIdent : word.kind = .ident) (isValue : s.find? word.text = some ⟨word.text, .value p⟩)
      (isEquals : equals.kind = .equals) :
      Respelled s [.token word, .group .paren opening closing inner]
        (.token word :: .token equals :: inner)

/-- Whether trees are by themselves an attribute of a set, which yields a node. -/
def Yields (s : AttrSet Payload) (item : List Tree) (node : Parsed) : Prop :=
  ∀ finish, (Grammar.attrs (s.map .payload)).parseTrees item finish = .ok node

section Lists

variable {s : AttrSet Payload} {item item' : List Tree} {a : Attribute PayloadValue}

theorem parseTrees_attrs (item : List Tree) (finish : Position) :
    (Grammar.attrs (s.map .payload)).parseTrees item finish =
      (outcome (whole s.read) (.ofTrees item finish)).map Attribute.parsed := by
  rw [Grammar.parseTrees_eq, Grammar.read_attrs, map_whole, outcome_map]

/-- An attribute that is respelled is read as the same attribute. -/
theorem readsItem_of_respelled (respelled : s.Respelled item item')
    (plain : ∀ t ∈ Tree.leavesAll item, t.IsPlain) (reads : ReadsItem s.read item a) :
    ReadsItem s.read item' a := by
  cases respelled with
  | same => exact reads
  | @equals word equals p opening closing inner isIdent isValue isEquals =>
      have readsBy {c : Cursor} {later : List Tree} (rest : c.rest = .token word :: later) :
          s.read c = Attribute.readValue word.text p.read c := by
        refine readByKeyword_of_known rest isIdent ?_
        rw [isValue]
        rfl
      have plainInner : ∀ t ∈ Tree.leavesAll inner, t.IsPlain := by
        intro t member
        apply plain t
        simpa [Tree.leavesAll, Tree.leaves] using .inr member
      have inParens : ReadsItem (Attribute.readValue word.text p.read)
          [.token word, .group .paren opening closing inner] a := by
        refine ⟨List.cons_ne_nil _ _, fun c behind rest stops => ?_⟩
        rw [← readsBy rest]
        exact reads.2 c behind rest stops
      have behindEquals := Attribute.readsItem_equals isEquals p.isLocal_read plainInner inParens
      refine ⟨List.cons_ne_nil _ _, fun c behind rest stops => ?_⟩
      rw [readsBy rest]
      exact behindEquals.2 c behind rest stops

theorem yields_of_readsItem (reads : ReadsItem s.read item a) : s.Yields item a.parsed := by
  intro finish
  have isRead := reads.2 (.ofTrees item finish) [] (List.append_nil item).symm trivial
  have all : outcome (whole s.read) (.ofTrees item finish) = .ok a :=
    outcome_eq_ok_iff.2 ⟨_, whole_eq_ok_iff.2 ⟨isRead, List.drop_length ..⟩⟩
  rw [parseTrees_attrs, all]
  rfl

theorem exists_of_yields (plain : ∀ t ∈ Tree.leavesAll item, t.IsPlain) {node : Parsed}
    (isNode : s.Yields item node) : ∃ a : Attribute PayloadValue, a.parsed = node ∧
      ReadsItem s.read item a := by
  have accepted := isNode ⟨1, 1⟩
  rw [parseTrees_attrs] at accepted
  obtain ⟨a, isRead, rfl⟩ := exists_of_map_eq_ok accepted
  obtain ⟨d, isRead⟩ := outcome_eq_ok_iff.1 isRead
  obtain ⟨isRead, atEnd⟩ := whole_eq_ok_iff.1 isRead
  have plainHere : IsPlainAhead (.ofTrees item ⟨1, 1⟩) := plain
  obtain ⟨item', reads, isItem, -⟩ :=
    s.isLocal_read.exists_item plainHere isRead (by rw [atEnd]; trivial)
  rw [atEnd, List.append_nil] at isItem
  obtain rfl : item = item' := isItem
  exact ⟨a, rfl, reads⟩

theorem exists_entries_of_yields {items : List (List Tree)} {nodes : List Parsed}
    (plain : ∀ item ∈ items, ∀ t ∈ Tree.leavesAll item, t.IsPlain)
    (areNodes : List.Forall₂ s.Yields items nodes) :
    ∃ entries : List (List Tree × Attribute PayloadValue), entries.map Prod.fst = items ∧
      (entries.map Prod.snd).map Attribute.parsed = nodes ∧
      ∀ entry ∈ entries, ReadsItem s.read entry.1 entry.2 := by
  induction areNodes with
  | nil => exact ⟨[], rfl, rfl, List.forall_mem_nil _⟩
  | @cons item node items nodes isNode areNodes inductionHypothesis =>
      obtain ⟨plainHere, plainLater⟩ := List.forall_mem_cons.1 plain
      obtain ⟨a, rfl, reads⟩ := exists_of_yields plainHere isNode
      obtain ⟨entries, rfl, rfl, readsLater⟩ := inductionHypothesis plainLater
      exact ⟨(item, a) :: entries, rfl, rfl, List.forall_mem_cons.2 ⟨reads, readsLater⟩⟩

/-- Items that are respelled are the same attributes. -/
theorem exists_respelled {entries : List (List Tree × Attribute PayloadValue)} {items' : List (List Tree)}
    (plain : ∀ entry ∈ entries, ∀ t ∈ Tree.leavesAll entry.1, t.IsPlain)
    (reads : ∀ entry ∈ entries, ReadsItem s.read entry.1 entry.2)
    (respelled : List.Forall₂ s.Respelled (entries.map Prod.fst) items') :
    ∃ entries' : List (List Tree × Attribute PayloadValue), entries'.map Prod.fst = items' ∧
      entries'.map Prod.snd = entries.map Prod.snd ∧
      ∀ entry ∈ entries', ReadsItem s.read entry.1 entry.2 := by
  induction entries generalizing items' with
  | nil =>
      cases respelled
      exact ⟨[], rfl, rfl, List.forall_mem_nil _⟩
  | cons entry later inductionHypothesis =>
      cases respelled with
      | @cons _ item' _ later' first behind =>
          obtain ⟨plainHere, plainLater⟩ := List.forall_mem_cons.1 plain
          obtain ⟨readsHere, readsLater⟩ := List.forall_mem_cons.1 reads
          obtain ⟨entries', rfl, sameAttributes, readsAgain⟩ :=
            inductionHypothesis plainLater readsLater behind
          have readsFirst : ReadsItem s.read item' entry.2 :=
            readsItem_of_respelled first plainHere readsHere
          refine ⟨(item', entry.2) :: entries', rfl, ?_,
            List.forall_mem_cons.2 ⟨readsFirst, readsAgain⟩⟩
          rw [List.map_cons, List.map_cons, sameAttributes]

/-- Where the items of a list are attributes by themselves, any of them may be respelled. -/
theorem parseTrees_of_respelled {items items' : List (List Tree)} {nodes : List Parsed} {trees' : List Tree}
    (plain : ∀ item ∈ items, ∀ t ∈ Tree.leavesAll item, t.IsPlain)
    (areNodes : List.Forall₂ s.Yields items nodes) (respelled : List.Forall₂ s.Respelled items items')
    (separated' : Separated items' trees') (finish' : Position) :
    s.listGrammar.parseTrees trees' finish' = .ok (.terminated nodes) := by
  obtain ⟨entries, rfl, rfl, reads⟩ := exists_entries_of_yields plain areNodes
  have plainEntries : ∀ entry ∈ entries, ∀ t ∈ Tree.leavesAll entry.1, t.IsPlain :=
    fun entry member => plain entry.1 (List.mem_map_of_mem member)
  obtain ⟨entries', rfl, sameAttributes, readsAgain⟩ := exists_respelled plainEntries reads respelled
  rw [parseTrees_of_separated readsAgain separated', sameAttributes]
  rfl

end Lists

end AttrSet

/-! ## Both spellings, by themselves and in lists -/

/-- What is read as a payload that is spliced has trees to be spliced as. -/
theorem Payload.exists_splice_of_read {p : Payload} (isSpliced : p.isSpliced) {c d : Cursor}
    {v : PayloadValue} (isRead : p.read c = .ok v d) : ∃ trees, v.splice? = some trees := by
  cases p with
  | identTypeMaybeDefault => cases isSpliced
  | fieldValue => cases isSpliced
  | lit | expr | type | ident | identPatType =>
      obtain ⟨x, -, rfl⟩ := bind_pure_eq_ok_iff.1 isRead
      exact ⟨_, rfl⟩

theorem Grammar.parseTrees_value (keyword : String) (p : Payload) (trees : List Tree)
    (finish : Position) :
    (Grammar.node ⟨keyword, .value (.payload p)⟩).parseTrees trees finish =
      (outcome (whole (Attribute.readValue keyword p.read)) (.ofTrees trees finish)).map
        Attribute.parsed := by
  have reads : Grammar.read (.node ⟨keyword, .value (.payload p)⟩) =
      Attribute.parsed <$> Attribute.readValue keyword p.read :=
    Grammar.read_node ⟨keyword, .value p⟩
  rw [Grammar.parseTrees_eq, reads, map_whole, outcome_map]

/-- The two spellings of the value of an attribute are interchangeable. By itself, the attribute is accepted in
both spellings or in neither, and it yields one result, which has trees to be spliced as if its payload has. A list
of attributes that is accepted has items that are attributes by themselves, and whichever of their values in
parentheses are put behind `=`, the list is accepted and yields the same. -/
theorem value_spellings :
    (∀ (keyword : String) (p : Payload) (word equals : Token) (inner : List Tree)
      (opening closing finish finish' : Position) (node : Parsed), equals.kind = .equals →
      (∀ t ∈ Tree.leavesAll inner, t.IsPlain) →
        let g := Grammar.node ⟨keyword, .value (.payload p)⟩
        let inParens := [.token word, .group .paren opening closing inner]
        let behindEquals := .token word :: .token equals :: inner
        (g.parseTrees inParens finish = .ok node ↔ g.parseTrees behindEquals finish' = .ok node) ∧
        (g.parseTrees inParens finish = .ok node → p.isSpliced →
          ∃ trees, node.splice? = some trees)) ∧
    (∀ (s : AttrSet Payload) (trees : List Tree) (finish : Position) (nodes : List Parsed),
      (∀ t ∈ Tree.leavesAll trees, t.IsPlain) →
      s.listGrammar.parseTrees trees finish = .ok (.terminated nodes) →
        (∃ items, Separated items trees ∧ List.Forall₂ s.Yields items nodes) ∧
        ∀ items items' trees' finish', Separated items trees → List.Forall₂ s.Yields items nodes →
          List.Forall₂ s.Respelled items items' → Separated items' trees' →
            s.listGrammar.parseTrees trees' finish' = .ok (.terminated nodes)) := by
  constructor
  · intro keyword p word equals inner opening closing finish finish' node isEquals plain g inParens
      behindEquals
    have same (a : Attribute PayloadValue) :
        outcome (whole (Attribute.readValue keyword p.read)) (.ofTrees inParens finish) = .ok a ↔
          outcome (whole (Attribute.readValue keyword p.read)) (.ofTrees behindEquals finish') =
            .ok a :=
      Attribute.outcome_readValue_iff isEquals p.isLocal_read plain opening closing finish finish'
    rw [Grammar.parseTrees_value, Grammar.parseTrees_value]
    constructor
    · constructor
      · intro accepted
        obtain ⟨a, isRead, rfl⟩ := exists_of_map_eq_ok accepted
        rw [(same a).1 isRead]
        rfl
      · intro accepted
        obtain ⟨a, isRead, rfl⟩ := exists_of_map_eq_ok accepted
        rw [(same a).2 isRead]
        rfl
    · intro accepted isSpliced
      obtain ⟨a, isRead, rfl⟩ := exists_of_map_eq_ok accepted
      obtain ⟨d, isRead⟩ := outcome_eq_ok_iff.1 isRead
      obtain ⟨isValue, -⟩ := whole_eq_ok_iff.1 isRead
      obtain ⟨-, -, v, rfl, isInner⟩ := (Attribute.readValue_paren_iff rfl).1 isValue
      obtain ⟨e, isInner⟩ := outcome_eq_ok_iff.1 isInner
      exact Payload.exists_splice_of_read isSpliced (whole_eq_ok_iff.1 isInner).1
  · intro s trees finish nodes plain accepted
    constructor
    · obtain ⟨entries, reads, separated, rfl⟩ := AttrSet.exists_entries plain accepted
      refine ⟨entries.map Prod.fst, separated, ?_⟩
      rw [List.map_map, List.forall₂_map_left_iff, List.forall₂_map_right_iff, List.forall₂_same]
      exact fun entry member => AttrSet.yields_of_readsItem (reads entry member)
    · intro items items' trees' finish' separated areNodes respelled separated'
      have plainItems : ∀ item ∈ items, ∀ t ∈ Tree.leavesAll item, t.IsPlain :=
        fun item member t isLeaf => plain t (separated.leaves_subset member isLeaf)
      exact AttrSet.parseTrees_of_respelled plainItems areNodes respelled separated' finish'

/-- The closure `|a, b| a` is the value of `map(|a, b| a)` and of `map = |a, b| a`, and it is so in front of
`count(n)` and `count = n`. Its comma ends no attribute. -/
theorem value_spellings_closure :
    let g := Grammar.node ⟨"map", .value (.payload .expr)⟩
    let field := BuiltinSet.field.set
    let map : Token := .word "map" ⟨1, 1⟩
    let count : Token := .word "count" ⟨1, 16⟩
    let equals : Token := ⟨.equals, "=", ⟨1, 5⟩, false⟩
    let comma : Token := ⟨.comma, ",", ⟨1, 14⟩, false⟩
    let closure : List Tree :=
      [.token ⟨.pipe, "|", ⟨1, 5⟩, false⟩, .token (.word "a" ⟨1, 6⟩),
        .token ⟨.comma, ",", ⟨1, 7⟩, false⟩, .token (.word "b" ⟨1, 9⟩),
        .token ⟨.pipe, "|", ⟨1, 10⟩, false⟩, .token (.word "a" ⟨1, 12⟩)]
    let inParens : List Tree := [.token map, .group .paren ⟨1, 4⟩ ⟨1, 13⟩ closure]
    let behindEquals : List Tree := .token map :: .token equals :: closure
    let counted : List Tree :=
      [.token count, .group .paren ⟨1, 21⟩ ⟨1, 23⟩ [.token (.word "n" ⟨1, 22⟩)]]
    let countedBehind : List Tree := [.token count, .token equals, .token (.word "n" ⟨1, 22⟩)]
    (∃ node trees, g.parseTrees inParens ⟨1, 14⟩ = .ok node ∧
      g.parseTrees behindEquals ⟨1, 13⟩ = .ok node ∧ node.splice? = some trees) ∧
    ∃ first second, field.listGrammar.parseTrees (inParens ++ .token comma :: counted) ⟨1, 24⟩ =
        .ok (.terminated [first, second]) ∧
      field.listGrammar.parseTrees (behindEquals ++ .token comma :: countedBehind) ⟨1, 23⟩ =
        .ok (.terminated [first, second]) := by
  intro g field map count equals comma closure inParens behindEquals counted countedBehind
  have plainClosure : ∀ t ∈ Tree.leavesAll closure, t.IsPlain := by
    decide
  have plainList : ∀ t ∈ Tree.leavesAll (inParens ++ .token comma :: counted), t.IsPlain := by
    decide
  constructor
  · have accepted : g.parseTrees inParens ⟨1, 14⟩ = .ok _ := rfl
    obtain ⟨same, spliced⟩ := value_spellings.1 "map" .expr map equals closure ⟨1, 4⟩ ⟨1, 13⟩ ⟨1, 14⟩
      ⟨1, 13⟩ _ rfl plainClosure
    obtain ⟨trees, isSplice⟩ := spliced accepted rfl
    exact ⟨_, trees, accepted, same.1 accepted, isSplice⟩
  · have accepted : field.listGrammar.parseTrees (inParens ++ .token comma :: counted) ⟨1, 24⟩ =
        .ok (.terminated [_, _]) := rfl
    obtain ⟨-, respell⟩ := value_spellings.2 field _ ⟨1, 24⟩ _ plainList accepted
    refine ⟨_, _, accepted, respell [inParens, counted] [behindEquals, countedBehind] _ ⟨1, 23⟩
      (.cons inParens rfl (.last counted)) ?_ ?_ (.cons behindEquals rfl (.last countedBehind))⟩
    · exact .cons (fun _ => rfl) (.cons (fun _ => rfl) .nil)
    · exact .cons (.equals _ _ closure rfl rfl rfl) (.cons (.equals _ _ _ rfl rfl rfl) .nil)

end AttrGrammar
