import AttrGrammar.Proofs.Attributes.Locality
import AttrGrammar.Proofs.Attributes.Sets
import AttrGrammar.Proofs.Reading.Outcomes
import AttrGrammar.Proofs.Reading.Rejections

/-!
Contract: lists of attributes, taken apart and put together.

Owns:
- the items of a list that is read, each of which is read by itself;
- a list behind a list and a comma, which is read as if it stood alone, errors included;
- what the grammar of lists of a set yields.

Does not own: what the items look like.
-/

namespace AttrGrammar

open Cursor

theorem Tree.leavesAll_append_comma {front back : List Tree} {comma : Token}
    (plainFront : ∀ t ∈ leavesAll front, t.IsPlain) (plainBack : ∀ t ∈ leavesAll back, t.IsPlain)
    (isComma : comma.kind = .comma) :
    ∀ t ∈ leavesAll (front ++ .token comma :: back), t.IsPlain := by
  intro t member
  rcases List.mem_append.1 (leavesAll_append _ _ ▸ member) with inFront | behind
  · exact plainFront t inFront
  · rcases List.mem_cons.1 behind with rfl | inBack
    · simp [Token.IsPlain, isComma, Delimiter.ofOpen?, Delimiter.ofClose?]
    · exact plainBack t inBack

namespace Reader

/-! ## Outcomes -/

section Outcomes

variable {α : Type} {r r' : Reader α} {c c' : Cursor}

/-- Readers that agree have one outcome where all that is ahead is the same. -/
theorem Agrees.outcome_eq (agrees : Agrees .all r' r c' c) (level : Level c c') :
    outcome r' c' = outcome r c := by
  cases result : r c with
  | ok v d =>
      obtain ⟨count, -, -, again⟩ := agrees.reads v d result
      rw [outcome, outcome, result, again level]
  | error failure d =>
      obtain ⟨d', fails⟩ := agrees.fails failure d result level
      rw [outcome, outcome, result, fails]

end Outcomes

/-! ## Taking lists apart -/

section Apart

variable {α : Type} {r : Reader α} {c d : Cursor} {v : α}

/-- What is read as an item where one may end behind it is read as that item everywhere. -/
theorem IsLocal.exists_item (isLocal : IsLocal r) (plain : IsPlainAhead c) (isRead : r c = .ok v d)
    (stops : Expr.Stops d.rest) :
    ∃ item, ReadsItem r item v ∧ c.rest = item ++ d.rest ∧ d = c.skip item.length := by
  have here : Agrees .item r r c c := isLocal.agrees plain
  obtain ⟨count, within, rfl, -⟩ := here.reads v d isRead
  have length : (c.rest.take count).length = count := by
    rw [List.length_take]
    omega
  refine ⟨c.rest.take count, ⟨?_, fun c' rest shape stops' => ?_⟩, ?_, ?_⟩
  · intro nothing
    rw [nothing, List.length_nil] at length
    rw [← length, skip_zero] at stops
    exact isLocal.starts isRead stops
  · have across : Agrees .item r r c' c := isLocal.agrees plain
    obtain ⟨count', within', same, again⟩ := across.reads v _ isRead
    obtain rfl := skip_inj within within' same
    rw [length]
    exact again ⟨c.rest.take count, c.rest.drop count, rest, Nat.le_of_eq length.symm,
      ⟨(List.take_append_drop count c.rest).symm, stops⟩, shape, stops'⟩
  · exact (List.take_append_drop count c.rest).symm
  · rw [length]

/-- What it takes for a list to be read: it is empty, or its first item is read, and behind that nothing is left, or
a comma and further items. -/
theorem itemsUpTo_eq_ok {count : Nat} {vs : List α} (isRead : itemsUpTo r (count + 1) c = .ok vs d) :
    (c.rest = [] ∧ vs = [] ∧ d = c) ∨ c.rest ≠ [] ∧ ∃ v e, r c = .ok v e ∧
      ((e.rest = [] ∧ vs = [v] ∧ d = e) ∨ ∃ comma later ws, e.rest = .token comma :: later ∧
        comma.kind = .comma ∧ itemsUpTo r count (e.skip 1) = .ok ws d ∧ vs = v :: ws) := by
  cases rest : c.rest with
  | nil =>
      rw [itemsUpTo_nil _ rest] at isRead
      obtain ⟨rfl, rfl⟩ := EStateM.Result.ok.inj isRead
      exact .inl ⟨rfl, rfl, rfl⟩
  | cons tree others =>
      refine .inr ⟨nofun, ?_⟩
      have notEmpty : c.rest ≠ [] := by
        rw [rest]
        nofun
      cases isFirst : r c with
      | error failure e =>
          rw [itemsUpTo_of_error notEmpty isFirst] at isRead
          cases isRead
      | ok v e =>
          refine ⟨v, e, rfl, ?_⟩
          rw [itemsUpTo_succ notEmpty isFirst, Cursor.isEmpty] at isRead
          cases restE : e.rest with
          | nil =>
              rw [restE] at isRead
              obtain ⟨rfl, rfl⟩ := EStateM.Result.ok.inj isRead
              exact .inl ⟨rfl, rfl, rfl⟩
          | cons tree' others' =>
              rw [restE] at isRead
              obtain ⟨comma, f, isComma, behind⟩ := bind_eq_ok_iff.1 isRead
              obtain ⟨ws, areLater, rfl⟩ := bind_pure_eq_ok_iff.1 behind
              obtain ⟨later, restComma, kind, rfl⟩ := expect_eq_ok isComma
              exact .inr ⟨comma, later, ws, restE.symm.trans restComma, kind, areLater, rfl⟩

/-- A list that is read consists of items that are read by themselves, and all of it is consumed. -/
theorem IsLocal.exists_entries (isLocal : IsLocal r) (count : Nat) {c d : Cursor} {vs : List α}
    (plain : IsPlainAhead c) (enough : c.rest.length ≤ count) (isRead : itemsUpTo r count c = .ok vs d) :
    ∃ entries : List (List Tree × α), (∀ entry ∈ entries, ReadsItem r entry.1 entry.2) ∧
      Separated (entries.map Prod.fst) c.rest ∧ entries.map Prod.snd = vs ∧ d.rest = [] := by
  induction count generalizing c d vs with
  | zero =>
      have atEnd : c.rest = [] := List.length_eq_zero_iff.1 (Nat.le_zero.1 enough)
      obtain ⟨rfl, rfl⟩ := EStateM.Result.ok.inj isRead
      refine ⟨[], nofun, ?_, rfl, atEnd⟩
      rw [atEnd]
      exact .nil
  | succ count inductionHypothesis =>
      rcases itemsUpTo_eq_ok isRead with ⟨atEnd, rfl, rfl⟩ | ⟨notEmpty, v, e, isFirst, behind⟩
      · refine ⟨[], nofun, ?_, rfl, atEnd⟩
        rw [atEnd]
        exact .nil
      rcases behind with ⟨atEnd, rfl, rfl⟩ | ⟨comma, later, ws, restE, isComma, areLater, rfl⟩
      · obtain ⟨item, readsItem, rest, -⟩ :=
          isLocal.exists_item plain isFirst (by rw [atEnd]; trivial)
        rw [atEnd, List.append_nil] at rest
        refine ⟨[(item, v)], ?_, ?_, rfl, atEnd⟩
        · intro entry member
          rw [List.mem_singleton.1 member]
          exact readsItem
        · rw [rest]
          exact .last item
      · obtain ⟨item, readsItem, rest, skipped⟩ :=
          isLocal.exists_item plain isFirst (by rw [restE]; exact decide_eq_true isComma)
        have behindComma := rest_skip_one restE
        have plainBehind : IsPlainAhead (e.skip 1) := by
          rw [skipped]
          exact (plain.skip item.length).skip 1
        have shorter : (e.skip 1).rest.length ≤ count := by
          rw [rest, restE, List.length_append, List.length_cons] at enough
          rw [behindComma]
          omega
        obtain ⟨entries, reads, separated, rfl, atEnd⟩ :=
          inductionHypothesis plainBehind shorter areLater
        refine ⟨(item, v) :: entries, List.forall_mem_cons.2 ⟨readsItem, reads⟩, ?_, rfl, atEnd⟩
        rw [behindComma] at separated
        rw [rest, restE]
        exact .cons item isComma separated

/-- All of a list that is read is consumed. -/
theorem IsLocal.outcome_whole_terminated (isLocal : IsLocal r) (plain : IsPlainAhead c) :
    outcome (whole (terminated r)) c = outcome (terminated r) c := by
  cases result : terminated r c with
  | ok vs d =>
      obtain ⟨-, -, -, -, atEnd⟩ :=
        isLocal.exists_entries c.rest.length plain (Nat.le_refl _) result
      have all : whole (terminated r) c = .ok vs d := whole_eq_ok_iff.2 ⟨result, atEnd⟩
      rw [outcome, outcome, all, result]
  | error failure d =>
      have fails : whole (terminated r) c = .error failure d := bind_eq_error_iff.2 (.inl result)
      rw [outcome, outcome, fails, result]

end Apart

/-! ## Putting lists together -/

section Together

variable {α : Type} {r : Reader α} {c d : Cursor} {v : α}

/-- Behind the items of a list and a comma the rest is read as if it stood alone. -/
theorem outcome_itemsUpTo_append {comma : Token} (isComma : comma.kind = .comma) {back : List Tree}
    {count : Nat} {entries : List (List Tree × α)}
    (reads : ∀ entry ∈ entries, ReadsItem r entry.1 entry.2) :
    ∀ {front : List Tree} {c : Cursor}, Separated (entries.map Prod.fst) front → front ≠ [] →
      (∀ before last, front = before ++ [last] → last.isComma = false) →
        c.rest = front ++ .token comma :: back →
          outcome (itemsUpTo r (entries.length + count)) c =
            (outcome (itemsUpTo r count) (c.skip (front.length + 1))).map
              (entries.map Prod.snd ++ ·) := by
  induction entries with
  | nil =>
      intro front c separated notEmpty _ _
      cases separated
      exact absurd rfl notEmpty
  | cons entry entries inductionHypothesis =>
      intro front c separated notEmpty noComma rest
      obtain ⟨⟨notNil, readsHere⟩, readsLater⟩ := List.forall_mem_cons.1 reads
      have notAtEnd : c.rest ≠ [] := by simp [rest]
      rw [List.length_cons, Nat.succ_add]
      rcases separated_cons separated with ⟨noMore, rfl⟩ | ⟨between, later, isBetween, rfl, behind⟩
      · obtain rfl := List.map_eq_nil_iff.1 noMore
        have first := readsHere c (.token comma :: back) rest (decide_eq_true isComma)
        have atComma : (c.skip entry.1.length).rest = .token comma :: back := by
          simp [Cursor.skip, rest]
        rw [outcome_itemsUpTo_comma notAtEnd first atComma isComma, skip_skip, List.length_nil,
          Nat.zero_add]
        rfl
      · have shape : c.rest = entry.1 ++ .token between :: (later ++ .token comma :: back) := by
          rw [rest, List.append_assoc, List.cons_append]
        have first := readsHere c _ shape (decide_eq_true isBetween)
        have atComma : (c.skip entry.1.length).rest =
            .token between :: (later ++ .token comma :: back) := by
          simp [Cursor.skip, shape]
        have someLater : later ≠ [] := by
          rintro rfl
          have isLast := noComma entry.1 (.token between) rfl
          rw [show (Tree.token between).isComma = true from decide_eq_true isBetween] at isLast
          cases isLast
        have noCommaLater : ∀ before last, later = before ++ [last] → last.isComma = false := by
          rintro before last rfl
          exact noComma (entry.1 ++ .token between :: before) last (by simp)
        have sameCount : entry.1.length + (1 + (later.length + 1)) =
            entry.1.length + (later.length + 1) + 1 := by
          omega
        rw [outcome_itemsUpTo_comma notAtEnd first atComma isBetween,
          inductionHypothesis readsLater behind someLater noCommaLater (rest_skip_one atComma),
          skip_skip, skip_skip, List.length_append, List.length_cons, sameCount]
        cases outcome (itemsUpTo r count) (c.skip (entry.1.length + (later.length + 1) + 1)) <;> rfl

/-- The outcome of a list depends on what is ahead, and not on how many more items there might be. -/
theorem IsLocal.outcome_itemsUpTo (isLocal : IsLocal r) {c' : Cursor} {count : Nat}
    (plain : IsPlainAhead c) (level : Level c c') (enough : c.rest.length ≤ count) :
    outcome (itemsUpTo r count) c' = outcome (terminated r) c :=
  (isLocal.agrees_itemsUpTo c.rest.length count plain (Nat.le_refl _) enough).outcome_eq level

/-- A list behind a list and a comma is read as if it stood alone. -/
theorem IsLocal.outcome_terminated_append (isLocal : IsLocal r) {front back : List Tree}
    {comma : Token} {finish finish' : Position} {vs : List α}
    (plainFront : ∀ t ∈ Tree.leavesAll front, t.IsPlain)
    (plainBack : ∀ t ∈ Tree.leavesAll back, t.IsPlain) (isComma : comma.kind = .comma)
    (notEmpty : front ≠ []) (noComma : (front.getLast notEmpty).isComma = false)
    (accepted : outcome (terminated r) (.ofTrees front finish) = .ok vs) :
    outcome (terminated r) (.ofTrees (front ++ .token comma :: back) finish') =
      (outcome (terminated r) (.ofTrees back finish')).map (vs ++ ·) := by
  have plainHere : IsPlainAhead (.ofTrees front finish) := plainFront
  obtain ⟨d, isRead⟩ := outcome_eq_ok_iff.1 accepted
  obtain ⟨entries, reads, separated, rfl, -⟩ :=
    isLocal.exists_entries front.length plainHere (Nat.le_refl _) isRead
  have separated : Separated (entries.map Prod.fst) front := separated
  let c : Cursor := .ofTrees (front ++ .token comma :: back) finish'
  have plain : IsPlainAhead c := Tree.leavesAll_append_comma plainFront plainBack isComma
  have noCommaLast : ∀ before last, front = before ++ [last] → last.isComma = false := by
    rintro before last rfl
    rwa [List.getLast_concat] at noComma
  have plainBehind : IsPlainAhead (.ofTrees back finish') := plainBack
  have enough : c.rest.length ≤ entries.length + c.rest.length := Nat.le_add_left _ _
  have enoughBehind : (Cursor.ofTrees back finish').rest.length ≤ c.rest.length := by
    show back.length ≤ (front ++ .token comma :: back).length
    rw [List.length_append, List.length_cons]
    omega
  have behind : Level (.ofTrees back finish') (c.skip (front.length + 1)) := by
    constructor
    · simp [c, Cursor.ofTrees, Cursor.skip]
    · rfl
  rw [← isLocal.outcome_itemsUpTo plain (.refl c) enough,
    outcome_itemsUpTo_append isComma reads separated notEmpty noCommaLast rfl,
    isLocal.outcome_itemsUpTo plainBehind behind enoughBehind]

end Together

end Reader

open Reader

namespace AttrSet

section Lists

variable {s : AttrSet Payload}

/-- The grammar of lists of a set yields the attributes that are read by the set. -/
theorem parseTrees_listGrammar {trees : List Tree} (plain : ∀ t ∈ Tree.leavesAll trees, t.IsPlain)
    (finish : Position) : s.listGrammar.parseTrees trees finish =
      (outcome (terminated s.read) (.ofTrees trees finish)).map Attribute.parsedList := by
  have plainHere : IsPlainAhead (.ofTrees trees finish) := plain
  rw [Grammar.parseTrees_eq, s.read_listGrammar, map_whole, outcome_map,
    s.isLocal_read.outcome_whole_terminated plainHere]

/-- The attributes of a source are what the grammar of lists yields. -/
theorem parseAttributes_of_trees {source : String} {trees : List Tree} {finish : Position}
    (areTrees : treesOf source = .ok (trees, finish)) :
    parseAttributes (.attrs (s.map .payload)) source =
      ((s.listGrammar.parseTrees trees finish).mapError SourceFailure.failure).map Parsed.attributes := by
  rw [parseAttributes, ← listGrammar, Grammar.parse_of_trees areTrees]

/-- Items that are attributes of a set are the attributes that the grammar of lists yields. -/
theorem parseTrees_of_separated {entries : List (List Tree × Attribute PayloadValue)}
    (reads : ∀ entry ∈ entries, ReadsItem s.read entry.1 entry.2) {trees : List Tree}
    (separated : Separated (entries.map Prod.fst) trees) (finish : Position) :
    s.listGrammar.parseTrees trees finish = .ok (Attribute.parsedList (entries.map Prod.snd)) := by
  let c : Cursor := .ofTrees trees finish
  have isRead : terminated s.read c = .ok (entries.map Prod.snd) (c.skip c.rest.length) :=
    terminated_of_separated reads separated
  have all : outcome (whole (terminated s.read)) c = .ok (entries.map Prod.snd) :=
    outcome_eq_ok_iff.2 ⟨_, whole_eq_ok_iff.2 ⟨isRead, List.drop_length ..⟩⟩
  rw [Grammar.parseTrees_eq, s.read_listGrammar, map_whole, outcome_map, all]
  rfl

/-- A list that is accepted consists of items that are attributes by themselves. -/
theorem exists_entries {trees : List Tree} {finish : Position} {nodes : List Parsed}
    (plain : ∀ t ∈ Tree.leavesAll trees, t.IsPlain)
    (accepted : s.listGrammar.parseTrees trees finish = .ok (.terminated nodes)) :
    ∃ entries : List (List Tree × Attribute PayloadValue),
      (∀ entry ∈ entries, ReadsItem s.read entry.1 entry.2) ∧
      Separated (entries.map Prod.fst) trees ∧
      nodes = (entries.map Prod.snd).map Attribute.parsed := by
  rw [parseTrees_listGrammar plain] at accepted
  obtain ⟨attributes, result, same⟩ := exists_of_map_eq_ok accepted
  obtain rfl := Parsed.terminated.inj same
  obtain ⟨d, isRead⟩ := outcome_eq_ok_iff.1 result
  have plainHere : IsPlainAhead (.ofTrees trees finish) := plain
  obtain ⟨entries, reads, separated, rfl, -⟩ :=
    s.isLocal_read.exists_entries trees.length plainHere (Nat.le_refl _) isRead
  exact ⟨entries, reads, separated, rfl⟩

/-- Lists of attributes compose. Where a list is accepted that has attributes and no comma behind the last one, any
trees may follow behind a comma: they are read as if they stood alone, so that the attributes of both lists are
found, the first ones first, or the error that they have alone. -/
theorem parseTrees_append {front back : List Tree} {comma : Token} {finish finish' : Position}
    {nodes : List Parsed} (plainFront : ∀ t ∈ Tree.leavesAll front, t.IsPlain)
    (plainBack : ∀ t ∈ Tree.leavesAll back, t.IsPlain) (isComma : comma.kind = .comma)
    (notEmpty : front ≠ []) (noComma : (front.getLast notEmpty).isComma = false)
    (accepted : s.listGrammar.parseTrees front finish = .ok (.terminated nodes)) :
    (∀ result, s.listGrammar.parseTrees (front ++ .token comma :: back) finish' = .ok result ↔
      ∃ later, s.listGrammar.parseTrees back finish' = .ok (.terminated later) ∧
        result = .terminated (nodes ++ later)) ∧
    (∀ failure, s.listGrammar.parseTrees (front ++ .token comma :: back) finish' = .error failure ↔
      s.listGrammar.parseTrees back finish' = .error failure) := by
  have plain : ∀ t ∈ Tree.leavesAll (front ++ .token comma :: back), t.IsPlain :=
    Tree.leavesAll_append_comma plainFront plainBack isComma
  rw [parseTrees_listGrammar plainFront] at accepted
  obtain ⟨attributes, first, same⟩ := exists_of_map_eq_ok accepted
  obtain rfl := Parsed.terminated.inj same
  rw [parseTrees_listGrammar plain, parseTrees_listGrammar plainBack,
    s.isLocal_read.outcome_terminated_append plainFront plainBack isComma notEmpty noComma first]
  cases outcome (terminated s.read) (.ofTrees back finish') with
  | error failure =>
      refine ⟨fun result => ⟨nofun, ?_⟩, fun failure' => Iff.rfl⟩
      rintro ⟨later, found, -⟩
      cases found
  | ok later =>
      refine ⟨fun result => ⟨fun found => ?_, ?_⟩, fun failure => ⟨nofun, nofun⟩⟩
      · refine ⟨later.map Attribute.parsed, rfl, ?_⟩
        rw [← Except.ok.inj found, ← List.map_append]
        rfl
      · rintro ⟨nodes, found, rfl⟩
        obtain rfl := Parsed.terminated.inj (Except.ok.inj found)
        rw [← List.map_append]
        rfl

/-- Behind `map = |a, b| a` and a comma, `count(n)` is read as it is alone, and `count` lacks its value as it does
alone. The comma among the parameters ends no attribute. -/
theorem parseTrees_append_closure :
    let field := BuiltinSet.field.set.listGrammar
    let map : List Tree :=
      [.token (.word "map" ⟨1, 1⟩), .token ⟨.equals, "=", ⟨1, 5⟩, false⟩,
        .token ⟨.pipe, "|", ⟨1, 7⟩, false⟩, .token (.word "a" ⟨1, 8⟩),
        .token ⟨.comma, ",", ⟨1, 9⟩, false⟩, .token (.word "b" ⟨1, 11⟩),
        .token ⟨.pipe, "|", ⟨1, 12⟩, false⟩, .token (.word "a" ⟨1, 14⟩)]
    let comma : Token := ⟨.comma, ",", ⟨1, 15⟩, false⟩
    let count : Tree := .token (.word "count" ⟨1, 17⟩)
    let value : Tree := .group .paren ⟨1, 22⟩ ⟨1, 24⟩ [.token (.word "n" ⟨1, 23⟩)]
    (∃ mapped counted, field.parseTrees map ⟨1, 15⟩ = .ok (.terminated [mapped]) ∧
      field.parseTrees [count, value] ⟨1, 25⟩ = .ok (.terminated [counted]) ∧
      field.parseTrees (map ++ .token comma :: [count, value]) ⟨1, 25⟩ =
        .ok (.terminated [mapped, counted])) ∧
    field.parseTrees (map ++ .token comma :: [count]) ⟨1, 22⟩ =
      .error (.rejected ⟨.missingPayload, .noPayload .value "count" .nothing, ⟨1, 22⟩⟩) := by
  intro field map comma count value
  have plainMap : ∀ t ∈ Tree.leavesAll map, t.IsPlain := by
    decide
  have plainCount : ∀ t ∈ Tree.leavesAll [count], t.IsPlain := by
    decide
  have plainValue : ∀ t ∈ Tree.leavesAll [count, value], t.IsPlain := by
    decide
  have isComma : comma.kind = .comma := rfl
  have notEmpty : map ≠ [] := nofun
  have accepted : field.parseTrees map ⟨1, 15⟩ = .ok (.terminated [_]) := rfl
  refine ⟨⟨_, _, accepted, rfl, ?_⟩, ?_⟩
  · exact ((parseTrees_append plainMap plainValue isComma notEmpty rfl accepted).1 _).2 ⟨_, rfl, rfl⟩
  · exact ((parseTrees_append plainMap plainCount isComma notEmpty rfl accepted).2 _).2 rfl

end Lists

end AttrSet

end AttrGrammar
