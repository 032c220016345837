import AttrGrammar.Proofs.Reading.Items
import AttrGrammar.Proofs.Reading.Failures
import AttrGrammar.Proofs.Reading.Outcomes
import AttrGrammar.Proofs.Reading.Walks

/-!
Contract: where readers reject what they read, and for a reason of which kind.

Owns:
- the items that the reader of a list comes to, and what it takes for a list to fail;
- readers that reject at a place, and the rules by which this is carried outwards;
- readers that reject what is malformed, and unexpected tokens at some places only, with the rules by which they are put
  together;
- readers of which it is also known what they yield;
- that the readers of words, literals and expressions reject only what is malformed.
-/

namespace AttrGrammar

theorem Tree.exists_of_isKind {tree : Tree} {kind : TokenKind} (isKind : tree.isKind kind) :
    ∃ t, tree = .token t ∧ t.kind = kind := by
  cases tree with
  | token t => exact ⟨t, rfl, of_decide_eq_true isKind⟩
  | group => cases isKind

theorem Tree.exists_of_isGroup {tree : Tree} {delimiter : Delimiter} (isGroup : tree.isGroup delimiter) :
    ∃ opening closing inner, tree = .group delimiter opening closing inner := by
  cases tree with
  | token => cases isGroup
  | group found opening closing inner =>
      obtain rfl : found = delimiter := of_decide_eq_true isGroup
      exact ⟨opening, closing, inner, rfl⟩

theorem Cursor.error_of_rest {c : Cursor} {tree : Tree} {later : List Tree} (rest : c.rest = tree :: later)
    (kind : ErrorKind) (problem : Problem) : c.error kind problem = ⟨kind, problem, tree.position⟩ := by
  rw [error, position, rest]

namespace Reader

open Cursor

/-! ## Failures -/

section Failing

variable {α β : Type} {r : Reader α} {k : α → Reader β} {c d inner : Cursor} {failure : Failure}

theorem outcome_eq_error_iff : outcome r c = .error failure ↔ ∃ d, r c = .error failure d := by
  refine ⟨exists_of_outcome_eq_error, ?_⟩
  rintro ⟨d, fails⟩
  rw [outcome, fails]

theorem map_eq_error_iff {ε : Type} {x : Except ε α} {f : α → β} {e : ε} :
    x.map f = .error e ↔ x = .error e := by
  cases x with
  | ok v => exact ⟨nofun, nofun⟩
  | error e' => exact ⟨fun same => congrArg _ (Except.error.inj same), fun same => congrArg _ (Except.error.inj same)⟩

theorem outcome_bind_eq_error_iff : outcome (r >>= k) c = .error failure ↔
    outcome r c = .error failure ∨ ∃ v d, r c = .ok v d ∧ outcome (k v) d = .error failure := by
  simp only [outcome_eq_error_iff]
  constructor
  · rintro ⟨e, fails⟩
    rcases bind_eq_error_iff.1 fails with failsFirst | ⟨v, d, isFirst, failsLater⟩
    · exact .inl ⟨e, failsFirst⟩
    · exact .inr ⟨v, d, isFirst, e, failsLater⟩
  · rintro (⟨d, failsFirst⟩ | ⟨v, d, isFirst, e, failsLater⟩)
    · exact ⟨d, bind_eq_error_iff.2 (.inl failsFirst)⟩
    · exact ⟨e, bind_eq_error_iff.2 (.inr ⟨v, d, isFirst, failsLater⟩)⟩

theorem outcome_bind_of_ok {v : α} (isFirst : r c = .ok v d) : outcome (r >>= k) c = outcome (k v) d := by
  rw [outcome, bind_of_ok isFirst]
  rfl

theorem outcome_bind_pure_eq_error_iff {f : α → β} :
    outcome (r >>= fun v => pure (f v)) c = .error failure ↔ outcome r c = .error failure := by
  rw [bind_pure_comp, outcome_map, map_eq_error_iff]

theorem outcome_inside : outcome (inside inner r) c = outcome r inner := by
  unfold outcome Reader.inside
  cases r inner <;> rfl

theorem outcome_group_bind {delimiter : Delimiter} {opening closing : Position} {inner later : List Tree}
    {k : Option (Position × Cursor) → Reader β} (rest : c.rest = .group delimiter opening closing inner :: later) :
    outcome (group? delimiter >>= k) c = outcome (k (some (opening, .ofTrees inner closing))) (c.skip 1) :=
  outcome_bind_of_ok (group?_of_group rest)

theorem outcome_noGroup_bind {delimiter : Delimiter} {k : Option (Position × Cursor) → Reader β}
    (other : ∀ tree later, c.rest = tree :: later → tree.isGroup delimiter = false) :
    outcome (group? delimiter >>= k) c = outcome (k none) c := by
  refine outcome_bind_of_ok (group?_of_other fun opening closing inner later rest => ?_)
  have notGroup := other _ later rest
  simp [Tree.isGroup] at notGroup

theorem outcome_expectEnd_eq_error_iff : outcome expectEnd c = .error failure ↔
    c.rest ≠ [] ∧ failure = .rejected (c.error .unexpectedToken (.leftover c.found)) := by
  obtain ⟨consumed, - | ⟨tree, later⟩, finish⟩ := c
  · exact ⟨nofun, fun both => absurd rfl both.1⟩
  · refine ⟨fun fails => ⟨nofun, (Except.error.inj fails).symm⟩, ?_⟩
    rintro ⟨-, rfl⟩
    rfl

/-- All that is left is not read because of what is read first, or because of what is behind it. -/
theorem outcome_whole_eq_error_iff : outcome (whole r) c = .error failure ↔ outcome r c = .error failure ∨
    ∃ v d, r c = .ok v d ∧ d.rest ≠ [] ∧
      failure = .rejected (d.error .unexpectedToken (.leftover d.found)) := by
  refine outcome_bind_eq_error_iff.trans (or_congr_right ?_)
  refine exists_congr fun v => exists_congr fun d => and_congr_right fun _ => ?_
  rw [outcome_bind_eq_error_iff, outcome_expectEnd_eq_error_iff]
  refine or_iff_left ?_
  rintro ⟨_, _, _, fails⟩
  cases fails

end Failing

/-! ## Lists -/

section Lists

variable {α : Type} {r : Reader α} {c d : Cursor} {failure : Failure}

/-- Whether the reader of a list comes to an item: the items in front of it are read, and a comma is behind each. -/
inductive ItemAt (r : Reader α) : Cursor → Cursor → Prop where
  | first (c : Cursor) : ItemAt r c c
  | behind {c d e : Cursor} {v : α} {comma : Token} {later : List Tree} (isRead : r c = .ok v d)
      (rest : d.rest = .token comma :: later) (isComma : comma.kind = .comma) (item : ItemAt r (d.skip 1) e) :
      ItemAt r c e

/-- How a list fails at an item: it is not read, or no comma is behind it. -/
inductive FailsAt (r : Reader α) (c : Cursor) : Failure → Prop where
  | item {failure : Failure} (fails : outcome r c = .error failure) : FailsAt r c failure
  | behind {v : α} {d : Cursor} {tree : Tree} {later : List Tree} (isRead : r c = .ok v d)
      (rest : d.rest = tree :: later) (notComma : tree.isComma = false) :
      FailsAt r c (.rejected (d.error .unexpectedToken (.missing (.token .comma) " between items" d.found)))

theorem outcome_itemsUpTo_comma {count : Nat} {v : α} {comma : Token} {later : List Tree}
    (notEmpty : c.rest ≠ []) (first : r c = .ok v d) (rest : d.rest = .token comma :: later)
    (isComma : comma.kind = .comma) :
    outcome (itemsUpTo r (count + 1)) c = (outcome (itemsUpTo r count) (d.skip 1)).map (v :: ·) := by
  have notAtEnd : ¬d.isEmpty := by simp [Cursor.isEmpty, rest]
  have behind : itemsUpTo r (count + 1) c = ((v :: ·) <$> itemsUpTo r count) (d.skip 1) := by
    rw [itemsUpTo_succ notEmpty first, if_neg notAtEnd, ← isComma,
      bind_of_ok (expect_of_kind rest), bind_pure_comp]
  rw [← outcome_map, outcome, behind]
  rfl

theorem outcome_itemsUpTo_other {count : Nat} {v : α} {tree : Tree} {later : List Tree} (notEmpty : c.rest ≠ [])
    (first : r c = .ok v d) (rest : d.rest = tree :: later) (notComma : tree.isComma = false) :
    outcome (itemsUpTo r (count + 1)) c =
      .error (.rejected (d.error .unexpectedToken (.missing (.token .comma) " between items" d.found))) := by
  have notAtEnd : ¬d.isEmpty := by simp [Cursor.isEmpty, rest]
  have other : ∀ t later, d.rest = .token t :: later → t.kind ≠ .comma := by
    intro t later' rest' isComma
    obtain ⟨rfl, -⟩ := List.cons.inj (rest.symm.trans rest')
    exact Bool.eq_false_iff.1 notComma (decide_eq_true isComma)
  refine outcome_eq_error_iff.2 ⟨d, ?_⟩
  rw [itemsUpTo_succ notEmpty first, if_neg notAtEnd]
  refine bind_eq_error_iff.2 (.inl ?_)
  rw [expect_of_other other]
  rfl

theorem exists_item_of_itemsUpTo (count : Nat) (fails : outcome (itemsUpTo r count) c = .error failure) :
    ∃ d, ItemAt r c d ∧ d.rest ≠ [] ∧ FailsAt r d failure := by
  induction count generalizing c with
  | zero => cases fails
  | succ count inductionHypothesis =>
      by_cases notEmpty : c.rest = []
      · rw [outcome, itemsUpTo_nil _ notEmpty] at fails
        cases fails
      cases isFirst : r c with
      | error failure' d =>
          rw [outcome, itemsUpTo_of_error notEmpty isFirst] at fails
          obtain rfl := Except.error.inj fails
          exact ⟨c, .first c, notEmpty, .item (outcome_eq_error_iff.2 ⟨d, isFirst⟩)⟩
      | ok v d =>
          rcases rest : d.rest with - | ⟨tree, later⟩
          · rw [outcome, itemsUpTo_last notEmpty isFirst rest] at fails
            cases fails
          cases isComma : tree.isComma with
          | true =>
              obtain ⟨comma, rfl, isKind⟩ := Tree.exists_of_isKind isComma
              rw [outcome_itemsUpTo_comma notEmpty isFirst rest isKind] at fails
              obtain ⟨e, item, someLeft, failsHere⟩ := inductionHypothesis (map_eq_error_iff.1 fails)
              exact ⟨e, .behind isFirst rest isKind item, someLeft, failsHere⟩
          | false =>
              rw [outcome_itemsUpTo_other notEmpty isFirst rest isComma] at fails
              obtain rfl := Except.error.inj fails
              exact ⟨c, .first c, notEmpty, .behind isFirst rest isComma⟩

/-- A list fails as it does at the item that its reader comes to. -/
theorem ItemAt.outcome_itemsUpTo (walks : Walks r) (item : ItemAt r c d) (notEmpty : d.rest ≠ [])
    (fails : FailsAt r d failure) (count : Nat) (enough : c.rest.length ≤ count) :
    outcome (itemsUpTo r count) c = .error failure := by
  induction item generalizing count with
  | first c =>
      obtain _ | count := count
      · exact absurd (List.length_eq_zero_iff.1 (Nat.le_zero.1 enough)) notEmpty
      cases fails with
      | item fails =>
          obtain ⟨e, fails⟩ := outcome_eq_error_iff.1 fails
          exact outcome_eq_error_iff.2 ⟨e, itemsUpTo_of_error notEmpty fails⟩
      | behind isRead rest notComma => exact outcome_itemsUpTo_other notEmpty isRead rest notComma
  | @behind c d e v comma later isRead rest isComma item inductionHypothesis =>
      obtain ⟨moved, rfl, -⟩ := (walks c c.finish).reads v d isRead
      have length : c.rest.length - moved = later.length + 1 := by
        rw [← List.length_drop]
        exact congrArg List.length rest
      have notEmpty' : c.rest ≠ [] := List.ne_nil_of_length_pos (by omega)
      obtain _ | count := count
      · omega
      have shorter : ((c.skip moved).skip 1).rest.length ≤ count := by
        rw [rest_skip_one rest]
        omega
      rw [outcome_itemsUpTo_comma notEmpty' isRead rest isComma, inductionHypothesis notEmpty fails count shorter]
      rfl

theorem outcome_terminated_eq_error_iff (walks : Walks r) : outcome (terminated r) c = .error failure ↔
    ∃ d, ItemAt r c d ∧ d.rest ≠ [] ∧ FailsAt r d failure := by
  refine ⟨exists_item_of_itemsUpTo c.rest.length, ?_⟩
  rintro ⟨d, item, notEmpty, fails⟩
  exact item.outcome_itemsUpTo walks notEmpty fails c.rest.length (Nat.le_refl _)

end Lists

/-! ## Rejections at a place -/

section Rejects

variable {α β : Type} {r : Reader α} {k : α → Reader β} {c d inner : Cursor} {kind : ErrorKind} {p : Position}

/-- Whether a reader rejects what it reads, for a reason of a kind and at a place. -/
def Rejects (kind : ErrorKind) (p : Position) (r : Reader α) (c : Cursor) : Prop :=
  ∃ problem, outcome r c = .error (.rejected ⟨kind, problem, p⟩)

theorem Rejects.bind (rejects : Rejects kind p r c) : Rejects kind p (r >>= k) c := by
  obtain ⟨problem, fails⟩ := rejects
  exact ⟨problem, outcome_bind_eq_error_iff.2 (.inl fails)⟩

theorem rejects_bind_of_ok {v : α} (isFirst : r c = .ok v d) (rejects : Rejects kind p (k v) d) :
    Rejects kind p (r >>= k) c := by
  obtain ⟨problem, fails⟩ := rejects
  exact ⟨problem, (outcome_bind_of_ok isFirst).trans fails⟩

theorem Rejects.inside (rejects : Rejects kind p r inner) : Rejects kind p (inside inner r) c := by
  obtain ⟨problem, fails⟩ := rejects
  exact ⟨problem, outcome_inside.trans fails⟩

theorem rejects_expectEnd {tree : Tree} {later : List Tree} (rest : c.rest = tree :: later) :
    Rejects .unexpectedToken tree.position expectEnd c := by
  refine ⟨.leftover c.found, outcome_expectEnd_eq_error_iff.2 ⟨by simp [rest], ?_⟩⟩
  rw [error_of_rest rest]

end Rejects

/-! ## Rejections at known places -/

section Within

variable {α β : Type} {r : Reader α} {k : α → Reader β} {c inner : Cursor} {places places' : Position → Prop}

/-- Whether a reader rejects nothing but what is malformed, and unexpected tokens at some places. -/
def RejectsWithin (places : Position → Prop) (r : Reader α) (c : Cursor) : Prop :=
  ∀ e, outcome r c = .error (.rejected e) →
    e.kind = .malformedItem ∨ e.kind = .unexpectedToken ∧ places e.position

theorem RejectsWithin.mono (within : RejectsWithin places r c) (wider : ∀ p, places p → places' p) :
    RejectsWithin places' r c :=
  fun e rejects => (within e rejects).imp_right fun both => ⟨both.1, wider e.position both.2⟩

theorem rejectsWithin_of_ok {v : α} {d : Cursor} (isRead : r c = .ok v d) : RejectsWithin places r c := by
  intro e rejects
  rw [outcome, isRead] at rejects
  cases rejects

theorem rejectsWithin_pure (v : α) : RejectsWithin places (pure v) c :=
  rejectsWithin_of_ok (d := c) rfl

theorem rejectsWithin_fail (problem : Found → Problem) :
    RejectsWithin places (fail .malformedItem problem : Reader α) c := by
  intro e rejects
  obtain rfl := Failure.rejected.inj (Except.error.inj rejects)
  exact .inl rfl

theorem RejectsWithin.bind (within : RejectsWithin places r c)
    (later : ∀ v d, r c = .ok v d → RejectsWithin places (k v) d) : RejectsWithin places (r >>= k) c := by
  intro e rejects
  rcases outcome_bind_eq_error_iff.1 rejects with first | ⟨v, d, isFirst, behind⟩
  · exact within e first
  · exact later v d isFirst e behind

theorem RejectsWithin.bind_pure (within : RejectsWithin places r c) (f : α → β) :
    RejectsWithin places (r >>= fun v => pure (f v)) c :=
  within.bind fun v _ _ => rejectsWithin_pure (f v)

theorem rejectsWithin_get {k : Cursor → Reader β} (within : RejectsWithin places (k c) c) :
    RejectsWithin places (get >>= k) c :=
  fun e rejects => within e rejects

theorem RejectsWithin.inside (within : RejectsWithin places r inner) : RejectsWithin places (inside inner r) c :=
  fun e rejects => within e (outcome_inside.symm.trans rejects)

/-- What is left behind all that was to be read is unexpected. -/
theorem rejectsWithin_expectEnd (isPlace : ∀ tree later, c.rest = tree :: later → places tree.position) :
    RejectsWithin places expectEnd c := by
  intro e rejects
  obtain ⟨notEmpty, isError⟩ := outcome_expectEnd_eq_error_iff.1 rejects
  obtain rfl := Failure.rejected.inj isError
  obtain ⟨tree, later, rest⟩ := List.exists_cons_of_ne_nil notEmpty
  rw [error_of_rest rest]
  exact .inr ⟨rfl, isPlace tree later rest⟩

theorem RejectsWithin.whole (within : RejectsWithin places r c)
    (isPlace : ∀ v d, r c = .ok v d → ∀ tree later, d.rest = tree :: later → places tree.position) :
    RejectsWithin places (whole r) c :=
  within.bind fun v d isRead => (rejectsWithin_expectEnd (isPlace v d isRead)).bind_pure _

theorem rejectsWithin_token? (kind : TokenKind) : RejectsWithin places (token? kind) c := by
  by_cases present : ∃ t later, c.rest = .token t :: later ∧ t.kind = kind
  · obtain ⟨t, later, rest, rfl⟩ := present
    exact rejectsWithin_of_ok (token?_of_kind rest)
  · exact rejectsWithin_of_ok (token?_of_other fun t later rest isKind => present ⟨t, later, rest, isKind⟩)

theorem rejectsWithin_word? (word : String) : RejectsWithin places (word? word) c := by
  by_cases present : ∃ t later, c.rest = .token t :: later ∧ t.isWord word
  · obtain ⟨t, later, rest, isWord⟩ := present
    exact rejectsWithin_of_ok (word?_of_word rest isWord)
  · exact rejectsWithin_of_ok (word?_of_other fun t later rest =>
      Bool.eq_false_iff.2 fun isWord => present ⟨t, later, rest, isWord⟩)

theorem rejectsWithin_expect (kind : TokenKind) (context : String) :
    RejectsWithin places (expect kind context .malformedItem) c := by
  refine (rejectsWithin_token? kind).bind fun found d _ => ?_
  cases found with
  | some t => exact rejectsWithin_pure t
  | none => exact rejectsWithin_fail _

theorem malformed_of_ofLiteral {p : Position} {fault : LiteralFault} {e : ParseError}
    (isError : Failure.ofLiteral p fault = .rejected e) : e.kind = .malformedItem := by
  cases fault <;> cases isError <;> rfl

theorem rejectsWithin_literal? : RejectsWithin places literal? c := by
  by_cases present : ∃ t later, c.rest = .token t :: later ∧ (Tree.token t).isLiteral
  · obtain ⟨t, later, rest, isLiteral⟩ := present
    intro e rejects
    rw [outcome, literal?_of_literal rest isLiteral] at rejects
    cases decoded : Literal.decode t.kind t.text with
    | ok l =>
        rw [decoded] at rejects
        cases rejects
    | error fault =>
        rw [decoded] at rejects
        exact .inl (malformed_of_ofLiteral (Except.error.inj rejects))
  · exact rejectsWithin_of_ok (literal?_of_other fun t later rest =>
      Bool.eq_false_iff.2 fun isLiteral => present ⟨t, later, rest, isLiteral⟩)

theorem rejectsWithin_literal : RejectsWithin places literal c := by
  refine rejectsWithin_literal?.bind fun found d _ => ?_
  cases found with
  | some l => exact rejectsWithin_pure l
  | none => exact rejectsWithin_fail _

theorem rejectsWithin_ident : RejectsWithin places ident c := by
  by_cases present : ∃ t later, c.rest = .token t :: later ∧ t.kind = .ident ∧ t.text ∉ reservedWords
  · obtain ⟨t, later, rest, isIdent, free⟩ := present
    exact rejectsWithin_of_ok (ident_of_word rest isIdent free)
  · intro e rejects
    rw [outcome, ident_of_other fun t later rest isWord => present ⟨t, later, rest, isWord⟩] at rejects
    exact rejectsWithin_fail _ e rejects

end Within

/-! ## Values and rejections -/

section Meets

variable {α β : Type} {r : Reader α} {k : α → Reader β} {c inner : Cursor} {yields : α → Cursor → Prop}
  {yieldsBehind : β → Cursor → Prop} {places places' : Position → Prop}

/-- Whether a reader yields only what it may, with the cursor that it leaves, and rejects nothing but what is malformed,
and unexpected tokens at some places. -/
structure Meets (yields : α → Cursor → Prop) (places : Position → Prop) (r : Reader α) (c : Cursor) : Prop where
  reads : ∀ v d, r c = .ok v d → yields v d
  rejects : RejectsWithin places r c

theorem RejectsWithin.meets (within : RejectsWithin places r c) : Meets (fun v d => r c = .ok v d) places r c :=
  ⟨fun _ _ => id, within⟩

theorem Meets.of_eq {d : Cursor} {s : Reader α} (meets : Meets yields places s d) (same : r c = s d) :
    Meets yields places r c where
  reads := same ▸ meets.reads
  rejects := by
    intro e rejects
    rw [outcome, same] at rejects
    exact meets.rejects e rejects

theorem meets_pure {v : α} (known : yields v c) : Meets yields places (pure v) c where
  reads := by
    intro w d read
    obtain ⟨rfl, rfl⟩ := EStateM.Result.ok.inj read
    exact known
  rejects := rejectsWithin_pure v

theorem meets_fail (problem : Found → Problem) :
    Meets yields places (fail .malformedItem problem : Reader α) c where
  reads := by
    intro v d read
    cases read
  rejects := rejectsWithin_fail problem

theorem meets_get {k : Cursor → Reader β} (meets : Meets yieldsBehind places (k c) c) :
    Meets yieldsBehind places (get >>= k) c :=
  ⟨meets.reads, rejectsWithin_get meets.rejects⟩

theorem Meets.bind (meets : Meets yields places r c)
    (later : ∀ v d, yields v d → Meets yieldsBehind places (k v) d) : Meets yieldsBehind places (r >>= k) c where
  reads := by
    intro w e read
    obtain ⟨v, d, isFirst, isLater⟩ := bind_eq_ok_iff.1 read
    exact (later v d (meets.reads v d isFirst)).reads w e isLater
  rejects := meets.rejects.bind fun v d isFirst => (later v d (meets.reads v d isFirst)).rejects

theorem Meets.mono (meets : Meets yields places r c) (wider : ∀ p, places p → places' p) :
    Meets yields places' r c :=
  ⟨meets.reads, meets.rejects.mono wider⟩

/-- What is yielded inside a group is yielded behind it, whatever the inner cursor was left at. -/
theorem Meets.inside {yields : α → Prop} (meets : Meets (fun v _ => yields v) places r inner) :
    Meets (fun v d => yields v ∧ d = c) places (inside inner r) c where
  reads := by
    intro v d read
    obtain ⟨isInner, rfl⟩ := inside_eq_ok_iff.1 read
    obtain ⟨e, isInner⟩ := outcome_eq_ok_iff.1 isInner
    exact ⟨meets.reads v e isInner, rfl⟩
  rejects := meets.rejects.inside

end Meets

end Reader

open Reader

namespace Expr

/-- Trees that spell no expression are malformed. -/
theorem malformed_of_ofTrees {trees : List Tree} {finish : Position} {e : ParseError}
    (fails : ofTrees trees finish = .error (.rejected e)) : e.kind = .malformedItem := by
  unfold ofTrees at fails
  split at fails
  · obtain rfl := Failure.rejected.inj (Except.error.inj fails)
    rfl
  split at fails
  · rename_i stuck isStuck
    obtain rfl := Failure.rejected.inj (Except.error.inj fails)
    unfold ExprParser.Stuck.error
    cases stuck.terminal <;> rfl
  · rename_i phrase parsed
    obtain ⟨d, -, rfl⟩ := parseTerminals_eq_ok_iff.1 parsed
    rw [← d.value_eq] at fails
    obtain ⟨t, -, noLiteral⟩ := d.exists_of_value_eq_error fails
    obtain ⟨fault, -, isError⟩ := mapError_eq_error_iff.1 noLiteral
    exact malformed_of_ofLiteral isError

theorem rejectsWithin_read {places : Position → Prop} {c : Cursor} : RejectsWithin places read c := by
  intro e rejects
  by_cases absent : extent false none c.rest = 0
  · rw [outcome, read_of_absent absent] at rejects
    exact rejectsWithin_fail _ e rejects
  · rw [outcome, read_of_extent absent] at rejects
    split at rejects
    · rename_i isRead
      split at isRead
      · cases rejects
      · cases isRead
    · rename_i isError
      split at isError
      · cases isError
      · rename_i failure fails
        obtain ⟨rfl, -⟩ := EStateM.Result.error.inj isError
        obtain rfl := Except.error.inj rejects
        exact .inl (malformed_of_ofTrees fails)

end Expr

end AttrGrammar
