import AttrGrammar.Proofs.Expression.Extent
import AttrGrammar.Proofs.Reading.Words

/-!
Contract: readers and the trees that they consume.

Owns:
- a cursor that moves over given trees, and its moves one behind the other;
- what the readers of single trees consume, and what is in front of them where they consume nothing;
- what it takes for an expression to be read that is all that is left.
-/

namespace AttrGrammar

/-- A token of a kind. -/
abbrev TokenOf (kind : TokenKind) :=
  { t : Token // t.kind = kind }

/-- A token that is a word. -/
abbrev WordOf (word : String) :=
  { t : Token // t.isWord word }

theorem Token.isWord_iff {t : Token} {word : String} : t.isWord word ↔ t.kind = .ident ∧ t.text = word := by
  simp [Token.isWord]

/-- The trees of a token that can be absent. -/
def optionalTrees {holds : Token → Prop} (t : Option (Subtype holds)) : List Tree :=
  t.toList.map fun t => .token t.1

namespace Cursor

/-- Whether a cursor becomes another one by taking trees: they are in front, and the other is behind them. -/
structure Takes (c : Cursor) (trees : List Tree) (d : Cursor) : Prop where
  rest : c.rest = trees ++ d.rest
  moved : d = c.skip trees.length

section Takes

variable {c d e : Cursor} {front back : List Tree} {tree : Tree}

theorem takes_skip {later : List Tree} (rest : c.rest = front ++ later) :
    c.Takes front (c.skip front.length) :=
  ⟨by simp [skip, rest], rfl⟩

theorem exists_takes_rest (c : Cursor) : ∃ d, c.Takes c.rest d ∧ d.rest = [] :=
  ⟨_, takes_skip (List.append_nil _).symm, List.drop_length ..⟩

theorem Takes.refl (c : Cursor) : c.Takes [] c :=
  ⟨rfl, c.skip_zero.symm⟩

theorem Takes.eq_of_nil (takes : c.Takes [] d) : d = c :=
  takes.moved.trans c.skip_zero

theorem Takes.trans (first : c.Takes front d) (second : d.Takes back e) :
    c.Takes (front ++ back) e where
  rest := by rw [first.rest, second.rest, List.append_assoc]
  moved := by rw [second.moved, first.moved, skip_skip, List.length_append]

/-- A move over trees is a move over the first of them, and one over the others. -/
theorem Takes.split (takes : c.Takes (front ++ back) e) :
    ∃ d, c.Takes front d ∧ d.Takes back e := by
  have rest : c.rest = front ++ (back ++ e.rest) := by rw [takes.rest, List.append_assoc]
  have first := takes_skip rest
  refine ⟨_, first, List.append_cancel_left (first.rest.symm.trans rest), ?_⟩
  rw [takes.moved, skip_skip, List.length_append]

theorem Takes.cons (first : c.Takes [tree] d) (second : d.Takes back e) :
    c.Takes (tree :: back) e :=
  first.trans second

theorem Takes.uncons (takes : c.Takes (tree :: back) e) :
    ∃ d, c.Takes [tree] d ∧ d.Takes back e := by
  have joined : c.Takes ([tree] ++ back) e := takes
  exact joined.split

/-- The trees of a cursor of its own are those that it moves over to the end. -/
theorem Takes.all {inner : List Tree} {closing : Position}
    (takes : (ofTrees inner closing).Takes front d) (atEnd : d.rest = []) : inner = front := by
  have rest := takes.rest
  rwa [atEnd, List.append_nil] at rest

theorem Takes.finish_eq (takes : c.Takes front d) : d.finish = c.finish := by
  rw [takes.moved]
  rfl

theorem Takes.position_eq (takes : c.Takes (tree :: back) d) : c.position = tree.position := by
  simp [position, takes.rest]

theorem isEmpty_iff_rest : c.isEmpty ↔ c.rest = [] :=
  List.isEmpty_iff

/-- The token in front is the first one that is consumed. -/
theorem Takes.token_eq {t u : Token} {later : List Tree} (takes : c.Takes (.token t :: back) d)
    (rest : c.rest = .token u :: later) : u = t :=
  (Tree.token.inj (List.cons.inj (takes.rest.symm.trans rest)).1).symm

theorem position_skip_length (c : Cursor) : (c.skip c.rest.length).position = c.finish := by
  rw [skip, List.drop_length]
  rfl

theorem Takes.weight_eq (takes : c.Takes front d) :
    c.weight = Tree.weightAll front + d.weight := by
  rw [weight, weight, takes.rest, Tree.weightAll_append]

theorem Takes.weight_le (takes : c.Takes front d) : d.weight ≤ c.weight := by
  rw [takes.weight_eq]
  exact Nat.le_add_left ..

theorem Takes.weight_token {t : Token} (takes : c.Takes [.token t] d) :
    c.weight = d.weight + 1 := by
  rw [takes.weight_eq, Tree.weightAll, Tree.weight, Tree.weightAll, Nat.add_comm]

theorem Takes.weight_group {delimiter : Delimiter} {opening closing : Position} {inner : List Tree}
    (takes : c.Takes [.group delimiter opening closing inner] d) :
    c.weight = (ofTrees inner closing).weight + d.weight + 1 := by
  rw [takes.weight_eq]
  simp only [Tree.weightAll, Tree.weight, weight, ofTrees]
  omega

end Takes

end Cursor

namespace Reader

open Cursor

section Single

variable {c d : Cursor} {t : Token} {kind : TokenKind} {word : String}

theorem token?_of_takes (isKind : t.kind = kind) (takes : c.Takes [.token t] d) :
    token? kind c = .ok (some t) d := by
  rw [← isKind, takes.moved]
  exact token?_of_kind takes.rest

theorem word?_of_takes (isWord : t.isWord word) (takes : c.Takes [.token t] d) :
    word? word c = .ok true d := by
  rw [takes.moved]
  exact word?_of_word takes.rest isWord

/-- What there is when a token is looked for: it is consumed, or another tree is in front. -/
theorem token?_eq_ok {found : Option Token} (isRead : token? kind c = .ok found d) :
    (∃ t, found = some t ∧ t.kind = kind ∧ c.Takes [.token t] d) ∨
      found = none ∧ d = c ∧ ∀ t later, c.rest = .token t :: later → t.kind ≠ kind := by
  by_cases present : ∃ t later, c.rest = .token t :: later ∧ t.kind = kind
  · obtain ⟨t, later, rest, rfl⟩ := present
    rw [token?_of_kind rest] at isRead
    obtain ⟨rfl, rfl⟩ := EStateM.Result.ok.inj isRead
    exact .inl ⟨t, rfl, rfl, takes_skip rest⟩
  · have other : ∀ t later, c.rest = .token t :: later → t.kind ≠ kind :=
      fun t later rest isKind => present ⟨t, later, rest, isKind⟩
    rw [token?_of_other other] at isRead
    obtain ⟨rfl, rfl⟩ := EStateM.Result.ok.inj isRead
    exact .inr ⟨rfl, rfl, other⟩

theorem word?_eq_ok {found : Bool} (isRead : word? word c = .ok found d) :
    (∃ t, found = true ∧ t.isWord word ∧ c.Takes [.token t] d) ∨
      found = false ∧ d = c ∧ ∀ t later, c.rest = .token t :: later → t.isWord word = false := by
  by_cases present : ∃ t later, c.rest = .token t :: later ∧ t.isWord word
  · obtain ⟨t, later, rest, isWord⟩ := present
    rw [word?_of_word rest isWord] at isRead
    obtain ⟨rfl, rfl⟩ := EStateM.Result.ok.inj isRead
    exact .inl ⟨t, rfl, isWord, takes_skip rest⟩
  · have other : ∀ t later, c.rest = .token t :: later → t.isWord word = false :=
      fun t later rest => Bool.eq_false_iff.2 fun isWord => present ⟨t, later, rest, isWord⟩
    rw [word?_of_other other] at isRead
    obtain ⟨rfl, rfl⟩ := EStateM.Result.ok.inj isRead
    exact .inr ⟨rfl, rfl, other⟩

theorem token?_of_kind_ne {later : List Tree} (rest : c.rest = .token t :: later)
    (other : t.kind ≠ kind) : token? kind c = .ok none c :=
  token?_of_other fun u later' rest' => by
    rw [rest] at rest'
    cases rest'
    exact other

theorem expect_eq_ok_iff {context : String} {errorKind : ErrorKind} :
    expect kind context errorKind c = .ok t d ↔ t.kind = kind ∧ c.Takes [.token t] d := by
  constructor
  · intro isRead
    obtain ⟨later, rest, isKind, rfl⟩ := expect_eq_ok isRead
    exact ⟨isKind, takes_skip rest⟩
  · rintro ⟨isKind, takes⟩
    exact (bind_of_ok (token?_of_takes isKind takes)).trans rfl

/-- A token of a kind that can be absent is looked for. -/
theorem optional_of_token? {found : Option Token} (isRead : token? kind c = .ok found d) :
    ∃ t : Option (TokenOf kind), found = t.map Subtype.val ∧ c.Takes (optionalTrees t) d ∧
      (t = none → ∀ u later, c.rest = .token u :: later → u.kind ≠ kind) := by
  obtain ⟨t, rfl, isKind, takes⟩ | ⟨rfl, rfl, other⟩ := token?_eq_ok isRead
  · exact ⟨some ⟨t, isKind⟩, rfl, takes, nofun⟩
  · exact ⟨none, rfl, .refl d, fun _ => other⟩

/-- A word that can be absent is looked for. -/
theorem optional_of_word? {found : Bool} (isRead : word? word c = .ok found d) :
    ∃ t : Option (WordOf word), found = t.isSome ∧ c.Takes (optionalTrees t) d := by
  obtain ⟨t, rfl, isWord, takes⟩ | ⟨rfl, rfl, -⟩ := word?_eq_ok isRead
  · exact ⟨some ⟨t, isWord⟩, rfl, takes⟩
  · exact ⟨none, rfl, .refl d⟩

theorem token?_of_optional {t : Option (TokenOf kind)} (takes : c.Takes (optionalTrees t) d)
    (other : ∀ u later, d.rest = .token u :: later → u.kind ≠ kind) :
    token? kind c = .ok (t.map Subtype.val) d := by
  cases t with
  | some t => exact token?_of_takes t.2 takes
  | none =>
      obtain rfl : d = c := takes.eq_of_nil
      exact token?_of_other other

theorem word?_of_optional {t : Option (WordOf word)} (takes : c.Takes (optionalTrees t) d)
    (other : ∀ u later, d.rest = .token u :: later → u.isWord word = false) :
    word? word c = .ok t.isSome d := by
  cases t with
  | some t => exact word?_of_takes t.2 takes
  | none =>
      obtain rfl : d = c := takes.eq_of_nil
      exact word?_of_other other

/-- Where no literal is found, nothing is consumed. -/
theorem eq_of_literal?_eq_none (isRead : literal? c = .ok none d) : d = c := by
  by_cases present : ∃ t later, c.rest = .token t :: later ∧ (Tree.token t).isLiteral
  · obtain ⟨t, later, rest, isLiteral⟩ := present
    rw [literal?_of_literal rest isLiteral] at isRead
    split at isRead <;> cases isRead
  · rw [literal?_of_other fun t later rest =>
      Bool.eq_false_iff.2 fun isLiteral => present ⟨t, later, rest, isLiteral⟩] at isRead
    exact (EStateM.Result.ok.inj isRead).2.symm

end Single

end Reader

namespace Expr

open Cursor Reader

/-- What it takes for an expression to be read that is all that is left. -/
theorem whole_read_eq_ok_iff {c d : Cursor} {s : Spelled (Expr Literal)} :
    whole read c = .ok s d ↔
      (c.rest ≠ [] ∧ extent false none c.rest = c.rest.length ∧
        ofTrees c.rest c.finish = .ok s.node) ∧ s.trees = c.rest ∧ c.Takes c.rest d := by
  rw [whole_eq_ok_iff, read_eq_ok_iff]
  constructor
  · rintro ⟨⟨notEmpty, rfl, trees, isRead⟩, atEnd⟩
    have long : c.rest.length ≤ extent false none c.rest := List.drop_eq_nil_iff.1 atEnd
    have all := Nat.le_antisymm (extent_le_length c.rest false none) long
    rw [all] at notEmpty trees isRead ⊢
    rw [List.take_length] at trees
    rw [trees, position_skip_length] at isRead
    exact ⟨⟨List.length_pos_iff.1 (Nat.pos_of_ne_zero notEmpty), rfl, isRead⟩, trees,
      takes_skip (List.append_nil _).symm⟩
  · rintro ⟨⟨notEmpty, all, isRead⟩, trees, -, rfl⟩
    rw [all, trees, List.take_length, position_skip_length]
    exact ⟨⟨Nat.ne_of_gt (List.length_pos_iff.2 notEmpty), rfl, rfl, isRead⟩, List.drop_length ..⟩

end Expr

end AttrGrammar
