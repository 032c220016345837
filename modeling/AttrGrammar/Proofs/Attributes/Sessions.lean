import AttrGrammar.Proofs.Attributes.Walks

/-!
Contract: whatever is done with cursors, they move forward only, and by one tree at a time unless a grammar reads.

Owns:
- the operations on cursors, and which of them look and which take one tree;
- sessions, in which calls are made on some cursors, and groups are opened by cursors of their own;
- what an operation does to its cursor, a call to a session, and any sequence of calls to each of its cursors;
- the trees since a mark.

The cursor of a group is no part of the one that opened it, so that calls on one do not move the other.
-/

namespace AttrGrammar

open Cursor Reader

/-! ## Where readers leave their cursors -/

/-- Where a reader leaves the cursor, whether it fails or not. -/
def Reader.behind {α : Type} (r : Reader α) (c : Cursor) : Cursor :=
  match r c with
  | .ok _ d => d
  | .error _ d => d

section Behind

variable {α : Type} {r : Reader α} {c d : Cursor}

theorem Reader.behind_of_ok {v : α} (isRead : r c = .ok v d) : r.behind c = d := by
  rw [behind, isRead]

theorem Reader.behind_of_error {failure : Failure} (fails : r c = .error failure d) : r.behind c = d := by
  rw [behind, fails]

theorem Reader.Walks.behind_eq (walks : Walks r) (c : Cursor) : ∃ count, r.behind c = c.skip count := by
  cases result : r c with
  | ok v d =>
      obtain ⟨count, rfl, -⟩ := (walks c c.finish).reads v d result
      exact ⟨count, behind_of_ok result⟩
  | error failure d =>
      obtain ⟨count, failure', rfl, -⟩ := (walks c c.finish).fails failure d result
      exact ⟨count, behind_of_error result⟩

end Behind

namespace Cursor

theorem index_skip (c : Cursor) (count : Nat) :
    (c.skip count).index = c.index + min count c.rest.length := by
  simp only [index, skip, List.length_append, List.length_reverse, List.length_take]
  omega

theorem index_le_length (c : Cursor) : c.index ≤ c.trees.length := by
  simp only [index, trees, List.length_append, List.length_reverse]
  omega

theorem since_eq (c : Cursor) (mark : Nat) : c.since mark = (c.trees.take c.index).drop mark := by
  have taken : c.trees.take c.index = c.consumed.reverse :=
    List.take_left' (List.length_reverse ..)
  rw [taken, List.drop_reverse, since, index]

/-- The trees since a mark are those up to a later mark, and those since that. -/
theorem since_append (c : Cursor) {first second : Nat} (inOrder : first ≤ second) (reached : second ≤ c.index) :
    c.since first = (c.trees.take second).drop first ++ c.since second := by
  have inTrees : first ≤ (c.trees.take second).length := by
    rw [List.length_take]
    have bound := c.index_le_length
    omega
  have split : c.trees.take c.index = c.trees.take second ++ (c.trees.take c.index).drop second := by
    have split := List.take_append_drop second (c.trees.take c.index)
    rw [List.take_take, Nat.min_eq_left reached] at split
    exact split.symm
  calc c.since first
      = (c.trees.take c.index).drop first := c.since_eq first
    _ = (c.trees.take second ++ (c.trees.take c.index).drop second).drop first := by rw [← split]
    _ = (c.trees.take second).drop first ++ (c.trees.take c.index).drop second :=
        List.drop_append_of_le_length inTrees
    _ = (c.trees.take second).drop first ++ c.since second := by rw [c.since_eq second]

end Cursor

/-! ## Operations -/

/-- The operations on a cursor, by the type of what they yield. -/
inductive Operation : Type → Type where
  | isEmpty : Operation Bool
  | current (offset : Nat) : Operation (Option Tree)
  | position : Operation Position
  | peek (wanted : Pattern) (offset : Nat) : Operation Bool
  /-- Looks for several trees, and yields the error if none of them is to be accepted. -/
  | lookahead (wanted : List Pattern) (kind : ErrorKind) : Operation (List Bool × ParseError)
  | mark : Operation Nat
  | since (start : Nat) : Operation (List Tree)
  | expectEnd : Operation Unit
  | advance : Operation Tree
  | expect (kind : TokenKind) (context : String) (errorKind : ErrorKind) : Operation Token
  | openGroup (delimiter : Delimiter) (context : String) : Operation Cursor
  | parse (g : Grammar) : Operation Parsed
  | parseTerminated (item : Grammar) : Operation (List Parsed)

namespace Operation

/-- The reader that does an operation. -/
def run {α : Type} : Operation α → Reader α
  | isEmpty => do pure (← get).isEmpty
  | current offset => do pure ((← get).current? offset)
  | position => do pure (← get).position
  | peek wanted offset => do pure ((← get).peek wanted offset)
  | lookahead wanted kind => do
      let c ← get
      pure (wanted.map fun pattern => c.peek pattern, c.lookaheadError wanted kind)
  | mark => do pure (← get).index
  | since start => do pure ((← get).since start)
  | expectEnd => Reader.expectEnd
  | advance => Reader.advance
  | expect kind context errorKind => Reader.expect kind context errorKind
  | openGroup delimiter context => Reader.openGroup delimiter context
  | parse g => g.read
  | parseTerminated item => Grammar.readItems item item.read

/-- Whether an operation only looks at the trees. -/
def Looks {α : Type} : Operation α → Prop
  | isEmpty | current _ | position | peek _ _ | lookahead _ _ | mark | since _ | expectEnd => True
  | advance | expect _ _ _ | openGroup _ _ | parse _ | parseTerminated _ => False

/-- Whether an operation is to consume one tree. -/
def TakesOne {α : Type} : Operation α → Prop
  | advance | expect _ _ _ | openGroup _ _ => True
  | _ => False

/-- The cursors of the groups that an operation opens. -/
def opened {α : Type} (op : Operation α) (c : Cursor) : List Cursor :=
  match op with
  | openGroup delimiter context =>
      match Reader.openGroup delimiter context c with
      | .ok inner _ => [inner]
      | .error .. => []
  | _ => []

variable {α : Type} {op : Operation α}

theorem behind_of_looks (looks : op.Looks) (c : Cursor) : op.run.behind c = c := by
  cases op with
  | expectEnd => obtain ⟨consumed, - | ⟨tree, later⟩, finish⟩ := c <;> rfl
  | advance => cases looks
  | expect => cases looks
  | openGroup => cases looks
  | parse => cases looks
  | parseTerminated => cases looks
  | _ => rfl

/-- An operation that is to consume one tree does so, or it fails and consumes none. -/
theorem run_of_takesOne (takes : op.TakesOne) (c : Cursor) :
    (∃ tree later v, c.rest = tree :: later ∧ op.run c = .ok v (c.skip 1)) ∨
      ∃ failure, op.run c = .error failure c := by
  cases op with
  | advance =>
      obtain ⟨consumed, - | ⟨tree, later⟩, finish⟩ := c
      · exact .inr ⟨_, rfl⟩
      · exact .inl ⟨tree, later, tree, rfl, rfl⟩
  | expect kind context errorKind =>
      by_cases present : ∃ t later, c.rest = .token t :: later ∧ t.kind = kind
      · obtain ⟨t, later, rest, rfl⟩ := present
        exact .inl ⟨_, later, t, rest, expect_of_kind rest⟩
      · exact .inr ⟨_, expect_of_other fun t later rest isKind => present ⟨t, later, rest, isKind⟩⟩
  | openGroup delimiter context =>
      by_cases present : ∃ opening closing inner later, c.rest = .group delimiter opening closing inner :: later
      · obtain ⟨opening, closing, inner, later, rest⟩ := present
        exact .inl ⟨_, later, _, rest, bind_of_ok (group?_of_group rest)⟩
      · exact .inr ⟨_, bind_of_ok (group?_of_other fun opening closing inner later rest =>
          present ⟨opening, closing, inner, later, rest⟩)⟩
  | _ => cases takes

/-- Every operation leaves its cursor some trees further on, or where it was. -/
theorem exists_behind_eq (op : Operation α) (c : Cursor) : ∃ count, op.run.behind c = c.skip count := by
  cases op with
  | advance => exact walks_advance.behind_eq c
  | expect kind context errorKind => exact (walks_expect kind context errorKind).behind_eq c
  | openGroup delimiter context => exact (walks_openGroup delimiter context).behind_eq c
  | parse g => exact g.walks_read.behind_eq c
  | parseTerminated item => exact (item.walks_readItems item.walks_read).behind_eq c
  | _ =>
      refine ⟨0, (behind_of_looks ?_ c).trans c.skip_zero.symm⟩
      trivial

end Operation

/-! ## Sessions -/

/-- The cursors over some trees and over groups that were opened, in the order in which they were opened. -/
abbrev Session :=
  List Cursor

/-- An operation on one of the cursors of a session. -/
structure Call where
  stream : Nat
  yields : Type
  operation : Operation yields

/-- What a call makes of a session: its cursor moves, and the cursor of the group that it opens is added. -/
def Session.step (s : Session) (call : Call) : Session :=
  match s[call.stream]? with
  | none => s
  | some c => s.set call.stream (call.operation.run.behind c) ++ call.operation.opened c

def Session.run (s : Session) (calls : List Call) : Session :=
  calls.foldl Session.step s

/-- A cursor before and after some calls: its trees and their end stay, and it does not move back. -/
structure Cursor.Advances (c d : Cursor) : Prop where
  trees_eq : d.trees = c.trees
  finish_eq : d.finish = c.finish
  index_le : c.index ≤ d.index

namespace Cursor

theorem Advances.refl (c : Cursor) : c.Advances c :=
  ⟨rfl, rfl, Nat.le_refl _⟩

theorem Advances.trans {c d e : Cursor} (first : c.Advances d) (second : d.Advances e) : c.Advances e :=
  ⟨second.trees_eq.trans first.trees_eq, second.finish_eq.trans first.finish_eq,
    Nat.le_trans first.index_le second.index_le⟩

theorem advances_skip (c : Cursor) (count : Nat) : c.Advances (c.skip count) where
  trees_eq := c.trees_skip count
  finish_eq := rfl
  index_le := c.index_skip count ▸ Nat.le_add_right ..

end Cursor

namespace Session

variable {s : Session} {i : Nat} {c : Cursor}

/-- A call moves its own cursor forward, and no other one. -/
theorem exists_step (isStream : s[i]? = some c) (call : Call) :
    ∃ d, (s.step call)[i]? = some d ∧ c.Advances d ∧ (call.stream ≠ i → d = c) := by
  unfold step
  split
  · exact ⟨c, isStream, .refl c, fun _ => rfl⟩
  rename_i moved isMoved
  -- Cursors of opened groups are added behind all others, so that these keep their numbers.
  have inSession : i < s.length := (List.getElem?_eq_some_iff.1 isStream).1
  have kept (after : Cursor) (opened : List Cursor) :
      (s.set call.stream after ++ opened)[i]? = (s.set call.stream after)[i]? :=
    List.getElem?_append_left (by rwa [List.length_set])
  rw [kept]
  by_cases own : call.stream = i
  · subst own
    obtain rfl := Option.some.inj (isMoved.symm.trans isStream)
    obtain ⟨count, skips⟩ := call.operation.exists_behind_eq moved
    refine ⟨moved.skip count, ?_, moved.advances_skip count, fun other => absurd rfl other⟩
    rw [List.getElem?_set_self inSession, skips]
  · exact ⟨c, (List.getElem?_set_ne own).trans isStream, .refl c, fun _ => rfl⟩

/-- Calls move the cursors that they are made on forward, and no others. -/
theorem exists_run (isStream : s[i]? = some c) (calls : List Call) :
    ∃ d, (s.run calls)[i]? = some d ∧ c.Advances d ∧ ((∀ call ∈ calls, call.stream ≠ i) → d = c) := by
  induction calls generalizing s c with
  | nil => exact ⟨c, isStream, .refl c, fun _ => rfl⟩
  | cons call calls inductionHypothesis =>
      obtain ⟨d, isStream', first, frame⟩ := exists_step isStream call
      obtain ⟨e, isStream'', later, frame'⟩ := inductionHypothesis isStream'
      refine ⟨e, isStream'', first.trans later, fun others => ?_⟩
      obtain ⟨other, others⟩ := List.forall_mem_cons.1 others
      rw [frame' others, frame other]

/-- Whatever calls are made in a session, its cursors keep their trees and where these end, they never move back or
behind their last tree, and one on which no call is made stays where it is. Operations that look do not move their
cursor, and those that are to consume one tree move it by one, or fail and do not move it. The trees since a mark are
those up to a later mark and those since that. -/
theorem run_keeps_streams (s : Session) (calls : List Call) :
    (∀ i c, s[i]? = some c → ∃ d, (s.run calls)[i]? = some d ∧
      d.trees = c.trees ∧ d.finish = c.finish ∧ c.index ≤ d.index ∧ d.index ≤ d.trees.length ∧
      ((∀ call ∈ calls, call.stream ≠ i) → d = c)) ∧
    (∀ (α : Type) (op : Operation α) (c : Cursor), op.Looks → op.run.behind c = c) ∧
    (∀ (α : Type) (op : Operation α) (c : Cursor), op.TakesOne →
      (∀ v d, op.run c = .ok v d → d = c.skip 1 ∧ d.index = c.index + 1) ∧
      ∀ failure d, op.run c = .error failure d → d = c) ∧
    ∀ (c : Cursor) (first second : Nat), first ≤ second → second ≤ c.index →
      c.since first = (c.trees.take second).drop first ++ c.since second := by
  refine ⟨fun i c isStream => ?_, fun α op c looks => op.behind_of_looks looks c, fun α op c takes => ?_,
    fun c first second => c.since_append⟩
  · obtain ⟨d, isStream', moves, frame⟩ := exists_run isStream calls
    exact ⟨d, isStream', moves.trees_eq, moves.finish_eq, moves.index_le, d.index_le_length, frame⟩
  · rcases op.run_of_takesOne takes c with ⟨tree, later, v, rest, took⟩ | ⟨failure, failed⟩
    · refine ⟨fun w d isRead => ?_, fun failure d fails => ?_⟩
      · obtain ⟨rfl, rfl⟩ := EStateM.Result.ok.inj (took.symm.trans isRead)
        refine ⟨rfl, ?_⟩
        rw [index_skip, rest, List.length_cons]
        omega
      · cases took.symm.trans fails
    · refine ⟨fun w d isRead => ?_, fun failure' d fails => ?_⟩
      · cases failed.symm.trans isRead
      · exact (EStateM.Result.error.inj (failed.symm.trans fails)).2.symm

/-- The trees of `f(a)`. -/
def callTrees : List Tree :=
  [.token ⟨.ident, "f", ⟨1, 1⟩, false⟩,
    .group .paren ⟨1, 2⟩ ⟨1, 4⟩ [.token ⟨.ident, "a", ⟨1, 3⟩, false⟩]]

/-- The word and the group behind it are consumed, and then the word in the group, behind which there is no comma. -/
def openCall : List Call :=
  [⟨0, Tree, .advance⟩, ⟨0, Cursor, .openGroup .paren ""⟩]

def readInCall : List Call :=
  [⟨1, Tree, .advance⟩, ⟨1, Token, .expect .comma "" .unexpectedToken⟩]

/-- Reading inside a group that was opened leaves the cursor behind the group where it is. -/
theorem run_keeps_streams_call :
    let opened := Session.run [.ofTrees callTrees ⟨1, 5⟩] openCall
    opened = [(Cursor.ofTrees callTrees ⟨1, 5⟩).skip 2,
        .ofTrees [.token ⟨.ident, "a", ⟨1, 3⟩, false⟩] ⟨1, 4⟩] ∧
      (opened.run readInCall)[0]? = some ((Cursor.ofTrees callTrees ⟨1, 5⟩).skip 2) ∧
      (opened.run readInCall)[1]? =
        some ((Cursor.ofTrees [.token ⟨.ident, "a", ⟨1, 3⟩, false⟩] ⟨1, 4⟩).skip 1) := by
  intro opened
  obtain ⟨d, isStream, -, -, -, -, frame⟩ :=
    (run_keeps_streams opened readInCall).1 0 ((Cursor.ofTrees callTrees ⟨1, 5⟩).skip 2) rfl
  refine ⟨rfl, ?_, rfl⟩
  rw [isStream, frame (by simp [readInCall])]

end Session

end AttrGrammar
