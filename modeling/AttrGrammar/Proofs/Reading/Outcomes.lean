import AttrGrammar.Grammar

/-!
Contract: what a reader yields, wherever it stops.

Owns:
- the outcome of a reader at a cursor, and of a reader within a group;
- the outcome of a grammar for trees;
- what it takes for a source to be read by a grammar, and what for it to fail.
-/

namespace AttrGrammar

namespace Reader

/-! ## Outcomes -/

section Outcomes

variable {α β : Type} {r : Reader α} {c : Cursor}

/-- What a reader yields at a cursor, wherever it leaves the cursor. -/
def outcome (r : Reader α) (c : Cursor) : Except Failure α :=
  match r c with
  | .ok v _ => .ok v
  | .error failure _ => .error failure

theorem outcome_map (f : α → β) : outcome (f <$> r) c = (outcome r c).map f := by
  show (match EStateM.map f r c with
    | .ok v _ => _
    | .error failure _ => _) = _
  unfold EStateM.map outcome
  cases r c <;> rfl

theorem outcome_eq_ok_iff {v : α} : outcome r c = .ok v ↔ ∃ d, r c = .ok v d := by
  unfold outcome
  cases r c with
  | ok w d =>
      constructor
      · intro same
        exact ⟨d, by rw [Except.ok.inj same]⟩
      · rintro ⟨e, same⟩
        rw [(EStateM.Result.ok.inj same).1]
  | error failure d => exact ⟨nofun, nofun⟩

theorem exists_of_outcome_eq_error {failure : Failure} (fails : outcome r c = .error failure) :
    ∃ d, r c = .error failure d := by
  unfold outcome at fails
  cases result : r c with
  | ok v d =>
      rw [result] at fails
      cases fails
  | error failure' d =>
      rw [result] at fails
      exact ⟨d, by rw [Except.error.inj fails]⟩

theorem exists_of_map_eq_ok {ε : Type} {x : Except ε α} {f : α → β} {w : β} (same : x.map f = .ok w) :
    ∃ v, x = .ok v ∧ f v = w := by
  cases x with
  | error e => cases same
  | ok v => exact ⟨v, rfl, Except.ok.inj same⟩

theorem inside_eq_ok_iff {d inner : Cursor} {v : α} :
    inside inner r c = .ok v d ↔ outcome r inner = .ok v ∧ d = c := by
  unfold Reader.inside outcome
  cases r inner with
  | ok w e =>
      constructor
      · intro same
        obtain ⟨rfl, rfl⟩ := EStateM.Result.ok.inj same
        exact ⟨rfl, rfl⟩
      · rintro ⟨same, rfl⟩
        rw [Except.ok.inj same]
  | error failure e => exact ⟨nofun, fun reads => nomatch reads.1⟩

end Outcomes

section Errors

variable {ε δ α : Type} {x : Except ε α} {f : ε → δ}

theorem mapError_eq_ok_iff {v : α} : x.mapError f = .ok v ↔ x = .ok v := by
  cases x with
  | ok w =>
      show (Except.ok w : Except δ α) = .ok v ↔ _
      simp
  | error d =>
      show (Except.error (f d) : Except δ α) = .ok v ↔ _
      simp

theorem mapError_eq_error_iff {e : δ} : x.mapError f = .error e ↔ ∃ d, x = .error d ∧ f d = e := by
  cases x with
  | ok w =>
      show (Except.ok w : Except δ α) = .error e ↔ _
      simp
  | error d =>
      show (Except.error (f d) : Except δ α) = .error e ↔ _
      simp

end Errors

end Reader

open Reader

/-! ## Sources -/

namespace Grammar

theorem parseTrees_eq (g : Grammar) (trees : List Tree) (finish : Position) :
    g.parseTrees trees finish = outcome (whole g.read) (.ofTrees trees finish) := by
  unfold parseTrees outcome
  cases whole g.read (.ofTrees trees finish) <;> rfl

section Sources

variable {g : Grammar} {source : String} {trees : List Tree} {finish : Position}

theorem parse_of_error {e : SourceError} (fails : treesOf source = .error e) :
    g.parse source = .error (.source e) := by
  rw [parse, fails]
  rfl

theorem parse_of_trees (isRead : treesOf source = .ok (trees, finish)) :
    g.parse source = (g.parseTrees trees finish).mapError .failure := by
  rw [parse, isRead]
  rfl

/-- What it takes for a source to be read. -/
theorem parse_eq_ok_iff {node : Parsed} :
    g.parse source = .ok node ↔ ∃ trees finish d, treesOf source = .ok (trees, finish) ∧
      whole g.read (.ofTrees trees finish) = .ok node d := by
  constructor
  · intro parsed
    cases isRead : treesOf source with
    | error e =>
        rw [parse_of_error isRead] at parsed
        cases parsed
    | ok trees =>
        obtain ⟨trees, finish⟩ := trees
        rw [parse_of_trees isRead, mapError_eq_ok_iff, parseTrees_eq, outcome_eq_ok_iff] at parsed
        obtain ⟨d, read⟩ := parsed
        exact ⟨trees, finish, d, rfl, read⟩
  · rintro ⟨trees, finish, d, isRead, read⟩
    rw [parse_of_trees isRead, mapError_eq_ok_iff, parseTrees_eq, outcome_eq_ok_iff]
    exact ⟨d, read⟩

/-- What it takes for a source not to be read: it has no trees, or reading them fails. -/
theorem parse_eq_error_iff {failure : SourceFailure} :
    g.parse source = .error failure ↔ (∃ e, treesOf source = .error e ∧ .source e = failure) ∨
      ∃ trees finish, treesOf source = .ok (trees, finish) ∧
        ∃ f, g.parseTrees trees finish = .error f ∧ .failure f = failure := by
  constructor
  · intro fails
    cases isRead : treesOf source with
    | error e =>
        rw [parse_of_error isRead] at fails
        exact .inl ⟨e, rfl, Except.error.inj fails⟩
    | ok trees =>
        obtain ⟨trees, finish⟩ := trees
        rw [parse_of_trees isRead, mapError_eq_error_iff] at fails
        exact .inr ⟨trees, finish, rfl, fails⟩
  · rintro (⟨e, fails, rfl⟩ | ⟨trees, finish, isRead, fails⟩)
    · exact parse_of_error fails
    · rw [parse_of_trees isRead, mapError_eq_error_iff]
      exact fails

end Sources

end Grammar

end AttrGrammar
