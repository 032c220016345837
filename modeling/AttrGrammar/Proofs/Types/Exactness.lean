import AttrGrammar.Proofs.Types.Completeness
import AttrGrammar.Proofs.Types.Soundness

/-!
Contract: types are read exactly where they have derivations.

Owns:
- what is read in front of trees that do not continue a type is what has a derivation, as the type that it denotes;
- generic arguments within each other, whose lists are closed by one `>` each, joint or not.
-/

namespace AttrGrammar

namespace TypeExpr

open Cursor Reader

section Exactness

variable {c d : Cursor}

/-- What is read as a type has a derivation, whatever follows. -/
theorem exists_of_read {s : Spelled TypeExpr} (isRead : read c = .ok s d) :
    ∃ derivation : Derivation, derivation.trees = s.trees ∧ derivation.type = s.node := by
  obtain ⟨isNode, trees⟩ := read_eq_ok_iff.1 isRead
  obtain ⟨derivation, isType, takes⟩ := exists_of_readAt (Nat.le_refl _) isNode
  refine ⟨derivation, ?_, isType⟩
  rw [trees, takes.moved, since_skip, takes.rest, List.take_left]

theorem Derivation.read_eq (derivation : Derivation) (takes : c.Takes derivation.trees d)
    (ends : EndsPath d.rest) : read c = .ok ⟨derivation.type, derivation.trees⟩ d := by
  refine read_eq_ok_iff.2 ⟨derivation.isRead _ takes ends (Nat.le_refl _), ?_⟩
  rw [takes.moved, since_skip, takes.rest, List.take_left]

end Exactness

/-! ## Arguments within arguments -/

/-- What stands around the only argument of a path: its name and `<` in front, and `>` behind. -/
structure Layer where
  name : TokenOf .ident
  starts : StartsPath name.1.text
  left : TokenOf .langle
  right : TokenOf .rangle

namespace Layer

/-- The path whose only argument is a type. -/
def type (layer : Layer) (inner : TypeExpr) : TypeExpr :=
  .path false [.mk layer.name.1.text [.type inner]] layer.name.1.position

def derivation (layer : Layer) (inner : Derivation) : Derivation :=
  .path none layer.name (fun _ => layer.starts)
    (.present layer.left (.last (.type inner) layer.right)) .done

/-- Trees within layers, the outermost first: all names and `<` stand in front, and all `>` behind. -/
def around (layers : List Layer) (inner : List Tree) : List Tree :=
  (layers.flatMap fun layer => [.token layer.name.1, .token layer.left.1]) ++
    (inner ++ layers.reverse.map fun layer => .token layer.right.1)

theorem trees_derivation (layers : List Layer) (inner : Derivation) :
    (layers.foldr derivation inner).trees = around layers inner.trees := by
  induction layers with
  | nil => simp [around]
  | cons layer layers inductionHypothesis =>
      rw [List.foldr_cons]
      show .token layer.name.1 :: .token layer.left.1 ::
        ((layers.foldr derivation inner).trees ++ [.token layer.right.1] ++ []) = _
      rw [inductionHypothesis]
      simp [around]

theorem type_derivation (layers : List Layer) (inner : Derivation) :
    (layers.foldr derivation inner).type = layers.foldr type inner.type := by
  induction layers with
  | nil => rfl
  | cons layer layers inductionHypothesis =>
      rw [List.foldr_cons, List.foldr_cons, ← inductionHypothesis]
      rfl

end Layer

/-- In front of trees that do not continue a type, types are read exactly where they have derivations, as what these
denote. In particular, each of the lists of generic arguments that stand within each other is closed by one of the
`>` that stand side by side. -/
theorem read_iff_derivation (c : Cursor) (trees rest : List Tree) (shape : c.rest = trees ++ rest)
    (ends : EndsPath rest) :
    (∀ t, read c = .ok ⟨t, trees⟩ (c.skip trees.length) ↔
      ∃ d : Derivation, d.trees = trees ∧ d.type = t) ∧
    ∀ (layers : List Layer) (d : Derivation), trees = Layer.around layers d.trees →
      read c = .ok ⟨layers.foldr Layer.type d.type, trees⟩ (c.skip trees.length) := by
  have takes := takes_skip shape
  have behind : (c.skip trees.length).rest = rest := by simp [skip, shape]
  have isRead (d : Derivation) (spelled : d.trees = trees) :
      read c = .ok ⟨d.type, trees⟩ (c.skip trees.length) := by
    subst spelled
    exact d.read_eq takes (behind ▸ ends)
  refine ⟨fun t => ⟨exists_of_read, ?_⟩, fun layers d around => ?_⟩
  · rintro ⟨d, spelled, rfl⟩
    exact isRead d spelled
  · rw [← Layer.type_derivation]
    exact isRead _ ((Layer.trees_derivation layers d).trans around.symm)

/-- The trees of `Vec<Vec<[u8; 4]>>`, the first `>` being joint with the second. -/
def vectorOfVectors : List Tree :=
  [.token ⟨.ident, "Vec", ⟨1, 1⟩, false⟩, .token ⟨.langle, "<", ⟨1, 4⟩, false⟩,
    .token ⟨.ident, "Vec", ⟨1, 5⟩, false⟩, .token ⟨.langle, "<", ⟨1, 8⟩, false⟩,
    .group .bracket ⟨1, 9⟩ ⟨1, 15⟩
      [.token ⟨.ident, "u8", ⟨1, 10⟩, false⟩, .token ⟨.semi, ";", ⟨1, 12⟩, false⟩,
        .token ⟨.int, "4", ⟨1, 14⟩, false⟩],
    .token ⟨.rangle, ">", ⟨1, 16⟩, true⟩, .token ⟨.rangle, ">", ⟨1, 17⟩, false⟩]

/-- Two lists of generic arguments are closed by `>>`, in front of a comma. -/
theorem read_vectorOfVectors :
    EndsPath [.token ⟨.comma, ",", ⟨1, 18⟩, false⟩] ∧
      read (.ofTrees (vectorOfVectors ++ [.token ⟨.comma, ",", ⟨1, 18⟩, false⟩]) ⟨1, 19⟩) =
        .ok ⟨.path false [.mk "Vec" [.type (.path false [.mk "Vec" [.type
            (.array (.path false [.mk "u8" []] ⟨1, 10⟩) (.literal ⟨.int 4, ""⟩ ⟨1, 14⟩) ⟨1, 9⟩)]]
              ⟨1, 5⟩)]] ⟨1, 1⟩, vectorOfVectors⟩
          ⟨vectorOfVectors.reverse, [.token ⟨.comma, ",", ⟨1, 18⟩, false⟩], ⟨1, 19⟩⟩ := by
  have ends : EndsPath [.token ⟨.comma, ",", ⟨1, 18⟩, false⟩] := by
    rintro t later rest
    obtain rfl := Tree.token.inj (List.cons.inj rest).1
    decide
  have starts : StartsPath "Vec" := ⟨by decide, by decide⟩
  have isLength : IsLength [.token ⟨.int, "4", ⟨1, 14⟩, false⟩] ⟨1, 15⟩
      (.literal ⟨.int 4, ""⟩ ⟨1, 14⟩) :=
    (isLength_iff_ofTrees (by decide)).2 (by cbv)
  let outer : Layer := ⟨⟨⟨.ident, "Vec", ⟨1, 1⟩, false⟩, rfl⟩, starts,
    ⟨⟨.langle, "<", ⟨1, 4⟩, false⟩, rfl⟩, ⟨⟨.rangle, ">", ⟨1, 17⟩, false⟩, rfl⟩⟩
  let inner : Layer := ⟨⟨⟨.ident, "Vec", ⟨1, 5⟩, false⟩, rfl⟩, starts,
    ⟨⟨.langle, "<", ⟨1, 8⟩, false⟩, rfl⟩, ⟨⟨.rangle, ">", ⟨1, 16⟩, true⟩, rfl⟩⟩
  let array : Derivation := .array ⟨1, 9⟩ ⟨1, 15⟩
    (.path none ⟨⟨.ident, "u8", ⟨1, 10⟩, false⟩, rfl⟩ (fun _ => ⟨by decide, by decide⟩) .absent .done)
    ⟨⟨.semi, ";", ⟨1, 12⟩, false⟩, rfl⟩ _ _ isLength
  exact ⟨ends, (read_iff_derivation _ vectorOfVectors _ rfl ends).2 [outer, inner] array rfl⟩

end TypeExpr

end AttrGrammar
