import AttrGrammar.Lint
import AttrGrammar.Proofs.Attributes.Failures
import AttrGrammar.Proofs.Attributes.Sets
import AttrGrammar.Proofs.Literal.Suffixes
import AttrGrammar.Proofs.Printing.Source

/-!
Contract: every source has an answer.

Owns:
- the tokens that fit their types, as those of sources do, and that they cause no failures but rejections;
- that a list of attributes is read from every source, or the source or its trees are rejected at a place;
- that every line can be checked.

A token that no source has can be too large for its type, and a set of attributes can hold what is no grammar. The
sets here hold payloads.
-/

namespace AttrGrammar

open Reader

/-! ## Sources -/

/-- Whether the value of a token, if it has one, is not too large for its type. -/
def Token.Fits (t : Token) : Prop :=
  Literal.decode t.kind t.text ≠ .error .tooLarge

theorem Token.IsScanned.fits {t : Token} (isScanned : t.IsScanned) : t.Fits := by
  obtain ⟨c, more, kind, length, scanned, same⟩ := isScanned
  rw [Fits, same]
  exact Literal.decode_ne_tooLarge_of_scan scanned

/-- Tokens whose values fit their types, at any place, for which readers only reject. -/
def Blame.ofFitting : Blame where
  token := Token.Fits
  place _ := True
  failure f := ∃ e, f = .rejected e
  place_of_token _ := trivial
  failure_of_place _ := ⟨_, rfl⟩
  failure_of_literal := by
    intro t fault fits noLiteral
    cases fault with
    | tooLarge => exact absurd noLiteral fits
    | _ => exact ⟨_, rfl⟩

/-- A source is read by such a reader, or it has no trees, or they are rejected. -/
theorem Grammar.parse_of_keeps {g : Grammar} (keeps : Keeps .ofFitting g.read) (source : String) :
    (∃ parsed, g.parse source = .ok parsed) ∨ (∃ e, g.parse source = .error (.source e)) ∨
      ∃ e, g.parse source = .error (.failure (.rejected e)) := by
  cases isRead : treesOf source with
  | error e => exact .inr (.inl ⟨e, Grammar.parse_of_error isRead⟩)
  | ok trees =>
      obtain ⟨trees, finish⟩ := trees
      obtain ⟨-, areScanned, -⟩ := flattenAll_of_treesOf isRead
      rw [Grammar.parse_of_trees isRead]
      cases result : g.parseTrees trees finish with
      | ok parsed => exact .inl ⟨parsed, rfl⟩
      | error failure =>
          obtain ⟨e, rfl⟩ := Grammar.failure_of_parseTrees keeps (fun t member => (areScanned t member).fits) trivial
            result
          exact .inr (.inr ⟨e, rfl⟩)

/-! ## Lists of attributes -/

/-- Whether a source has an answer: reading it as a list of attributes yields them, or tells why the source has no
trees, or where they are rejected; and checking it as a line comes to a result. -/
def Answers (attrs : Grammar) (source : String) : Prop :=
  ((∃ attributes, parseAttributes attrs source = .ok attributes) ∨
    (∃ e, parseAttributes attrs source = .error (.source e)) ∨
    ∃ e, parseAttributes attrs source = .error (.failure (.rejected e))) ∧
  ∃ finding, Lint.line? attrs source = .ok finding

theorem answers_of_keeps {attrs : Grammar} (isGrammar : attrs.misuse? = none)
    (keeps : Keeps .ofFitting attrs.read) (source : String) : Answers attrs source := by
  have keepsList : Keeps .ofFitting (Grammar.read (.terminated attrs)) := by
    rw [Grammar.read, Grammar.readItems, isGrammar]
    exact keeps.terminated.bind_pure _
  unfold Answers Lint.line? Lint.check parseAttributes
  rcases Grammar.parse_of_keeps keepsList source with ⟨parsed, isRead⟩ | ⟨e, fails⟩ | ⟨e, fails⟩
  · rw [isRead]
    exact ⟨.inl ⟨_, rfl⟩, _, rfl⟩
  · rw [fails]
    exact ⟨.inr (.inl ⟨e, rfl⟩), _, rfl⟩
  · rw [fails]
    exact ⟨.inr (.inr ⟨e, rfl⟩), _, rfl⟩

/-- For every set of attributes over payloads, those that need no definition included, every source has an answer. -/
theorem attributes_answer (source : String) :
    (∀ s : AttrSet Payload, Answers (.attrs (s.map .payload)) source) ∧
      ∀ set : BuiltinSet, Answers (.builtin set) source := by
  constructor
  · intro s
    apply answers_of_keeps rfl
    rw [Grammar.read_attrs]
    exact s.keeps_read.bind_pure _
  · intro set
    apply answers_of_keeps rfl
    rw [Grammar.read]
    exact set.set.keeps_read.bind_pure _

end AttrGrammar
