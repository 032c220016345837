import AttrGrammar.Proofs.Printing.Print

/-!
Contract: the texts of identifier tokens.

Owns:
- the words, which are what such a token can be spelled as;
- that a source is one identifier token exactly if it is a word.
-/

namespace AttrGrammar

namespace Lexer

/-- Whether characters spell a word: one that starts a word, and then some that continue one. -/
def spellsWord : List Char → Bool
  | [] => false
  | c :: more => startsWord c && more.all continuesWord

section Words

variable {c : Char} {more : List Char} {length : Nat}

theorem all_take_runLength (inClass : Char → Bool) (cs : List Char) :
    (cs.take (runLength inClass cs)).all inClass := by
  induction cs with
  | nil => rfl
  | cons c cs inductionHypothesis =>
      rw [runLength_cons]
      split
      · rename_i here
        rw [List.take_succ_cons, List.all_cons, here, inductionHypothesis]
        rfl
      · rfl

/-- A word is one token, since no quote continues a word. -/
theorem scan_of_spellsWord (spells : spellsWord (c :: more)) :
    scan c more = .ok (.ident, more.length) := by
  obtain ⟨starts, continues⟩ := Bool.and_eq_true_iff.1 spells
  have noQuote {quote : Char} (isQuote : continuesWord quote = false) : more.head? ≠ some quote := by
    intro first
    obtain ⟨others, rfl⟩ := List.head?_eq_some_iff.1 first
    rw [List.all_cons, isQuote] at continues
    cases continues
  have isWord := ScanRule.word starts fun _ => ⟨noQuote (by decide), noQuote (by decide)⟩
  rw [isWord.scan_eq, runLength_eq_length continues]

/-- The characters of an identifier token spell a word. -/
theorem spellsWord_of_scan (scanned : scan c more = .ok (.ident, length)) :
    spellsWord (c :: more.take length) := by
  cases scanRule_of_scan scanned with
  | word starts =>
      rw [spellsWord, starts, all_take_runLength]
      rfl
  | number _ _ isNumber =>
      have isKind := scanNumber_kind c more
      rw [isNumber] at isKind
      simp [numberKinds] at isKind
  | singleQuote isScanned =>
      unfold scanSingleQuote at isScanned
      split at isScanned
      · split at isScanned <;> cases isScanned
      · split at isScanned <;> cases isScanned
  | pair _ isPair => cases TokenKind.spelling_ofPair? isPair
  | single _ _ isSingle => cases TokenKind.spelling_ofChar? isSingle

end Words

end Lexer

open Lexer

theorem Token.IsScanned.spellsWord {t : Token} (isScanned : t.IsScanned) (isIdent : t.kind = .ident) :
    spellsWord t.text.toList := by
  obtain ⟨c, more, kind, length, scanned, same⟩ := isScanned
  have isKind : t.kind = kind := by rw [same]; rfl
  rw [← isKind, isIdent] at scanned
  rw [same, tokenAt, String.toList_ofList]
  exact spellsWord_of_scan scanned

/-- The tokens of a word: the word, and the end. -/
def wordTokens (word : String) : List Token :=
  [.word word .start, .atEnd (Position.start.after word.toList)]

/-- A source is one identifier token exactly if it spells a word. -/
theorem tokenize_eq_wordTokens_iff {source : String} :
    tokenize source = .ok (wordTokens source) ↔ spellsWord source.toList := by
  constructor
  · intro isRead
    obtain ⟨ts, same, areScanned⟩ := (tokensFrom_eq_ok_iff.1 isRead).tokens
    obtain rfl : [.word source .start] = ts := List.append_inj_left' same rfl
    have isScanned : (Token.word source .start).IsScanned := areScanned _ (.head _)
    exact isScanned.spellsWord rfl
  · intro spells
    obtain ⟨c, more, isText⟩ : ∃ c more, source.toList = c :: more := by
      cases isText : source.toList with
      | nil =>
          rw [isText] at spells
          cases spells
      | cons c more => exact ⟨c, more, rfl⟩
    rw [isText] at spells
    have scanned := scan_of_spellsWord spells
    have isScanned : (Token.word source .start).IsScanned := by
      refine ⟨c, more, .ident, more.length, scanned, ?_⟩
      rw [List.take_length, ← isText, tokenAt, String.ofList_toList]
      rfl
    have notEmpty : (Token.word source .start).text ≠ Token.emptyCharacter := by
      intro isEmpty
      cases isScanned.kind_of_emptyCharacter isEmpty
    have atEnd (p : Position) : tokensFrom p [] = .ok [.atEnd p] := tokensFrom_gap rfl
    have follows : Follows (Token.word source .start).joint [] := ends_nil
    have isToken := tokensFrom_text (isScanned.rescans notEmpty) follows .start
    rw [List.append_nil, atEnd] at isToken
    exact isToken

end AttrGrammar
