import AttrGrammar.Proofs.Expression.Completeness
import AttrGrammar.Proofs.Trees.Flatten

/-!
Contract: what a step of the parser of expressions looks like from outside, where only brackets, bars and commas
are told apart.

Owns:
- how many brackets are open in a state, and which phases belong to the parameters of a closure;
- what a step does to these, by the kind of its terminal;
- a comma outside parameters is taken only inside brackets.

Does not own: which trees the terminals were made of.
-/

namespace AttrGrammar

theorem Delimiter.openKind_ne_closeKind (d d' : Delimiter) : d.openKind ≠ d'.closeKind := by
  cases d <;> cases d' <;> decide

namespace TokenKind

/-- Whether a token of a kind can end an operand. -/
def endsOperand (kind : TokenKind) : Bool :=
  kind.isLiteral || kind = .ident || kind = .question

/-- Whether tokens of a kind are brackets of groups. -/
def IsBracket (kind : TokenKind) : Prop :=
  ∃ d : Delimiter, kind = d.openKind ∨ kind = d.closeKind

/-- Whether tokens of a kind stand between operands or in front of one, commas aside. -/
def IsSign (kind : TokenKind) : Prop :=
  ¬kind.IsBracket ∧ kind.endsOperand = false ∧ kind ≠ .comma

theorem isBracket_openKind (d : Delimiter) : d.openKind.IsBracket :=
  ⟨d, .inl rfl⟩

theorem isBracket_closeKind (d : Delimiter) : d.closeKind.IsBracket :=
  ⟨d, .inr rfl⟩

theorem isBracket_iff {kind : TokenKind} :
    kind.IsBracket ↔ (Delimiter.ofOpen? kind).isSome ∨ (Delimiter.ofClose? kind).isSome := by
  constructor
  · rintro ⟨d, rfl | rfl⟩
    · simp
    · simp
  · rintro (opens | closes)
    · obtain ⟨d, opens⟩ := Option.isSome_iff_exists.1 opens
      exact ⟨d, .inl (Delimiter.ofOpen?_eq_some_iff.1 opens)⟩
    · obtain ⟨d, closes⟩ := Option.isSome_iff_exists.1 closes
      exact ⟨d, .inr (Delimiter.ofClose?_eq_some_iff.1 closes)⟩

instance (kind : TokenKind) : Decidable kind.IsBracket :=
  decidable_of_iff _ isBracket_iff.symm

instance (kind : TokenKind) : Decidable kind.IsSign :=
  inferInstanceAs (Decidable (_ ∧ _ ∧ _))

/-- What can end an operand is no bracket by itself, no comma and no bar. -/
theorem plain_of_endsOperand {kind : TokenKind} (ends : kind.endsOperand) :
    ¬kind.IsBracket ∧ kind ≠ .comma ∧ kind ≠ .pipe := by
  cases kind <;> first | decide | cases ends

end TokenKind

open TokenKind

theorem Token.IsPlain.not_isBracket {t : Token} (plain : t.IsPlain) : ¬t.kind.IsBracket := by
  rw [isBracket_iff, plain.1, plain.2.1]
  exact nofun

theorem Symbol.endsOperand_of_isLiteral {s : Symbol} (isLiteral : s.isLiteral) :
    s.tokenKind.endsOperand := by
  cases s.spellsLiteral_of_isLiteral isLiteral <;> rfl

theorem Signs.isSign {s : Symbol} {op : UnaryOp} (rule : Signs s op) :
    s.tokenKind.IsSign ∧ s.tokenKind ≠ .pipe := by
  cases rule <;> decide

theorem Infixes.isSign {n l r : Nonterminal} {s : Symbol} {op : BinaryOp}
    (rule : Infixes n l s r op) : s.tokenKind.IsSign := by
  cases rule <;> decide

namespace ExprParser

/-! ## What can be seen of a state -/

def Frame.isBracket : Frame → Bool
  | items .. | index .. | fill .. => true
  | binary .. | unary .. | closure _ => false

/-- How many brackets are open in frames. -/
def depth (frames : List Frame) : Nat :=
  frames.countP Frame.isBracket

@[simp] theorem depth_nil : depth [] = 0 :=
  rfl

@[simp] theorem depth_cons (frame : Frame) (outer : List Frame) :
    depth (frame :: outer) = depth outer + if frame.isBracket then 1 else 0 :=
  List.countP_cons

/-- Settling leaves all brackets open. -/
@[simp] theorem depth_settle (level : Nat) (e : Phrase) (frames : List Frame) :
    depth (settle level e frames).2 = depth frames := by
  fun_induction settle level e frames with
  | case1 e op sign outer inductionHypothesis => simpa [Frame.isBracket] using inductionHypothesis
  | case2 e left op sign outer takes inductionHypothesis =>
      simpa [Frame.isBracket] using inductionHypothesis
  | case3 => rfl
  | case4 => rfl

@[simp] theorem depth_complete (e : Phrase) (frames : List Frame) :
    depth (complete e frames).2 = depth frames := by
  fun_induction complete e frames with
  | case1 e op sign outer inductionHypothesis => simpa [Frame.isBracket] using inductionHypothesis
  | case2 e left op sign outer inductionHypothesis =>
      simpa [Frame.isBracket] using inductionHypothesis
  | case3 e head outer inductionHypothesis => simpa [Frame.isBracket] using inductionHypothesis
  | case4 => rfl

/-- Whether a type name belongs to a parameter of a closure. -/
def TypeUse.inParams : TypeUse → Bool
  | cast .. => false
  | param .. => true

/-- Whether a phase is behind the first bar of a closure, and before the second one. -/
def Phase.inParams : Phase → Bool
  | params _ | paramName .. => true
  | typeStart use | typePath use _ | typeSep use .. => use.inParams
  | _ => false

theorem Phase.inParams_of_operand? {p : Phase} (holds : p.operand?.isSome) : p.inParams = false := by
  unfold operand? at holds
  split at holds <;> first | rfl | cases holds

/-! ## What a step does -/

/-- How a terminal of a kind that is no bracket leads from a phase to a phase, so many brackets being open. -/
inductive Passes (kind : TokenKind) (depth : Nat) : Phase → Phase → Prop where
  /-- Parameters go on. -/
  | params {p q : Phase} (before : p.inParams) (after : q.inParams) (other : kind ≠ .pipe) :
      Passes kind depth p q
  /-- A bar closes the parameters. -/
  | closingBar {p : Phase} (before : p.inParams) (isBar : kind = .pipe) : Passes kind depth p .start
  /-- A bar opens parameters. -/
  | openingBar {q : Phase} (after : q.inParams) (isBar : kind = .pipe) : Passes kind depth .start q
  /-- A comma separates items. -/
  | comma {p : Phase} (before : p.inParams = false) (isComma : kind = .comma)
      (inBrackets : 0 < depth) : Passes kind depth p .start
  /-- An operand is wanted next. A bar is an operator only behind an operand. -/
  | sign {p : Phase} (before : p.inParams = false) (isSign : kind.IsSign)
      (bar : kind = .pipe → p.operand?.isSome) : Passes kind depth p .start
  /-- An operand starts, goes on or ends. -/
  | word {p q : Phase} (before : p.inParams = false) (after : q.inParams = false)
      (notStart : q ≠ .start) (notComma : kind ≠ .comma) (notBar : kind ≠ .pipe)
      (ends : q.operand?.isSome → kind.endsOperand) : Passes kind depth p q

/-- What a step for a terminal does to brackets and phases. -/
inductive Turn (t : Terminal) (s next : State) : Prop where
  | opens (isOpen : ∃ d : Delimiter, t.symbol.tokenKind = d.openKind)
      (before : s.phase.inParams = false) (deeper : depth next.frames = depth s.frames + 1)
  | closes (isClose : ∃ d : Delimiter, t.symbol.tokenKind = d.closeKind) {e : Phrase}
      (phase : next.phase = .operand e) (deeper : depth s.frames = depth next.frames + 1)
  | stays (noBracket : ¬t.symbol.tokenKind.IsBracket)
      (level : depth next.frames = depth s.frames)
      (passes : Passes t.symbol.tokenKind (depth s.frames) s.phase next.phase)

section Turns

variable {t : Terminal} {s next : State} {d : Delimiter}

theorem Turn.of_openKind (turn : Turn t s next) (isOpen : t.symbol.tokenKind = d.openKind) :
    s.phase.inParams = false ∧ depth next.frames = depth s.frames + 1 := by
  cases turn with
  | opens _ before deeper => exact ⟨before, deeper⟩
  | closes isClose =>
      obtain ⟨d', isClose⟩ := isClose
      exact absurd (isOpen.symm.trans isClose) (d.openKind_ne_closeKind d')
  | stays noBracket => exact absurd (isOpen ▸ TokenKind.isBracket_openKind d) noBracket

theorem Turn.of_closeKind (turn : Turn t s next) (isClose : t.symbol.tokenKind = d.closeKind) :
    depth s.frames = depth next.frames + 1 ∧ ∃ e, next.phase = .operand e := by
  cases turn with
  | opens isOpen =>
      obtain ⟨d', isOpen⟩ := isOpen
      exact absurd (isOpen.symm.trans isClose) (d'.openKind_ne_closeKind d)
  | closes _ phase deeper => exact ⟨deeper, _, phase⟩
  | stays noBracket => exact absurd (isClose ▸ TokenKind.isBracket_closeKind d) noBracket

theorem Turn.of_plain (turn : Turn t s next) (plain : ¬t.symbol.tokenKind.IsBracket) :
    depth next.frames = depth s.frames ∧
      Passes t.symbol.tokenKind (depth s.frames) s.phase next.phase := by
  cases turn with
  | opens isOpen =>
      obtain ⟨d, isOpen⟩ := isOpen
      exact absurd (isOpen ▸ TokenKind.isBracket_openKind d) plain
  | closes isClose =>
      obtain ⟨d, isClose⟩ := isClose
      exact absurd (isClose ▸ TokenKind.isBracket_closeKind d) plain
  | stays _ level passes => exact ⟨level, passes⟩

end Turns

section Steps

variable {t : Terminal} {s next : State} {e : Phrase} {frames : List Frame}

/-- A literal, a word or a question mark ends an operand, or is a part of one. -/
theorem turn_ending {symbol : Symbol} (isSymbol : t.symbol = symbol)
    (ends : symbol.tokenKind.endsOperand) (before : s.phase.inParams = false)
    (after : next.phase.inParams = false) (notStart : next.phase ≠ .start)
    (level : depth next.frames = depth s.frames) : Turn t s next := by
  subst isSymbol
  obtain ⟨noBracket, notComma, notBar⟩ := plain_of_endsOperand ends
  exact .stays noBracket level (.word before after notStart notComma notBar fun _ => ends)

/-- A terminal that an operand goes on with, but cannot end with. -/
theorem turn_mark {kind : TokenKind} (isKind : t.symbol = .token kind)
    (before : s.phase.inParams = false) (after : next.phase.inParams = false)
    (notStart : next.phase ≠ .start) (incomplete : next.phase.operand? = none)
    (level : depth next.frames = depth s.frames)
    (plain : ¬kind.IsBracket ∧ kind ≠ .comma ∧ kind ≠ .pipe) : Turn t s next := by
  obtain rfl : t.symbol.tokenKind = kind := congrArg Symbol.tokenKind isKind
  obtain ⟨noBracket, notComma, notBar⟩ := plain
  refine .stays noBracket level (.word before after notStart notComma notBar ?_)
  rw [incomplete]
  exact nofun

/-- A sign behind which an operand is wanted, and that is no bar. -/
theorem turn_sign {symbol : Symbol} (isSymbol : t.symbol = symbol)
    (isSign : symbol.tokenKind.IsSign) (notBar : symbol.tokenKind ≠ .pipe)
    (before : s.phase.inParams = false) (after : next.phase = .start)
    (level : depth next.frames = depth s.frames) : Turn t s next := by
  subst isSymbol
  refine .stays isSign.1 level ?_
  rw [after]
  exact .sign before isSign fun isBar => absurd isBar notBar

/-- A terminal among the parameters of a closure that does not end them. -/
theorem turn_params {kind : TokenKind} (isKind : t.symbol = .token kind)
    (before : s.phase.inParams) (after : next.phase.inParams) (frames : next.frames = s.frames)
    (plain : ¬kind.IsBracket ∧ kind ≠ .pipe) : Turn t s next := by
  obtain rfl : t.symbol.tokenKind = kind := congrArg Symbol.tokenKind isKind
  exact .stays plain.1 (congrArg depth frames) (.params before after plain.2)

theorem turn_closingBar {head : ClosureHead} (isBar : t.symbol = .token .pipe)
    (before : s.phase.inParams) : Turn t s ⟨.start, .closure head :: s.frames⟩ := by
  have isKind : t.symbol.tokenKind = .pipe := congrArg Symbol.tokenKind isBar
  refine .stays ?_ (by simp [Frame.isBracket]) (.closingBar before isKind)
  rw [isKind]
  decide

/-- A bracket that closes leaves the frames behind it. -/
theorem turn_closed {frame : Frame} {outer : List Frame} {whole : Phrase}
    (isClose : ∃ d : Delimiter, t.symbol.tokenKind = d.closeKind) (isBracket : frame.isBracket)
    (level : depth (frame :: outer) = depth s.frames) : Turn t s ⟨.operand whole, outer⟩ := by
  refine .closes isClose rfl ?_
  rw [← level, depth_cons, if_pos isBracket]

theorem turn_stepComma (isComma : t.symbol = .token .comma) (before : s.phase.inParams = false)
    (level : depth frames = depth s.frames) (taken : stepComma e frames t = .ok next) :
    Turn t s next := by
  unfold stepComma at taken
  split at taken
  · rename_i use opening before' outer
    obtain rfl := Except.ok.inj taken
    have isKind : t.symbol.tokenKind = .comma := congrArg Symbol.tokenKind isComma
    refine .stays ?_ level (.comma before isKind ?_)
    · rw [isKind]
      decide
    · rw [← level]
      simp [Frame.isBracket]
  · cases taken

theorem turn_stepSemi (isSemi : t.symbol = .token .semi) (before : s.phase.inParams = false)
    (level : depth frames = depth s.frames) (taken : stepSemi e frames t = .ok next) :
    Turn t s next := by
  unfold stepSemi at taken
  split at taken
  · rename_i opening outer
    obtain rfl := Except.ok.inj taken
    exact turn_sign isSemi (by decide) (by decide) before rfl level
  · cases taken

theorem turn_stepClose {kind : TokenKind} (closes : ∃ d : Delimiter, kind = d.closeKind)
    (isKind : t.symbol = .token kind) (level : depth frames = depth s.frames)
    (taken : stepClose e kind frames t = .ok next) : Turn t s next := by
  have isClose : ∃ d : Delimiter, t.symbol.tokenKind = d.closeKind := by
    rw [isKind]
    exact closes
  unfold stepClose at taken
  split at taken
  · split at taken
    · obtain rfl := Except.ok.inj taken
      exact turn_closed isClose rfl level
    · cases taken
  · split at taken
    · obtain rfl := Except.ok.inj taken
      exact turn_closed isClose rfl level
    · cases taken
  · split at taken
    · obtain rfl := Except.ok.inj taken
      exact turn_closed isClose rfl level
    · cases taken
  · split at taken
    · obtain rfl := Except.ok.inj taken
      exact turn_closed isClose rfl level
    · cases taken
  · cases taken

theorem turn_stepBinary {op : BinaryOp} (isOp : t.symbol.binaryOp? = some op)
    (holds : s.phase.operand?.isSome) (taken : stepBinary e op s.frames t = .ok next) :
    Turn t s next := by
  have isSign := (Symbol.infixes_of_binaryOp? isOp).isSign
  have settled := depth_settle op.leftLevel e s.frames
  rw [stepBinary_eq] at taken
  generalize settle op.leftLevel e s.frames = result at settled taken
  obtain ⟨left, outer⟩ := result
  dsimp only at taken settled
  have pending : next = ⟨.start, .binary left op t :: outer⟩ := by
    split at taken
    · split at taken
      · cases taken
      · exact (Except.ok.inj taken).symm
    · exact (Except.ok.inj taken).symm
  subst pending
  refine .stays isSign.1 ?_ (.sign (Phase.inParams_of_operand? holds) isSign fun _ => holds)
  simpa [Frame.isBracket] using settled

theorem turn_stepBehind (holds : s.phase.operand?.isSome)
    (taken : stepBehind e s.frames t = .ok next) : Turn t s next := by
  have before := Phase.inParams_of_operand? holds
  have completed := depth_complete e s.frames
  unfold stepBehind at taken
  split at taken
  · rename_i isAs
    obtain rfl := Except.ok.inj taken
    exact turn_ending isAs rfl before rfl nofun (depth_settle ..)
  · rename_i isComma
    exact turn_stepComma isComma before completed taken
  · rename_i isSemi
    exact turn_stepSemi isSemi before completed taken
  · rename_i closes
    exact turn_stepClose ⟨.paren, rfl⟩ closes completed taken
  · rename_i closes
    exact turn_stepClose ⟨.bracket, rfl⟩ closes completed taken
  · split at taken
    · rename_i isOp
      exact turn_stepBinary isOp holds taken
    · cases taken

theorem turn_stepOperand (holds : s.phase.operand?.isSome)
    (taken : stepOperand e s.frames t = .ok next) : Turn t s next := by
  have before := Phase.inParams_of_operand? holds
  unfold stepOperand at taken
  split at taken
  · rename_i isDot
    obtain rfl := Except.ok.inj taken
    exact turn_mark isDot before rfl nofun rfl rfl (by decide)
  · rename_i opens
    obtain rfl := Except.ok.inj taken
    exact .opens ⟨.paren, congrArg Symbol.tokenKind opens⟩ before (depth_cons ..)
  · rename_i opens
    obtain rfl := Except.ok.inj taken
    exact .opens ⟨.bracket, congrArg Symbol.tokenKind opens⟩ before (depth_cons ..)
  · rename_i isQuestion
    obtain rfl := Except.ok.inj taken
    exact turn_ending isQuestion rfl before rfl nofun rfl
  · exact turn_stepBehind holds taken

theorem ItemsUse.isClose_closer (use : ItemsUse) : ∃ d : Delimiter, use.closer = d.closeKind := by
  cases use with
  | group => exact ⟨.paren, rfl⟩
  | call callee => exact ⟨.paren, rfl⟩
  | invocation name bang delimiter => exact ⟨delimiter, rfl⟩
  | array => exact ⟨.bracket, rfl⟩

theorem turn_stepStart (start : s.phase = .start) (taken : stepStart s.frames t = .ok next) :
    Turn t s next := by
  have before : s.phase.inParams = false := by rw [start]; rfl
  unfold stepStart at taken
  split at taken
  · rename_i isLiteral
    obtain rfl := Except.ok.inj taken
    exact turn_ending rfl (Symbol.endsOperand_of_isLiteral isLiteral) before rfl nofun rfl
  · split at taken
    · rename_i op isOp
      obtain rfl := Except.ok.inj taken
      obtain ⟨isSign, notBar⟩ := (Symbol.signs_of_unaryOp? isOp).isSign
      exact turn_sign rfl isSign notBar before rfl (by simp [Frame.isBracket])
    · split at taken
      · rename_i isWord
        obtain rfl := Except.ok.inj taken
        exact turn_ending isWord rfl before rfl nofun rfl
      · rename_i opens
        obtain rfl := Except.ok.inj taken
        exact .opens ⟨.paren, congrArg Symbol.tokenKind opens⟩ before (depth_cons ..)
      · rename_i opens
        obtain rfl := Except.ok.inj taken
        exact .opens ⟨.bracket, congrArg Symbol.tokenKind opens⟩ before (depth_cons ..)
      · rename_i isBar
        split at taken
        · obtain rfl := Except.ok.inj taken
          have isKind : t.symbol.tokenKind = .pipe := congrArg Symbol.tokenKind isBar
          refine .stays ?_ rfl ?_
          · rw [isKind]
            decide
          · rw [start]
            exact .openingBar rfl isKind
        · cases taken
      · rename_i isBars
        split at taken
        · obtain rfl := Except.ok.inj taken
          exact turn_sign isBars (by decide) (by decide) before rfl (by simp [Frame.isBracket])
        · cases taken
      · rename_i kind _ _ _ _ _ isKind
        split at taken
        · rename_i use opening before' outer frames
          split at taken
          · rename_i closes
            obtain rfl := Except.ok.inj taken
            have isClose : ∃ d : Delimiter, t.symbol.tokenKind = d.closeKind := by
              rw [isKind]
              exact closes ▸ use.isClose_closer
            exact turn_closed isClose rfl (congrArg depth frames.symm)
          · cases taken
        · cases taken
      · cases taken

theorem turn_stepTypePath {use : TypeUse} {name : NamePhrase} (phase : s.phase = .typePath use name)
    (taken : stepTypePath use name s.frames t = .ok next) : Turn t s next := by
  have sameParams : s.phase.inParams = use.inParams := by rw [phase]; rfl
  unfold stepTypePath at taken
  split at taken
  · rename_i use _ _ isSeparator
    obtain rfl := Except.ok.inj taken
    cases use with
    | cast operand asWord =>
        exact turn_mark isSeparator sameParams rfl nofun rfl rfl (by decide)
    | param before name colon =>
        exact turn_params isSeparator sameParams rfl rfl (by decide)
  · have holds : s.phase.operand?.isSome := by rw [phase]; rfl
    exact turn_stepBehind holds taken
  · rename_i isComma
    obtain rfl := Except.ok.inj taken
    exact turn_params isComma sameParams rfl rfl (by decide)
  · rename_i isBar
    obtain rfl := Except.ok.inj taken
    exact turn_closingBar isBar sameParams
  · cases taken

/-- What a step for a terminal does to brackets and phases. -/
theorem turn_of_step (taken : step s t = .ok next) : Turn t s next := by
  obtain ⟨phase, frames⟩ := s
  unfold step at taken
  dsimp only at taken
  split at taken
  · exact turn_stepStart rfl taken
  · exact turn_stepOperand rfl taken
  · rename_i isSeparator
    obtain rfl := Except.ok.inj taken
    exact turn_mark isSeparator rfl rfl nofun rfl rfl (by decide)
  · rename_i isBang
    obtain rfl := Except.ok.inj taken
    exact turn_mark isBang rfl rfl nofun rfl rfl (by decide)
  · exact turn_stepOperand rfl taken
  · rename_i isWord
    obtain rfl := Except.ok.inj taken
    exact turn_ending isWord rfl rfl rfl nofun rfl
  · cases taken
  · rename_i opens
    obtain rfl := Except.ok.inj taken
    exact .opens ⟨.paren, congrArg Symbol.tokenKind opens⟩ rfl (depth_cons ..)
  · rename_i opens
    obtain rfl := Except.ok.inj taken
    exact .opens ⟨.bracket, congrArg Symbol.tokenKind opens⟩ rfl (depth_cons ..)
  · cases taken
  · rename_i isWord
    obtain rfl := Except.ok.inj taken
    exact turn_ending isWord rfl rfl rfl nofun rfl
  · rename_i isInt
    obtain rfl := Except.ok.inj taken
    exact turn_ending isInt rfl rfl rfl nofun rfl
  · cases taken
  · rename_i use isWord
    obtain rfl := Except.ok.inj taken
    cases use with
    | cast operand asWord => exact turn_ending isWord rfl rfl rfl nofun rfl
    | param before name colon =>
        exact turn_params isWord rfl rfl rfl (by decide)
  · cases taken
  · exact turn_stepTypePath rfl taken
  · rename_i use name separator isWord
    obtain rfl := Except.ok.inj taken
    cases use with
    | cast operand asWord => exact turn_ending isWord rfl rfl rfl nofun rfl
    | param before name colon =>
        exact turn_params isWord rfl rfl rfl (by decide)
  · cases taken
  · rename_i isWord
    obtain rfl := Except.ok.inj taken
    exact turn_params isWord rfl rfl rfl (by decide)
  · rename_i isBar
    obtain rfl := Except.ok.inj taken
    exact turn_closingBar isBar rfl
  · cases taken
  · rename_i isColon
    obtain rfl := Except.ok.inj taken
    exact turn_params isColon rfl rfl rfl (by decide)
  · rename_i isComma
    obtain rfl := Except.ok.inj taken
    exact turn_params isComma rfl rfl rfl (by decide)
  · rename_i isBar
    obtain rfl := Except.ok.inj taken
    exact turn_closingBar isBar rfl
  · cases taken

end Steps

end ExprParser

end AttrGrammar
