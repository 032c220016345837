import AttrGrammar.Proofs.Trees.Flatten

/-!
Contract: which tokens have trees, and which bracket is reported if they have none.

Owns:
- the balanced lists of tokens, said without a stack;
- the innermost bracket that tokens leave open, and the closing brackets that close none or another one;
- that tokens have trees exactly if they are balanced up to the end, and the error of tokens that are not.

A stack of the open brackets stands between the two sides: grouping keeps one with the trees, and what is on it is what
the tokens in front leave open.
-/

namespace AttrGrammar

namespace Delimiter

theorem eq_of_openKind {d e : Delimiter} (same : d.openKind = e.openKind) : d = e := by
  rw [← Option.some_inj, ← ofOpen?_openKind d, same, ofOpen?_openKind]

theorem eq_of_closeKind {d e : Delimiter} (same : d.closeKind = e.closeKind) : d = e := by
  rw [← Option.some_inj, ← ofClose?_closeKind d, same, ofClose?_closeKind]

end Delimiter

namespace Grouping

/-! ## Balanced tokens -/

/-- Whether all brackets come in pairs of one kind, one pair within or behind another. -/
inductive Balanced : List Token → Prop where
  | nil : Balanced []
  | plain {t : Token} {later : List Token} (isPlain : t.IsPlain) (rest : Balanced later) :
      Balanced (t :: later)
  | pair {d : Delimiter} {opener closer : Token} {inside later : List Token}
      (isOpen : opener.kind = d.openKind) (isClose : closer.kind = d.closeKind)
      (within : Balanced inside) (rest : Balanced later) :
      Balanced (opener :: inside ++ closer :: later)

/-- Whether a bracket is the innermost one that tokens leave open: those behind it are balanced. -/
def IsInnermost (tokens : List Token) (opener : Token) : Prop :=
  ∃ d outside inside, tokens = outside ++ opener :: inside ∧ opener.kind = Delimiter.openKind d ∧ Balanced inside

/-- Whether a token behind others closes the innermost bracket that they leave open. -/
def Closes (before : List Token) (closer : Token) : Prop :=
  ∃ d opener, IsInnermost before opener ∧ opener.kind = Delimiter.openKind d ∧ closer.kind = d.closeKind

/-- Whether a token among others is a closing bracket that does not close the innermost one open in front of it. -/
structure IsStray (tokens before : List Token) (closer : Token) : Prop where
  isAmong : before ++ [closer] <+: tokens
  isClose : ∃ d : Delimiter, closer.kind = d.closeKind
  closesNone : ¬Closes before closer

/-- Whether no such bracket stands in front of it. -/
structure IsFirstStray (tokens before : List Token) (closer : Token) : Prop extends IsStray tokens before closer where
  isFirst : ∀ front earlier, ¬IsStray before front earlier

/-- The errors of tokens that are not balanced: they are at the first closing bracket that closes nothing, because
nothing is open or a bracket of another kind is, and if there is none, at the innermost bracket that is left open. -/
inductive Unbalanced (tokens : List Token) : TreeError → Prop where
  | unexpected {before : List Token} {closer : Token} (isStray : IsFirstStray tokens before closer)
      (nothingOpen : ∀ opener, ¬IsInnermost before opener) :
      Unbalanced tokens ⟨.unexpected closer.text, closer.position⟩
  | mismatched {before : List Token} {closer opener : Token} {d : Delimiter}
      (isStray : IsFirstStray tokens before closer) (innermost : IsInnermost before opener)
      (isOpen : opener.kind = d.openKind) :
      Unbalanced tokens ⟨.mismatched closer.text d, closer.position⟩
  | unclosed {opener : Token} (noStray : ∀ before closer, ¬IsStray tokens before closer)
      (innermost : IsInnermost tokens opener) :
      Unbalanced tokens ⟨.unclosed opener.text, opener.position⟩

/-- At most one bracket is the first stray one. -/
theorem IsFirstStray.unique {tokens before before' : List Token} {closer closer' : Token}
    (left : IsFirstStray tokens before closer) (right : IsFirstStray tokens before' closer') :
    before = before' ∧ closer = closer' := by
  -- Of two such brackets the one in front would be stray in front of the other.
  have notInFront {front back : List Token} {c c' : Token} (isFront : IsFirstStray tokens front c)
      (isBack : IsFirstStray tokens back c') : back.length ≤ front.length := by
    refine Nat.le_of_not_lt fun longer => ?_
    have isPrefix : back <+: tokens := (List.prefix_append back [c']).trans isBack.isAmong
    have inside : front ++ [c] <+: back := by
      refine List.prefix_of_prefix_length_le isFront.isAmong isPrefix ?_
      rw [List.length_append, List.length_singleton]
      omega
    exact isBack.isFirst front c ⟨inside, isFront.isClose, isFront.closesNone⟩
  have sameLength : before.length = before'.length := Nat.le_antisymm (notInFront right left) (notInFront left right)
  have same : before ++ [closer] = before' ++ [closer'] := by
    have isPrefix : before ++ [closer] <+: before' ++ [closer'] :=
      List.prefix_of_prefix_length_le left.isAmong right.isAmong (by simp [sameLength])
    exact isPrefix.eq_of_length (by simp [sameLength])
  obtain ⟨sameFront, sameLast⟩ := List.append_inj same sameLength
  exact ⟨sameFront, List.singleton_inj.1 sameLast⟩

theorem Balanced.append {front back : List Token} (isFront : Balanced front) (isBack : Balanced back) :
    Balanced (front ++ back) := by
  induction isFront with
  | nil => exact isBack
  | plain isPlain _ inductionHypothesis => exact .plain isPlain inductionHypothesis
  | pair isOpen isClose within _ _ inductionHypothesis =>
      rw [List.append_assoc, List.cons_append]
      exact .pair isOpen isClose within inductionHypothesis

/-! ## Open brackets -/

/-- The brackets that are open behind a token, the innermost first, given those in front of it: none if it closes one
that is not the innermost. -/
def openBehind? (opened : List Token) (t : Token) : Option (List Token) :=
  match Delimiter.ofOpen? t.kind, Delimiter.ofClose? t.kind with
  | some _, _ => some (t :: opened)
  | none, none => some opened
  | none, some d =>
      match opened with
      | [] => none
      | innermost :: outer => if innermost.kind = d.openKind then some outer else none

/-- The brackets that tokens leave open, the innermost first: none if one of them is stray. -/
def leftOpen? (tokens : List Token) : Option (List Token) :=
  tokens.foldlM openBehind? []

section OpenBehind

variable {t : Token} {d : Delimiter}

theorem openBehind?_open (isOpen : t.kind = d.openKind) (opened : List Token) :
    openBehind? opened t = some (t :: opened) := by
  rw [openBehind?, isOpen, Delimiter.ofOpen?_openKind]

theorem openBehind?_plain (plain : t.IsPlain) (opened : List Token) :
    openBehind? opened t = some opened := by
  rw [openBehind?, plain.1, plain.2.1]

theorem openBehind?_close (isClose : t.kind = d.closeKind) (innermost : Token) (outer : List Token) :
    openBehind? (innermost :: outer) t = if innermost.kind = d.openKind then some outer else none := by
  rw [openBehind?, isClose, Delimiter.ofOpen?_closeKind, Delimiter.ofClose?_closeKind]

/-- Only a closing bracket can be stray, and the innermost bracket in front of it, if any, is of another kind. -/
theorem openBehind?_eq_none_iff {opened : List Token} :
    openBehind? opened t = none ↔
      ∃ d : Delimiter, t.kind = d.closeKind ∧ ∀ innermost ∈ opened.head?, innermost.kind ≠ d.openKind := by
  constructor
  · intro isStray
    unfold openBehind? at isStray
    split at isStray
    · cases isStray
    · cases isStray
    rename_i d _ isClose
    refine ⟨d, Delimiter.ofClose?_eq_some_iff.1 isClose, ?_⟩
    cases opened with
    | nil => simp
    | cons innermost outer => simpa using isStray
  · rintro ⟨d, isClose, other⟩
    rw [openBehind?, isClose, Delimiter.ofOpen?_closeKind, Delimiter.ofClose?_closeKind]
    cases opened with
    | nil => rfl
    | cons innermost outer => exact if_neg (other innermost rfl)

end OpenBehind

/-- Balanced tokens leave open what was open. -/
theorem Balanced.foldlM_openBehind? {tokens : List Token} (balanced : Balanced tokens) (opened : List Token) :
    tokens.foldlM openBehind? opened = some opened := by
  induction balanced generalizing opened with
  | nil => rfl
  | plain isPlain _ inductionHypothesis =>
      rw [List.foldlM_cons, openBehind?_plain isPlain]
      exact inductionHypothesis opened
  | @pair d opener closer inside later isOpen isClose _ _ inductionHypothesis restHypothesis =>
      rw [List.cons_append, List.foldlM_cons, openBehind?_open isOpen, Option.bind_eq_bind, Option.bind_some,
        List.foldlM_append, inductionHypothesis, Option.bind_eq_bind, Option.bind_some, List.foldlM_cons,
        openBehind?_close isClose, if_pos isOpen]
      exact restHypothesis opened

/-- Whether brackets are those that tokens leave open, the innermost first: all other tokens are balanced, as far as no
bracket on the list parts them. -/
inductive LeavesOpen : List Token → List Token → Prop where
  | nothing {tokens : List Token} (balanced : Balanced tokens) : LeavesOpen tokens []
  | bracket {d : Delimiter} {opener : Token} {outside inside outer : List Token}
      (rest : LeavesOpen outside outer) (isOpen : opener.kind = d.openKind) (balanced : Balanced inside) :
      LeavesOpen (outside ++ opener :: inside) (opener :: outer)

theorem LeavesOpen.append {tokens opened back : List Token} (leaves : LeavesOpen tokens opened)
    (balanced : Balanced back) : LeavesOpen (tokens ++ back) opened := by
  cases leaves with
  | nothing inside => exact .nothing (inside.append balanced)
  | bracket rest isOpen inside =>
      rw [List.append_assoc, List.cons_append]
      exact .bracket rest isOpen (inside.append balanced)

theorem plain_or_bracket {t : Token} (notEnd : t.kind ≠ .eof) :
    t.IsPlain ∨ (∃ d : Delimiter, t.kind = d.openKind) ∨ ∃ d : Delimiter, t.kind = d.closeKind := by
  cases opens : Delimiter.ofOpen? t.kind with
  | some d => exact .inr (.inl ⟨d, Delimiter.ofOpen?_eq_some_iff.1 opens⟩)
  | none =>
      cases closes : Delimiter.ofClose? t.kind with
      | some d => exact .inr (.inr ⟨d, Delimiter.ofClose?_eq_some_iff.1 closes⟩)
      | none => exact .inl ⟨opens, closes, notEnd⟩

theorem LeavesOpen.behind {tokens opened opened' : List Token} {t : Token} (leaves : LeavesOpen tokens opened)
    (notEnd : t.kind ≠ .eof) (step : openBehind? opened t = some opened') :
    LeavesOpen (tokens ++ [t]) opened' := by
  rcases plain_or_bracket notEnd with plain | ⟨d, isOpen⟩ | ⟨d, isClose⟩
  · rw [openBehind?_plain plain] at step
    obtain rfl := Option.some.inj step
    exact leaves.append (.plain plain .nil)
  · rw [openBehind?_open isOpen] at step
    obtain rfl := Option.some.inj step
    exact .bracket leaves isOpen .nil
  · cases leaves with
    | nothing =>
        rw [openBehind?_eq_none_iff.2 ⟨d, isClose, by simp⟩] at step
        cases step
    | @bracket _ opener outside inside outer rest _ balanced =>
        rw [openBehind?_close isClose] at step
        split at step
        · rename_i isOpen
          obtain rfl := Option.some.inj step
          have closed : LeavesOpen (outside ++ (opener :: inside ++ t :: [])) outer :=
            rest.append (.pair isOpen isClose balanced .nil)
          rwa [List.append_assoc]
        · cases step

theorem LeavesOpen.run {tokens opened later opened' : List Token} (leaves : LeavesOpen tokens opened)
    (noEnd : ∀ t ∈ later, t.kind ≠ .eof) (run : later.foldlM openBehind? opened = some opened') :
    LeavesOpen (tokens ++ later) opened' := by
  induction later generalizing tokens opened with
  | nil =>
      obtain rfl := Option.some.inj run
      rwa [List.append_nil]
  | cons t later inductionHypothesis =>
      obtain ⟨here, behind⟩ := List.forall_mem_cons.1 noEnd
      rw [List.foldlM_cons] at run
      obtain ⟨middle, step, run⟩ := Option.bind_eq_some_iff.1 run
      rw [List.append_cons]
      exact inductionHypothesis (leaves.behind here step) behind run

section LeftOpen

variable {tokens before opened : List Token} {opener closer : Token}

theorem leavesOpen_of_leftOpen? (noEnd : ∀ t ∈ tokens, t.kind ≠ .eof) (run : leftOpen? tokens = some opened) :
    LeavesOpen tokens opened :=
  (LeavesOpen.nothing .nil).run noEnd run

theorem balanced_iff (noEnd : ∀ t ∈ tokens, t.kind ≠ .eof) : Balanced tokens ↔ leftOpen? tokens = some [] := by
  constructor
  · intro balanced
    exact balanced.foldlM_openBehind? []
  · intro run
    cases leavesOpen_of_leftOpen? noEnd run with
    | nothing balanced => exact balanced

theorem isInnermost_iff (noEnd : ∀ t ∈ tokens, t.kind ≠ .eof) (run : leftOpen? tokens = some opened) :
    IsInnermost tokens opener ↔ opened.head? = some opener := by
  constructor
  · rintro ⟨d, outside, inside, rfl, isOpen, balanced⟩
    rw [leftOpen?, List.foldlM_append] at run
    obtain ⟨outer, -, run⟩ := Option.bind_eq_some_iff.1 run
    rw [List.foldlM_cons, openBehind?_open isOpen, Option.bind_eq_bind, Option.bind_some,
      balanced.foldlM_openBehind?] at run
    obtain rfl := Option.some.inj run
    rfl
  · intro isHead
    cases leavesOpen_of_leftOpen? noEnd run with
    | nothing => cases isHead
    | bracket _ isOpen balanced =>
        obtain rfl := Option.some.inj isHead
        exact ⟨_, _, _, rfl, isOpen, balanced⟩

/-- A closing bracket is stray if it takes no bracket off those that are open. -/
theorem stray_iff (noEnd : ∀ t ∈ before, t.kind ≠ .eof) (run : leftOpen? before = some opened) :
    ((∃ d : Delimiter, closer.kind = d.closeKind) ∧ ¬Closes before closer) ↔ openBehind? opened closer = none := by
  rw [openBehind?_eq_none_iff]
  constructor
  · rintro ⟨⟨d, isClose⟩, closesNone⟩
    refine ⟨d, isClose, fun opener isHead isOpen => ?_⟩
    exact closesNone ⟨d, opener, (isInnermost_iff noEnd run).2 isHead, isOpen, isClose⟩
  · rintro ⟨d, isClose, other⟩
    refine ⟨⟨d, isClose⟩, ?_⟩
    rintro ⟨d', opener, innermost, isOpen, isClose'⟩
    obtain rfl := Delimiter.eq_of_closeKind (isClose'.symm.trans isClose)
    exact other opener ((isInnermost_iff noEnd run).1 innermost) isOpen

theorem leftOpen?_snoc (run : leftOpen? before = some opened) :
    leftOpen? (before ++ [closer]) = openBehind? opened closer := by
  rw [leftOpen?, List.foldlM_append, show before.foldlM openBehind? [] = _ from run, Option.bind_eq_bind,
    Option.bind_some, List.foldlM_cons]
  exact Option.bind_fun_some _

theorem exists_of_prefix (isPrefix : before <+: tokens) (run : leftOpen? tokens = some opened) :
    ∃ earlier, leftOpen? before = some earlier := by
  obtain ⟨behind, rfl⟩ := isPrefix
  rw [leftOpen?, List.foldlM_append] at run
  obtain ⟨earlier, front, -⟩ := Option.bind_eq_some_iff.1 run
  exact ⟨earlier, front⟩

/-- Where no list of open brackets is left, one of the tokens takes the first that leaves none. -/
theorem exists_of_leftOpen? (noRun : leftOpen? tokens = none) :
    ∃ before closer behind opened, tokens = before ++ closer :: behind ∧ leftOpen? before = some opened ∧
      openBehind? opened closer = none := by
  unfold leftOpen? at noRun ⊢
  generalize ([] : List Token) = start at noRun ⊢
  induction tokens generalizing start with
  | nil => cases noRun
  | cons t later inductionHypothesis =>
      cases step : openBehind? start t with
      | none => exact ⟨[], t, later, start, rfl, rfl, step⟩
      | some next =>
          rw [List.foldlM_cons, step] at noRun
          obtain ⟨before, closer, behind, opened, rfl, run, isStray⟩ := inductionHypothesis next noRun
          refine ⟨t :: before, closer, behind, opened, rfl, ?_, isStray⟩
          rw [List.foldlM_cons, step]
          exact run

theorem noStray_of_leftOpen? (noEnd : ∀ t ∈ tokens, t.kind ≠ .eof) (run : leftOpen? tokens = some opened)
    (before : List Token) (closer : Token) : ¬IsStray tokens before closer := by
  rintro ⟨isAmong, isClose, closesNone⟩
  have isPrefix : before <+: tokens := (List.prefix_append before [closer]).trans isAmong
  obtain ⟨earlier, front⟩ := exists_of_prefix isPrefix run
  obtain ⟨next, step⟩ := exists_of_prefix isAmong run
  rw [leftOpen?_snoc front] at step
  have noStep := (stray_iff (fun t member => noEnd t (isPrefix.subset member)) front).1 ⟨isClose, closesNone⟩
  rw [step] at noStep
  cases noStep

/-- The first stray bracket is where the list of open brackets ends. -/
theorem isFirstStray_iff (noEnd : ∀ t ∈ tokens, t.kind ≠ .eof) :
    IsFirstStray tokens before closer ↔ before ++ [closer] <+: tokens ∧
      ∃ opened, leftOpen? before = some opened ∧ openBehind? opened closer = none := by
  have inFront (isAmong : before ++ [closer] <+: tokens) (t : Token) (member : t ∈ before) : t.kind ≠ .eof :=
    noEnd t (isAmong.subset (List.mem_append_left _ member))
  constructor
  · rintro ⟨⟨isAmong, isClose, closesNone⟩, isFirst⟩
    refine ⟨isAmong, ?_⟩
    cases run : leftOpen? before with
    | some opened => exact ⟨opened, rfl, (stray_iff (inFront isAmong) run).1 ⟨isClose, closesNone⟩⟩
    | none =>
        obtain ⟨front, earlier, behind, opened, rfl, run, isStray⟩ := exists_of_leftOpen? run
        have noEndInFront (t : Token) (member : t ∈ front) : t.kind ≠ .eof :=
          inFront isAmong t (List.mem_append_left _ member)
        obtain ⟨isClose, closesNone⟩ := (stray_iff noEndInFront run).2 isStray
        exact absurd ⟨⟨behind, by simp⟩, isClose, closesNone⟩ (isFirst front earlier)
  · rintro ⟨isAmong, opened, run, isStray⟩
    obtain ⟨isClose, closesNone⟩ := (stray_iff (inFront isAmong) run).2 isStray
    exact ⟨⟨isAmong, isClose, closesNone⟩, noStray_of_leftOpen? (inFront isAmong) run⟩

end LeftOpen

/-! ## Grouping -/

/-- The brackets of open groups, the innermost first. -/
def openers (opened : List OpenGroup) : List Token :=
  opened.map OpenGroup.opener

/-- Whether each open group was opened by a bracket of its kind. -/
def AreOpened (opened : List OpenGroup) : Prop :=
  ∀ g ∈ opened, g.opener.kind = g.delimiter.openKind

section Run

variable {t : Token} {tokens later brackets : List Token} {opened opened' : List OpenGroup}
  {current current' : List Tree}

theorem Step.treesFrom_eq (step : Step t opened current opened' current') (later : List Token) :
    treesFrom opened current (t :: later) = treesFrom opened' current' later := by
  cases step with
  | opens isOpen => exact treesFrom_opens isOpen
  | stays plain => exact treesFrom_stays plain
  | closes isClose => exact treesFrom_closes isClose

/-- A token that leaves brackets open takes a step to groups with these brackets. -/
theorem exists_step (notEnd : t.kind ≠ .eof) (areOpened : AreOpened opened)
    (leaves : openBehind? (openers opened) t = some brackets) (current : List Tree) :
    ∃ opened' current', Step t opened current opened' current' ∧ openers opened' = brackets ∧
      AreOpened opened' := by
  rcases plain_or_bracket notEnd with plain | ⟨d, isOpen⟩ | ⟨d, isClose⟩
  · rw [openBehind?_plain plain] at leaves
    exact ⟨opened, _, .stays plain, Option.some.inj leaves, areOpened⟩
  · rw [openBehind?_open isOpen] at leaves
    exact ⟨_, _, .opens isOpen, Option.some.inj leaves, List.forall_mem_cons.2 ⟨isOpen, areOpened⟩⟩
  · cases opened with
    | nil =>
        rw [openBehind?_eq_none_iff.2 ⟨d, isClose, by simp [openers]⟩] at leaves
        cases leaves
    | cons g outer =>
        obtain ⟨isOpened, outerOpened⟩ := List.forall_mem_cons.1 areOpened
        rw [openers, List.map_cons, openBehind?_close isClose, isOpened] at leaves
        split at leaves
        · rename_i same
          obtain rfl := Delimiter.eq_of_openKind same
          exact ⟨outer, _, .closes isClose, Option.some.inj leaves, outerOpened⟩
        · cases leaves

/-- Tokens that leave brackets open are read up to groups with these brackets. -/
theorem exists_run (noEnd : ∀ t ∈ tokens, t.kind ≠ .eof) (areOpened : AreOpened opened)
    (run : tokens.foldlM openBehind? (openers opened) = some brackets) (current : List Tree) :
    ∃ opened' current', openers opened' = brackets ∧ AreOpened opened' ∧
      ∀ later, treesFrom opened current (tokens ++ later) = treesFrom opened' current' later := by
  induction tokens generalizing opened current with
  | nil => exact ⟨opened, current, Option.some.inj run, areOpened, fun _ => rfl⟩
  | cons t tokens inductionHypothesis =>
      obtain ⟨here, behind⟩ := List.forall_mem_cons.1 noEnd
      rw [List.foldlM_cons] at run
      obtain ⟨middle, leaves, run⟩ := Option.bind_eq_some_iff.1 run
      obtain ⟨opened₁, current₁, step, rfl, areOpened₁⟩ := exists_step here areOpened leaves current
      obtain ⟨opened', current', isOpen, areOpened', reads⟩ := inductionHypothesis behind areOpened₁ run current₁
      refine ⟨opened', current', isOpen, areOpened', fun later => ?_⟩
      rw [List.cons_append, step.treesFrom_eq, reads]

/-- A stray bracket is an error, whatever follows. -/
theorem treesFrom_stray (areOpened : AreOpened opened) (isStray : openBehind? (openers opened) t = none) :
    treesFrom opened current (t :: later) = .error
      (match opened with
        | [] => ⟨.unexpected t.text, t.position⟩
        | innermost :: _ => ⟨.mismatched t.text innermost.delimiter, t.position⟩) := by
  obtain ⟨d, isClose, other⟩ := openBehind?_eq_none_iff.1 isStray
  rw [treesFrom, if_neg (isClose ▸ d.closeKind_ne_eof), isClose, Delimiter.ofOpen?_closeKind,
    Delimiter.ofClose?_closeKind]
  cases opened with
  | nil => rfl
  | cons innermost outer =>
      refine if_neg fun same => other innermost.opener rfl ?_
      rw [areOpened innermost List.mem_cons_self, same]

end Run

/-! ## Outcomes -/

section Outcomes

variable {body later brackets : List Token}

/-- What grouping comes to if no bracket is stray: trees if none is left open, and else the error of the innermost. -/
theorem groupTokens_of_leftOpen? (noEnd : ∀ t ∈ body, t.kind ≠ .eof) (ends : ∀ t ∈ later.head?, t.kind = .eof)
    (run : leftOpen? body = some brackets) :
    match brackets with
    | [] => ∃ trees, groupTokens (body ++ later) = .ok trees
    | opener :: _ => groupTokens (body ++ later) = .error ⟨.unclosed opener.text, opener.position⟩ := by
  obtain ⟨opened, current, rfl, -, reads⟩ := exists_run noEnd (List.forall_mem_nil _) run []
  rw [groupTokens, reads, treesFrom_ends ends]
  cases opened with
  | nil => exact ⟨current.reverse, rfl⟩
  | cons innermost outer => rfl

/-- What grouping comes to at the first stray bracket. -/
theorem groupTokens_of_stray {before : List Token} {closer : Token} (noEnd : ∀ t ∈ before, t.kind ≠ .eof)
    (run : leftOpen? before = some brackets) (isStray : openBehind? brackets closer = none) :
    match brackets with
    | [] => groupTokens (before ++ closer :: later) = .error ⟨.unexpected closer.text, closer.position⟩
    | opener :: _ => ∃ d : Delimiter, opener.kind = d.openKind ∧
        groupTokens (before ++ closer :: later) = .error ⟨.mismatched closer.text d, closer.position⟩ := by
  obtain ⟨opened, current, rfl, areOpened, reads⟩ := exists_run noEnd (List.forall_mem_nil _) run []
  rw [groupTokens, reads, treesFrom_stray areOpened isStray]
  cases opened with
  | nil => rfl
  | cons innermost outer => exact ⟨innermost.delimiter, areOpened innermost List.mem_cons_self, rfl⟩

variable {e : TreeError}

theorem unbalanced_iff_of_leftOpen? (noEnd : ∀ t ∈ body, t.kind ≠ .eof) (run : leftOpen? body = some brackets) :
    Unbalanced body e ↔ ∃ opener ∈ brackets.head?, e = ⟨.unclosed opener.text, opener.position⟩ := by
  have noStray := noStray_of_leftOpen? noEnd run
  constructor
  · intro unbalanced
    cases unbalanced with
    | unexpected isStray => exact absurd isStray.toIsStray (noStray _ _)
    | mismatched isStray => exact absurd isStray.toIsStray (noStray _ _)
    | unclosed _ innermost => exact ⟨_, (isInnermost_iff noEnd run).1 innermost, rfl⟩
  · rintro ⟨opener, isHead, rfl⟩
    exact .unclosed noStray ((isInnermost_iff noEnd run).2 isHead)

theorem unbalanced_iff_of_stray {before : List Token} {closer : Token} (noEnd : ∀ t ∈ before, t.kind ≠ .eof)
    (run : leftOpen? before = some brackets) (isStray : IsFirstStray body before closer) :
    Unbalanced body e ↔
      match brackets with
      | [] => e = ⟨.unexpected closer.text, closer.position⟩
      | opener :: _ => ∃ d : Delimiter, opener.kind = d.openKind ∧
          e = ⟨.mismatched closer.text d, closer.position⟩ := by
  have innermost_iff (opener : Token) : IsInnermost before opener ↔ brackets.head? = some opener :=
    isInnermost_iff noEnd run
  constructor
  · intro unbalanced
    cases unbalanced with
    | unexpected isStray' nothingOpen =>
        obtain ⟨rfl, rfl⟩ := isStray.unique isStray'
        cases brackets with
        | nil => rfl
        | cons opener outer => exact absurd ((innermost_iff opener).2 rfl) (nothingOpen opener)
    | mismatched isStray' innermost isOpen =>
        obtain ⟨rfl, rfl⟩ := isStray.unique isStray'
        have isHead := (innermost_iff _).1 innermost
        cases brackets with
        | nil => cases isHead
        | cons opener outer =>
            obtain rfl := Option.some.inj isHead
            exact ⟨_, isOpen, rfl⟩
    | unclosed noStray => exact absurd isStray.toIsStray (noStray _ _)
  · intro isError
    cases brackets with
    | nil =>
        rw [isError]
        refine .unexpected isStray fun opener innermost => ?_
        cases (innermost_iff opener).1 innermost
    | cons opener outer =>
        obtain ⟨d, isOpen, rfl⟩ := isError
        exact .mismatched isStray ((innermost_iff opener).2 rfl) isOpen

end Outcomes

/-- Tokens are those in front of the first end token, and then this one and what follows it, or nothing. -/
theorem exists_end (tokens : List Token) :
    ∃ later, tokens = tokens.takeWhile (·.kind ≠ .eof) ++ later ∧
      (∀ t ∈ tokens.takeWhile (·.kind ≠ .eof), t.kind ≠ .eof) ∧ ∀ t ∈ later.head?, t.kind = .eof := by
  refine ⟨tokens.dropWhile (·.kind ≠ .eof), List.takeWhile_append_dropWhile.symm, fun t member => ?_, fun t isHead => ?_⟩
  · simpa using List.all_eq_true.1 List.all_takeWhile t member
  · have stops := List.head?_dropWhile_not (fun t : Token => decide (t.kind ≠ .eof)) tokens
    rw [isHead] at stops
    simpa using stops

end Grouping

open Grouping

/-- Tokens have trees exactly if they are balanced up to the first end token. If they are not, the error is at the first
closing bracket that does not close the innermost one open in front of it, and if all closing brackets do, at the innermost
bracket left open. -/
theorem groupTokens_balance (tokens : List Token) :
    ((∃ trees, groupTokens tokens = .ok trees) ↔ Balanced (tokens.takeWhile (·.kind ≠ .eof))) ∧
      ∀ e, groupTokens tokens = .error e ↔ Unbalanced (tokens.takeWhile (·.kind ≠ .eof)) e := by
  obtain ⟨later, whole, noEnd, ends⟩ := exists_end tokens
  generalize tokens.takeWhile (·.kind ≠ .eof) = body at whole noEnd ⊢
  rw [whole, balanced_iff noEnd]
  cases run : leftOpen? body with
  | some brackets =>
      have outcome := groupTokens_of_leftOpen? noEnd ends run
      have isError (e : TreeError) := unbalanced_iff_of_leftOpen? (e := e) noEnd run
      cases brackets with
      | nil =>
          obtain ⟨trees, grouped⟩ := outcome
          simp [grouped, isError]
      | cons opener outer => simp [outcome, isError, eq_comm]
  | none =>
      obtain ⟨before, closer, behind, brackets, rfl, front, isStray⟩ := exists_of_leftOpen? run
      have inFront (t : Token) (member : t ∈ before) : t.kind ≠ .eof := noEnd t (List.mem_append_left _ member)
      have isFirst := (isFirstStray_iff noEnd).2 ⟨⟨behind, by simp⟩, brackets, front, isStray⟩
      have outcome := @groupTokens_of_stray (behind ++ later) brackets before closer inFront front isStray
      have isError (e : TreeError) := unbalanced_iff_of_stray (e := e) inFront front isFirst
      rw [List.append_assoc, List.cons_append]
      cases brackets with
      | nil => simp [outcome, isError, eq_comm]
      | cons opener outer =>
          obtain ⟨d, isOpen, fails⟩ := outcome
          have isKind (d' : Delimiter) : opener.kind = d'.openKind ↔ d = d' := by
            rw [isOpen]
            exact ⟨Delimiter.eq_of_openKind, congrArg _⟩
          simp [fails, isError, isKind, eq_comm]

end AttrGrammar
