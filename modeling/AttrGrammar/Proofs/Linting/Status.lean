import Mathlib
import AttrGrammar.Command
import AttrGrammar.Proofs.Attributes.Answers
import AttrGrammar.Proofs.Definitions.Validity
import AttrGrammar.Proofs.Linting.Lines
import AttrGrammar.Proofs.Reading.Rejections

/-!
Contract: the command ends with a status that tells what it found, or in one of a few ways that have no status.

Owns:
- the sets of attributes that a command line can name, and the names that end the command without a status;
- which of the named files something is wrong with, and what is printed about each of them;
- what each status means, for every command line that is accepted, whatever can be read, and however definitions are
  loaded.

Does not own: what is wrong with a single line, which command lines are accepted, and which texts a loader takes.
-/

namespace AttrGrammar

/-! ## Lists of results -/

section Results

variable {ε α β : Type} {f : α → Except ε β}

theorem mapM_eq_ok_iff {xs : List α} {ys : List β} :
    xs.mapM f = .ok ys ↔ List.Forall₂ (fun x y => f x = .ok y) xs ys := by
  induction xs generalizing ys with
  | nil =>
      rw [List.mapM_nil, List.forall₂_nil_left_iff]
      exact ⟨fun same => (Except.ok.inj same).symm, fun same => same ▸ rfl⟩
  | cons x xs inductionHypothesis =>
      rw [List.mapM_cons, List.forall₂_cons_left_iff]
      cases first : f x with
      | error e => exact ⟨nofun, fun ⟨_, _, isFirst, _⟩ => nomatch isFirst⟩
      | ok y =>
          simp only [← inductionHypothesis]
          cases xs.mapM f with
          | error e => exact ⟨nofun, fun ⟨_, _, _, later, _⟩ => nomatch later⟩
          | ok later =>
              constructor
              · rintro ⟨⟩
                exact ⟨y, later, rfl, rfl, rfl⟩
              · rintro ⟨_, _, ⟨⟩, ⟨⟩, rfl⟩
                rfl

/-- A list of computations fails as the first of them that fails does. -/
theorem mapM_eq_error_iff {xs : List α} {e : ε} :
    xs.mapM f = .error e ↔
      ∃ front x later, xs = front ++ x :: later ∧ (∀ y ∈ front, ∃ z, f y = .ok z) ∧ f x = .error e := by
  constructor
  · intro fails
    induction xs with
    | nil => cases fails
    | cons x xs inductionHypothesis =>
        rw [List.mapM_cons] at fails
        cases first : f x with
        | error e' =>
            rw [first] at fails
            obtain rfl := Except.error.inj fails
            exact ⟨[], x, xs, rfl, by simp, first⟩
        | ok y =>
            cases later : xs.mapM f with
            | error e' =>
                rw [first, later] at fails
                obtain rfl := Except.error.inj fails
                obtain ⟨front, x', behind, rfl, succeed, fails'⟩ := inductionHypothesis later
                exact ⟨x :: front, x', behind, rfl, List.forall_mem_cons.2 ⟨⟨y, first⟩, succeed⟩, fails'⟩
            | ok ys =>
                rw [first, later] at fails
                cases fails
  · rintro ⟨front, x, later, rfl, succeed, fails⟩
    induction front with
    | nil =>
        rw [List.nil_append, List.mapM_cons, fails]
        rfl
    | cons y front inductionHypothesis =>
        obtain ⟨⟨z, first⟩, succeed⟩ := List.forall_mem_cons.1 succeed
        rw [List.cons_append, List.mapM_cons, first, inductionHypothesis succeed]
        rfl

end Results

namespace Command

variable {ε : Type}

/-! ## Sets of attributes -/

/-- Whether a name or a path stands for a set: it is the name of one that needs no definition, or there is a file that
defines one. -/
inductive Names (w : Surroundings ε) (spec : String) : SetSource → Prop where
  | builtin (b : BuiltinSet) (isName : spec = b.name) : Names w spec (.builtin b)
  | file {text : String} {settings : List (Data × Data)} {d : Definition}
      (noName : ∀ b : BuiltinSet, spec ≠ b.name) (isRead : w.files (.ofText spec) = .ok text)
      (isData : w.load text = .ok (.map settings)) (defines : Definition.Defines settings d) :
      Names w spec (.file (.ofText spec) d)

/-- How the command ends without a status where a name or a path stands for no set: there is something that cannot be
read, or the loader fails on the definition in a way of its own, or the definition has an integer in it that is too long
to be shown by a complaint. -/
inductive SetAborts (w : Surroundings ε) (spec : String) : Abort ε → Prop where
  | unreadable {e : FileError} (noName : ∀ b : BuiltinSet, spec ≠ b.name)
      (fails : w.files (.ofText spec) = .error e) (present : isAbsent e = false) :
      SetAborts w spec (.unreadable e (.ofText spec))
  | unloaded {text : String} {e : ε} (noName : ∀ b : BuiltinSet, spec ≠ b.name)
      (isRead : w.files (.ofText spec) = .ok text) (noData : w.load text = .error (.own e)) :
      SetAborts w spec (.unloaded e)
  | tooManyDigits {text : String} {d : Data} (noName : ∀ b : BuiltinSet, spec ≠ b.name)
      (isRead : w.files (.ofText spec) = .ok text) (isData : w.load text = .ok d)
      (notShowable : Complaint.areShowable (Definition.complaints d) = false) :
      SetAborts w spec .tooManyDigits

section Sets

variable {w : Surroundings ε} {spec : String} {s : SetSource} {o : Options}

theorem resolve_name (w : Surroundings ε) (b : BuiltinSet) : resolve w b.name = .ok (.builtin b) := by
  cases b <;> rfl

section Paths

variable (noName : ∀ b : BuiltinSet, spec ≠ b.name)

include noName

theorem lookup_choices_eq_none : BuiltinSet.choices.lookup spec = none := by
  have noStruct : spec ≠ "struct" := noName .struct
  have noField : spec ≠ "field" := noName .field
  rw [List.lookup_eq_none_iff]
  simp [BuiltinSet.choices, noStruct, noField]

theorem resolve_of_fileError {e : FileError} (fails : w.files (.ofText spec) = .error e) :
    resolve w spec =
      .error (if isAbsent e then .notFound (.ofText spec) else .unreadable e (.ofText spec)) := by
  rw [resolve, lookup_choices_eq_none noName]
  dsimp only
  rw [fails]

variable {text : String} (isRead : w.files (.ofText spec) = .ok text)

include isRead

theorem resolve_of_definition {d : Definition}
    (isDefined : Definition.ofText w.load (Path.ofText spec).text text = .ok d) :
    resolve w spec = .ok (.file (.ofText spec) d) := by
  rw [resolve, lookup_choices_eq_none noName]
  dsimp only
  rw [isRead]
  dsimp only
  rw [isDefined]

theorem resolve_of_failure {f : TextFailure ε}
    (fails : Definition.ofText w.load (Path.ofText spec).text text = .error f) :
    resolve w spec = .error (.failure f) := by
  rw [resolve, lookup_choices_eq_none noName]
  dsimp only
  rw [isRead]
  dsimp only
  rw [fails]

end Paths

theorem ofText_of_data {load : Loader ε} {source text : String} {d : Data} (isData : load text = .ok d) :
    Definition.ofText load source text = (Definition.ofSourceData source d).mapError .definition := by
  rw [Definition.ofText, isData]

/-- What a name or a path stands for is the set that is used. -/
theorem Names.resolve_eq (names : Names w spec s) : resolve w spec = .ok s := by
  cases names with
  | builtin b isName => rw [isName, resolve_name]
  | @file text settings d noName isRead isData defines =>
      have isDefinition := Definition.ofData_eq_ok_iff.2 ⟨settings, rfl, defines⟩
      refine resolve_of_definition noName isRead ?_
      rw [ofText_of_data isData, Definition.ofSourceData_eq_ok_iff.2 isDefinition]
      rfl

theorem run_of_refusal (named : o.attrs = some spec) {e : SetError ε} (fails : resolve w spec = .error e) :
    run w o = refuseSet o spec e := by
  rw [run, named]
  dsimp only
  rw [fails]

theorem Names.run_eq (names : Names w spec s) (named : o.attrs = some spec) :
    run w o = runWith w.files o s := by
  rw [run, named]
  dsimp only
  rw [names.resolve_eq]

/-- Data that define no set are refused, with a status exactly if all that is wrong can be shown. -/
theorem run_of_complaints (named : o.attrs = some spec) (noName : ∀ b : BuiltinSet, spec ≠ b.name) {text : String}
    (isRead : w.files (.ofText spec) = .ok text) {d : Data} (isData : w.load text = .ok d)
    (some : Definition.complaints d ≠ []) :
    run w o = refuseSet o spec (.failure (.definition (
      if Complaint.areShowable (Definition.complaints d) then
        .unusable ⟨(Path.ofText spec).text, .invalid ((Definition.complaints d).map Complaint.problem)⟩
      else .tooManyDigits))) := by
  refine run_of_refusal named (resolve_of_failure noName isRead ?_)
  rw [ofText_of_data isData, Definition.ofSourceData_of_complaints some]
  rfl

theorem SetAborts.run_eq {abort : Abort ε} (aborts : SetAborts w spec abort) (named : o.attrs = some spec) :
    run w o = .error abort := by
  cases aborts with
  | unreadable noName fails present =>
      rw [run_of_refusal named (resolve_of_fileError noName fails), present]
      rfl
  | unloaded noName isRead noData =>
      exact run_of_refusal named (resolve_of_failure noName isRead (by rw [Definition.ofText, noData]))
  | @tooManyDigits text d noName isRead isData notShowable =>
      have some : Definition.complaints d ≠ [] := by
        intro none
        rw [none] at notShowable
        cases notShowable
      rw [run_of_complaints named noName isRead isData some, notShowable]
      rfl

/-- Where nothing is named that is a set, the command ends without a status, or with the one for that. -/
theorem run_of_noSet (named : o.attrs = some spec) (noSet : ¬∃ s, Names w spec s) :
    (∃ abort, SetAborts w spec abort) ∨ ∃ out, run w o = .ok out ∧ out.exit = 2 := by
  have noName : ∀ b : BuiltinSet, spec ≠ b.name := fun b isName => noSet ⟨_, .builtin b isName⟩
  -- What is left are the stages of reading a definition, each of which may fail with a status or without one.
  cases isRead : w.files (.ofText spec) with
  | error e =>
      cases absent : isAbsent e with
      | true =>
          have refused := resolve_of_fileError noName isRead
          rw [absent, if_pos rfl] at refused
          exact .inr ⟨_, run_of_refusal named refused, rfl⟩
      | false => exact .inl ⟨_, .unreadable noName isRead absent⟩
  | ok text =>
      cases isData : w.load text with
      | error fault =>
          cases fault with
          | malformed message =>
              have noDefinition : Definition.ofText w.load (Path.ofText spec).text text =
                  .error (.definition (.unusable ⟨(Path.ofText spec).text, .malformed message⟩)) := by
                rw [Definition.ofText, isData]
              exact .inr ⟨_, run_of_refusal named (resolve_of_failure noName isRead noDefinition), rfl⟩
          | own e => exact .inl ⟨_, .unloaded noName isRead isData⟩
      | ok d =>
          have some : Definition.complaints d ≠ [] := by
            intro none
            obtain ⟨settings, definition, rfl, defines⟩ := Definition.isValid_iff.2 none
            exact noSet ⟨_, .file noName isRead isData defines⟩
          cases showable : Complaint.areShowable (Definition.complaints d) with
          | false => exact .inl ⟨_, .tooManyDigits noName isRead isData showable⟩
          | true =>
              have refused := run_of_complaints named noName isRead isData some
              rw [showable, if_pos rfl] at refused
              exact .inr ⟨_, refused, rfl⟩

end Sets

/-! ## Files -/

/-- Whether something is wrong with a named file: it cannot be read, or something is found wrong with one of its lines
that do not hide it. -/
inductive IsFaulty (files : Files) (attrs : Grammar) (name : String) : Prop where
  | unreadable {e : FileError} (fails : files (.ofText name) = .error e)
  | line {text line : String} {finding : Finding} (isRead : files (.ofText name) = .ok text)
      (isLine : line ∈ Unicode.lines text) (shows : Lint.hides line = false)
      (found : Lint.line? attrs line = .ok (some finding))

/-- Whether a named file is read, and nothing is found wrong with its lines but for those that hide it. -/
def IsClean (files : Files) (attrs : Grammar) (name : String) : Prop :=
  ∃ text, files (.ofText name) = .ok text ∧
    ∀ line ∈ Unicode.lines text, Lint.hides line = false → Lint.line? attrs line = .ok none

/-- What is printed about a named file: a line for each error. A file that cannot be read is one error. -/
inductive Prints (files : Files) (attrs : Grammar) (name : String) : List String → Prop where
  | unreadable {e : FileError} (fails : files (.ofText name) = .error e) :
      Prints files attrs name [(Path.ofText name).text ++ ": error: " ++ e.text]
  | read {text : String} {findings : List Finding} (isRead : files (.ofText name) = .ok text)
      (found : Lint.findingsOf attrs (((Unicode.lines text).zipIdx 1).filter fun line => !Lint.hides line.1) =
        .ok findings) : Prints files attrs name (findings.map (findingLine (.ofText name)))

/-- Whether a report is the one on a named file: it has what is printed about the file, and each line counts. -/
structure Reports (files : Files) (attrs : Grammar) (name : String) (report : FileReport) : Prop where
  prints : Prints files attrs name report.lines
  errors_eq : report.errors = report.lines.length

end Command

namespace Lint

variable {attrs : Grammar}

theorem numbered?_eq_ok_none_iff {line : String × Nat} :
    numbered? attrs line = .ok none ↔ line? attrs line.1 = .ok none := by
  unfold numbered?
  cases line? attrs line.1 with
  | error failure => exact ⟨nofun, nofun⟩
  | ok found => cases found <;> simp [Except.map]

/-- Nothing is found in lines exactly if nothing is found in each of them. -/
theorem findingsOf_eq_nil_iff {lines : List (String × Nat)} {findings : List Finding}
    (found : findingsOf attrs lines = .ok findings) :
    findings = [] ↔ ∀ line ∈ lines, line? attrs line.1 = .ok none := by
  induction lines generalizing findings with
  | nil =>
      obtain rfl := Except.ok.inj found
      simp
  | cons line later inductionHypothesis =>
      rw [findingsOf_cons] at found
      cases first : numbered? attrs line with
      | error failure =>
          rw [first] at found
          cases found
      | ok here =>
          cases rest : findingsOf attrs later with
          | error failure =>
              rw [first, rest] at found
              cases found
          | ok behind =>
              rw [first, rest] at found
              obtain rfl : here.toList ++ behind = findings := Except.ok.inj found
              rw [List.forall_mem_cons, ← inductionHypothesis rest, ← numbered?_eq_ok_none_iff, first]
              cases here <;> simp

/-- What holds for all numbered lines but those that hide it holds for all such lines. -/
theorem forall_shown_iff {lines : List String} (P : String → Prop) :
    (∀ line ∈ (lines.zipIdx 1).filter fun line => !hides line.1, P line.1) ↔
      ∀ line ∈ lines, hides line = false → P line := by
  constructor
  · intro holds line isLine shows
    rw [← List.zipIdx_map_fst 1 lines] at isLine
    obtain ⟨numbered, isNumbered, rfl⟩ := List.mem_map.1 isLine
    exact holds numbered (List.mem_filter.2 ⟨isNumbered, by simp [shows]⟩)
  · intro holds numbered member
    obtain ⟨isNumbered, shows⟩ := List.mem_filter.1 member
    exact holds numbered.1 (List.fst_mem_of_mem_zipIdx isNumbered) (by simpa using shows)

end Lint

namespace Command

variable {ε : Type}

section Reports

variable {files : Files} {s : SetSource} {name : String} {attrs : Grammar}

/-- By a set of attributes, every line can be checked. -/
theorem SetSource.exists_line? (s : SetSource) (line : String) : ∃ found, Lint.line? s.grammar line = .ok found := by
  refine (answers_of_keeps rfl ?_ line).2
  rw [grammar, Grammar.read_attrs]
  exact s.set.keeps_read.bind_pure _

theorem SetSource.exists_results (s : SetSource) (text : String) :
    ∃ results, Lint.results s.grammar text = .ok results := by
  cases isChecked : Lint.results s.grammar text with
  | ok results => exact ⟨results, rfl⟩
  | error failure =>
      obtain ⟨-, ⟨number, line⟩, -, -, -, fails⟩ := mapM_eq_error_iff.1 isChecked
      obtain ⟨found, isFound⟩ := s.exists_line? line
      obtain ⟨result, isResult, -⟩ := Reader.exists_of_map_eq_ok isFound
      dsimp only at fails
      rw [isResult] at fails
      cases fails

theorem SetSource.source_eq (s : SetSource) (text : String) : Lint.source s.grammar text =
    Lint.findingsOf s.grammar (((Unicode.lines text).zipIdx 1).filter fun line => !Lint.hides line.1) :=
  Lint.findings_of_checked rfl fun line member =>
    Lint.feed_not_mem_lines line.1 (List.fst_mem_of_mem_zipIdx member)

/-- The check of a file fails only if its path cannot even be tried. Else it is about what is printed. -/
theorem checkFile_cases (files : Files) (s : SetSource) (name : String) :
    (files (.ofText name) = .error .badPath ∧
      checkFile files s.grammar name = .error (.unreadable .badPath (.ofText name) : Abort ε)) ∨
    (files (.ofText name) ≠ .error .badPath ∧ ∃ report : FileReport,
      checkFile files s.grammar name = (.ok report : Except (Abort ε) FileReport) ∧
        Reports files s.grammar name report) := by
  unfold checkFile
  cases isRead : files (.ofText name) with
  | error e =>
      by_cases isBad : e = .badPath
      · subst isBad
        exact .inl ⟨rfl, by dsimp only; rw [isRead]⟩
      · refine .inr ⟨fun same => isBad (Except.error.inj same), reportUnreadable (.ofText name) e, ?_,
          .unreadable isRead, rfl⟩
        dsimp only
        rw [isRead]
        cases e <;> first | rfl | exact absurd rfl isBad
  | ok text =>
      obtain ⟨results, areResults⟩ := s.exists_results text
      refine .inr ⟨nofun, reportLines (.ofText name) results, ?_, ?_, (List.length_map ..).symm⟩
      · dsimp only
        rw [isRead]
        dsimp only
        rw [areResults]
        rfl
      · refine .read isRead ?_
        rw [← s.source_eq, Lint.source, areResults]
        rfl

theorem Prints.eq_of_error {lines : List String} (prints : Prints files attrs name lines) {e : FileError}
    (fails : files (.ofText name) = .error e) : lines = [(Path.ofText name).text ++ ": error: " ++ e.text] := by
  cases prints with
  | unreadable fails' => rw [Except.error.inj (fails.symm.trans fails')]
  | read isRead found => cases fails.symm.trans isRead

theorem Prints.eq_of_findings {lines : List String} (prints : Prints files attrs name lines) {text : String}
    {findings : List Finding} (isRead : files (.ofText name) = .ok text)
    (found : Lint.findingsOf attrs (((Unicode.lines text).zipIdx 1).filter fun line => !Lint.hides line.1) =
      .ok findings) : lines = findings.map (findingLine (.ofText name)) := by
  cases prints with
  | unreadable fails => cases isRead.symm.trans fails
  | read isRead' found' =>
      obtain rfl := Except.ok.inj (isRead.symm.trans isRead')
      rw [Except.ok.inj (found.symm.trans found')]

theorem Prints.eq_nil_iff {lines : List String} (prints : Prints files attrs name lines) :
    lines = [] ↔ IsClean files attrs name := by
  cases prints with
  | unreadable fails =>
      refine iff_of_false nofun ?_
      rintro ⟨text, isRead, -⟩
      cases fails.symm.trans isRead
  | @read text findings isRead found =>
      rw [List.map_eq_nil_iff, Lint.findingsOf_eq_nil_iff found,
        Lint.forall_shown_iff fun line => Lint.line? attrs line = .ok none]
      constructor
      · intro clean
        exact ⟨text, isRead, clean⟩
      · rintro ⟨text', isRead', clean⟩
        obtain rfl := Except.ok.inj (isRead'.symm.trans isRead)
        exact clean

theorem isFaulty_iff : IsFaulty files s.grammar name ↔ ¬IsClean files s.grammar name := by
  constructor
  · rintro (fails | ⟨isRead, isLine, shows, found⟩) ⟨text', isRead', clean⟩
    · cases fails.symm.trans isRead'
    · obtain rfl := Except.ok.inj (isRead.symm.trans isRead')
      cases found.symm.trans (clean _ isLine shows)
  · intro notClean
    cases isRead : files (.ofText name) with
    | error e => exact .unreadable isRead
    | ok text =>
        refine Classical.byContradiction fun notFaulty => notClean ⟨text, isRead, fun line isLine shows => ?_⟩
        obtain ⟨found, isFound⟩ := s.exists_line? line
        cases found with
        | none => exact isFound
        | some finding => exact absurd (.line isRead isLine shows isFound) notFaulty

end Reports

/-! ## What a run comes to -/

/-- Whether a command line names a set. -/
def NamesSet (w : Surroundings ε) (o : Options) (s : SetSource) : Prop :=
  ∃ spec, o.attrs = some spec ∧ Names w spec s

/-- How the command ends without a status: its command line has lost the name of the set, which the strict rules keep,
or names a set that cannot be had, or it names a file by a path that cannot even be tried, and no such file in front of
that. -/
inductive Escapes (w : Surroundings ε) (o : Options) : Abort ε → Prop where
  | noSet (rules : w.dialect = .lenient) (unnamed : o.attrs = none) : Escapes w o .noSet
  | set {spec : String} {abort : Abort ε} (named : o.attrs = some spec) (aborts : SetAborts w spec abort) :
      Escapes w o abort
  | badPath {s : SetSource} {name : String} {front later : List String} (names : NamesSet w o s)
      (noList : o.list = false) (split : o.files = front ++ name :: later)
      (first : ∀ n ∈ front, w.files (.ofText n) ≠ .error .badPath)
      (isBad : w.files (.ofText name) = .error .badPath) :
      Escapes w o (.unreadable .badPath (.ofText name))

/-- What is printed behind the errors of all files. -/
def totalLines (total : Nat) : List String :=
  if total = 0 then [] else ["", toString total ++ " error(s)"]

/-- What the outcome is if named files are checked by a set. -/
structure ChecksFiles (files : Files) (attrs : Grammar) (names : List String) (out : Outcome) : Prop where
  exit_eq_one_iff : out.exit = 1 ↔ ∃ name ∈ names, IsFaulty files attrs name
  exit_eq_zero_iff : out.exit = 0 ↔ ∀ name ∈ names, IsClean files attrs name
  output : ∃ printed : List (List String), List.Forall₂ (Prints files attrs) names printed ∧
    out.output = ofLines (printed.flatten ++ totalLines printed.flatten.length)

/-- Whether an outcome tells what was found: whether a set is named, and then whether its keywords are listed, no file
is named, or something is wrong with one of the files. -/
structure Tells (w : Surroundings ε) (o : Options) (out : Outcome) : Prop where
  exit_eq_two_iff : out.exit = 2 ↔ ¬∃ s, NamesSet w o s
  lists : ∀ s, NamesSet w o s → o.list → out.exit = 0
  needsFiles : ∀ s, NamesSet w o s → o.list = false → o.files = [] → out.exit = 1
  checks : ∀ s, NamesSet w o s → o.list = false → o.files ≠ [] → ChecksFiles w.files s.grammar o.files out

section Runs

variable {w : Surroundings ε} {files : Files} {o : Options} {spec : String} {s : SetSource}

/-- The errors that are counted are the lines that are printed. -/
theorem totalErrors_eq_length {attrs : Grammar} {names : List String} {reports : List FileReport}
    (reported : List.Forall₂ (Reports files attrs) names reports) :
    totalErrors reports = (reports.map FileReport.lines).flatten.length := by
  have added (total : Nat) : reports.foldl (fun total report => total + report.errors) total =
      total + (reports.map FileReport.lines).flatten.length := by
    induction reported generalizing total with
    | nil => rfl
    | cons first later inductionHypothesis =>
        rw [List.foldl_cons, inductionHypothesis, first.errors_eq, List.map_cons, List.flatten_cons,
          List.length_append, Nat.add_assoc]
  rw [totalErrors, added, Nat.zero_add]

/-- There is nothing to print exactly if all files are clean. -/
theorem flatten_eq_nil_iff {attrs : Grammar} {names : List String} {printed : List (List String)}
    (prints : List.Forall₂ (Prints files attrs) names printed) :
    printed.flatten = [] ↔ ∀ name ∈ names, IsClean files attrs name := by
  induction prints with
  | nil => simp
  | cons first later inductionHypothesis =>
      rw [List.flatten_cons, List.append_eq_nil_iff, first.eq_nil_iff, inductionHypothesis, List.forall_mem_cons]

theorem runWith_of_files (noList : o.list = false) (someFiles : o.files ≠ []) :
    (runWith files o s : Except (Abort ε) Outcome) =
      (o.files.mapM (checkFile files s.grammar)).map (summarise o s.log) := by
  rw [runWith, noList, if_neg Bool.false_ne_true, if_neg (mt List.isEmpty_iff.1 someFiles)]

theorem checksFiles_of_run {out : Outcome} (noList : o.list = false) (someFiles : o.files ≠ [])
    (ran : runWith files o s = (.ok out : Except (Abort ε) Outcome)) : ChecksFiles files s.grammar o.files out := by
  rw [runWith_of_files noList someFiles] at ran
  obtain ⟨reports, areReports, rfl⟩ := Reader.exists_of_map_eq_ok ran
  have reported : List.Forall₂ (Reports files s.grammar) o.files reports := by
    refine (mapM_eq_ok_iff.1 areReports).imp fun name report isReport => ?_
    rcases checkFile_cases files s name with ⟨-, fails⟩ | ⟨-, report', isReport', reports⟩
    · cases fails.symm.trans isReport
    · rwa [← Except.ok.inj (isReport'.symm.trans isReport)]
  have prints : List.Forall₂ (Prints files s.grammar) o.files (reports.map FileReport.lines) :=
    List.forall₂_map_right_iff.2 (reported.imp fun _ _ reports => reports.prints)
  have clean_iff : totalErrors reports = 0 ↔ ∀ name ∈ o.files, IsClean files s.grammar name := by
    rw [totalErrors_eq_length reported, List.length_eq_zero_iff, flatten_eq_nil_iff prints]
  have faulty_iff : (∃ name ∈ o.files, IsFaulty files s.grammar name) ↔ totalErrors reports ≠ 0 := by
    simp only [isFaulty_iff, Ne, clean_iff, not_forall, exists_prop]
  -- Both statuses are read off the number of errors.
  have exit_eq : (summarise o s.log reports).exit = if totalErrors reports = 0 then 0 else 1 := rfl
  refine ⟨?_, ?_, reports.map FileReport.lines, prints, ?_⟩
  · rw [exit_eq, faulty_iff]
    by_cases none : totalErrors reports = 0 <;> simp [none]
  · rw [exit_eq, ← clean_iff]
    by_cases none : totalErrors reports = 0 <;> simp [none]
  · rw [← totalErrors_eq_length reported]
    rfl

/-- With a set at hand, only a path that cannot be tried takes the status from a run. -/
theorem runWith_eq_error_iff {abort : Abort ε} : runWith files o s = .error abort ↔
    o.list = false ∧ ∃ front name later, o.files = front ++ name :: later ∧
      (∀ n ∈ front, files (.ofText n) ≠ .error .badPath) ∧ files (.ofText name) = .error .badPath ∧
      abort = .unreadable .badPath (.ofText name) := by
  have checked_iff (name : String) :
      (∃ report, checkFile files s.grammar name = (.ok report : Except (Abort ε) FileReport)) ↔
      files (.ofText name) ≠ .error .badPath := by
    rcases checkFile_cases files s name with ⟨isBad, fails⟩ | ⟨notBad, report, isReport, -⟩
    · exact iff_of_false (fun ⟨_, isReport⟩ => nomatch fails.symm.trans isReport) fun notBad => notBad isBad
    · exact iff_of_true ⟨report, isReport⟩ notBad
  have fails_iff (name : String) : checkFile files s.grammar name = .error abort ↔
      files (.ofText name) = .error .badPath ∧ abort = .unreadable .badPath (.ofText name) := by
    rcases checkFile_cases files s name with ⟨isBad, fails⟩ | ⟨notBad, report, isReport, -⟩
    · rw [fails, Except.error.injEq, and_iff_right isBad, eq_comm]
    · exact iff_of_false (fun fails => nomatch fails.symm.trans isReport) fun both => notBad both.1
  cases listed : o.list with
  | true =>
      refine iff_of_false (fun fails => ?_) (fun both => nomatch both.1)
      rw [runWith, listed] at fails
      cases fails
  | false =>
      by_cases noFiles : o.files = []
      · refine iff_of_false (fun fails => ?_) ?_
        · rw [runWith, listed, noFiles] at fails
          cases fails
        · rintro ⟨-, front, name, later, split, -⟩
          rw [noFiles] at split
          cases front <;> cases split
      · rw [runWith_of_files listed noFiles, and_iff_right rfl, Reader.map_eq_error_iff, mapM_eq_error_iff]
        simp only [checked_iff, fails_iff]

theorem exit_of_runWith {out : Outcome} (ran : runWith files o s = (.ok out : Except (Abort ε) Outcome)) :
    out.exit ≤ 1 := by
  unfold runWith at ran
  split at ran
  · obtain rfl := Except.ok.inj ran
    exact Nat.zero_le 1
  split at ran
  · obtain rfl := Except.ok.inj ran
    exact Nat.le_refl 1
  · obtain ⟨reports, -, rfl⟩ := Reader.exists_of_map_eq_ok ran
    show (if totalErrors reports = 0 then 0 else 1) ≤ 1
    split <;> decide

theorem NamesSet.run_eq (names : NamesSet w o s) : run w o = runWith w.files o s := by
  obtain ⟨spec, named, names⟩ := names
  exact names.run_eq named

theorem NamesSet.unique {s' : SetSource} (names : NamesSet w o s) (names' : NamesSet w o s') : s' = s := by
  obtain ⟨spec, named, names⟩ := names
  obtain ⟨spec', named', names'⟩ := names'
  obtain rfl := Option.some.inj (named.symm.trans named')
  exact Except.ok.inj (names'.resolve_eq.symm.trans names.resolve_eq)

/-- A run ends without a status exactly in these ways. -/
theorem run_eq_error_iff (keeps : w.dialect = .strict → o.attrs ≠ none) {abort : Abort ε} :
    run w o = .error abort ↔ Escapes w o abort := by
  constructor
  · intro fails
    cases named : o.attrs with
    | none =>
        rw [run, named] at fails
        obtain rfl := Except.error.inj fails
        cases rules : w.dialect with
        | lenient => exact .noSet rules named
        | strict => exact absurd named (keeps rules)
    | some spec =>
        by_cases hasSet : ∃ s, Names w spec s
        · obtain ⟨s, isSet⟩ := hasSet
          have names : NamesSet w o s := ⟨spec, named, isSet⟩
          rw [names.run_eq] at fails
          obtain ⟨noList, front, name, later, split, first, isBad, rfl⟩ := runWith_eq_error_iff.1 fails
          exact .badPath names noList split first isBad
        · rcases run_of_noSet named hasSet with ⟨abort', aborts⟩ | ⟨out, ran, -⟩
          · obtain rfl := Except.error.inj ((aborts.run_eq named).symm.trans fails)
            exact .set named aborts
          · cases ran.symm.trans fails
  · intro escapes
    cases escapes with
    | noSet rules unnamed => rw [run, unnamed]
    | set named aborts => exact aborts.run_eq named
    | badPath names noList split first isBad =>
        rw [names.run_eq]
        exact runWith_eq_error_iff.2 ⟨noList, _, _, _, split, first, isBad, rfl⟩

/-- Nothing is in the way of a status if there is a set and every path can be tried. -/
theorem NamesSet.not_escapes (names : NamesSet w o s)
    (areTried : ∀ name ∈ o.files, w.files (.ofText name) ≠ .error .badPath) (abort : Abort ε) :
    ¬Escapes w o abort := by
  intro escapes
  have keeps : w.dialect = .strict → o.attrs ≠ none := by
    obtain ⟨spec, named, -⟩ := names
    simp [named]
  have fails := (run_eq_error_iff keeps).2 escapes
  rw [names.run_eq] at fails
  obtain ⟨-, front, name, later, split, -, isBad, -⟩ := runWith_eq_error_iff.1 fails
  exact areTried name (split ▸ List.mem_append_right _ (List.mem_cons_self ..)) isBad

/-- A run that ends with a status tells by it what was found. -/
theorem tells_of_run {out : Outcome} (ran : run w o = .ok out) : Tells w o out := by
  by_cases hasSet : ∃ s, NamesSet w o s
  · obtain ⟨s, names⟩ := hasSet
    rw [names.run_eq] at ran
    -- The status for no set is never that of a run with one.
    have notTwo : out.exit ≠ 2 := by
      have small := exit_of_runWith ran
      omega
    refine ⟨iff_of_false notTwo (not_not_intro ⟨s, names⟩), fun s' names' listed => ?_,
      fun s' names' noList noFiles => ?_, fun s' names' noList someFiles => ?_⟩
    · rw [runWith, if_pos listed] at ran
      exact congrArg Outcome.exit (Except.ok.inj ran).symm
    · rw [runWith, noList, if_neg Bool.false_ne_true, noFiles] at ran
      exact congrArg Outcome.exit (Except.ok.inj ran).symm
    · obtain rfl := names.unique names'
      exact checksFiles_of_run noList someFiles ran
  · have isTwo : out.exit = 2 := by
      cases named : o.attrs with
      | none =>
          rw [run, named] at ran
          cases ran
      | some spec =>
          rcases run_of_noSet named fun ⟨s, names⟩ => hasSet ⟨s, spec, named, names⟩ with
            ⟨abort, aborts⟩ | ⟨out', ran', isTwo⟩
          · cases (aborts.run_eq named).symm.trans ran
          · rwa [Except.ok.inj (ran.symm.trans ran')]
    have none {s : SetSource} (names : NamesSet w o s) : False := hasSet ⟨s, names⟩
    exact ⟨iff_of_true isTwo hasSet, fun s names => (none names).elim, fun s names => (none names).elim,
      fun s names => (none names).elim⟩

end Runs

/-! ## Command lines -/

namespace Progress

/-- What words come to if they do not take the name of the set away: the name is still there, or the command line asks
for no run. -/
inductive KeepsName (p : Progress) : Except Request Progress → Prop where
  | ok {q : Progress} (named : p.options.attrs ≠ none → q.options.attrs ≠ none) : KeepsName p (.ok q)
  | help : KeepsName p (.error .help)
  | refuse (e : ArgumentError) : KeepsName p (.error (.refuse e))

variable {p q : Progress}

theorem KeepsName.of_eq (same : q.options.attrs = p.options.attrs) : KeepsName p (.ok q) :=
  .ok fun named => same ▸ named

/-- What one word comes to may come from another place with the same name. -/
theorem KeepsName.of_step {result : Except Request Progress} (keeps : KeepsName q result)
    (named : p.options.attrs ≠ none → q.options.attrs ≠ none) : KeepsName p result := by
  cases keeps with
  | ok later => exact .ok fun here => later (named here)
  | help => exact .help
  | refuse e => exact .refuse e

theorem KeepsName.bind {first : Except Request Progress} {later : Progress → Except Request Progress}
    (keeps : KeepsName p first) (rest : ∀ q, KeepsName q (later q)) : KeepsName p (first >>= later) := by
  cases keeps with
  | ok named => exact (rest _).of_step named
  | help => exact .help
  | refuse e => exact .refuse e

@[simp] theorem attrs_refuse (word : String) (p : Progress) : (p.refuse word).options.attrs = p.options.attrs :=
  rfl

@[simp] theorem attrs_file (word : String) (p : Progress) : (p.file word).options.attrs = p.options.attrs := by
  unfold file
  split <;> rfl

@[simp] theorem attrs_separate (p : Progress) : p.separate.options.attrs = p.options.attrs := by
  unfold separate
  split <;> rfl

@[simp] theorem attrs_interrupt (p : Progress) : p.interrupt.options.attrs = p.options.attrs := by
  unfold interrupt
  split <;> rfl

@[simp] theorem attrs_foldl_refuse (words : List String) (p : Progress) :
    (words.foldl (fun p word => p.refuse word) p).options.attrs = p.options.attrs := by
  induction words generalizing p with
  | nil => rfl
  | cons word later inductionHypothesis => exact inductionHypothesis _

theorem keepsName_flag (f : Flag) (p : Progress) : KeepsName p (p.flag f) := by
  cases f with
  | help => exact .help
  | attrs => exact .refuse _
  | list => exact .of_eq rfl
  | verbose => exact .of_eq rfl

theorem keepsName_flags (flags : List Flag) (p : Progress) : KeepsName p (flags.foldlM (fun p f => p.flag f) p) := by
  induction flags generalizing p with
  | nil => exact .of_eq rfl
  | cons f later inductionHypothesis =>
      rw [List.foldlM_cons]
      exact (keepsName_flag f p).bind inductionHypothesis

theorem keepsName_letters (d : Dialect) (f : Flag) (more : List Char) (p : Progress) :
    KeepsName p (p.letters d f more) := by
  unfold letters
  split
  · exact (keepsName_flags ..).of_step (by simp)
  · exact .refuse _

theorem keepsName_valued (f : Flag) (value : String) (p : Progress) : KeepsName p (p.valued .strict f value) := by
  unfold valued
  split
  · exact .ok (by simp [attrs])
  · exact .refuse _

/-- By the strict rules, the flag for the set never loses its value. -/
theorem keepsName_take (words : List Word) (p : Progress) : KeepsName p (p.take .strict words) := by
  fun_induction take .strict p words with
  | case1 p => exact .of_eq rfl
  | case2 p text later inductionHypothesis => exact inductionHypothesis.of_step (by simp)
  | case3 p later inductionHypothesis => exact inductionHypothesis.of_step (by simp)
  | case4 p text later inductionHypothesis => exact inductionHypothesis.of_step (by simp)
  | case5 p f more later inductionHypothesis =>
      exact ((keepsName_letters ..).bind inductionHypothesis).of_step (by simp)
  | case6 p value later inductionHypothesis => exact inductionHypothesis.of_step (by simp [attrs])
  | case7 p f later noValue inductionHypothesis =>
      exact ((keepsName_flag ..).bind inductionHypothesis).of_step (by simp)
  | case8 p f value later inductionHypothesis =>
      exact ((keepsName_valued ..).bind inductionHypothesis).of_step (by simp)

end Progress

theorem Request.attrs_of_strict {arguments : List String} {o : Options}
    (accepted : Request.ofArguments .strict arguments = .run o) : o.attrs ≠ none := by
  unfold ofArguments at accepted
  cases areWords : Word.ofTexts .strict arguments with
  | error e =>
      rw [areWords] at accepted
      cases accepted
  | ok words =>
      rw [areWords] at accepted
      dsimp only at accepted
      have keeps := Progress.keepsName_take words ⟨.default, .awaited, []⟩
      generalize Progress.take .strict ⟨.default, .awaited, []⟩ words = result at keeps accepted
      cases keeps with
      | ok named =>
          dsimp only at accepted
          split at accepted
          · obtain rfl := Request.run.inj accepted
            exact named (by simp [Options.default])
          · cases accepted
      | help => cases accepted
      | refuse e => cases accepted

/-- A command line that is accepted comes to a status, which tells what was found, unless it ends in one of the ways
that have none. -/
theorem outcome_tells (w : Surroundings ε) {arguments : List String} {o : Options}
    (accepted : Request.ofArguments w.dialect arguments = .run o) :
    (∀ abort, outcome w arguments = .error abort ↔ Escapes w o abort) ∧
      ∀ out, outcome w arguments = .ok out → Tells w o out := by
  have isRun : outcome w arguments = run w o := by
    rw [outcome, accepted]
    rfl
  rw [isRun]
  exact ⟨fun abort => run_eq_error_iff (fun rules => Request.attrs_of_strict (rules ▸ accepted)),
    fun out => tells_of_run⟩

/-- A definition of a set in a text. -/
def packetText : String :=
  "name: packet\nextends: field\nattributes:\n  checksum: void\n  magic:\n    shape: value\n    payload: expr\n"

/-- A command that finds this definition, with a loader that takes no other text, and a file with an open bracket. -/
def packetSurroundings : Surroundings Empty where
  dialect := .strict
  files := (FileTree.mk [(["p"], packetText), (["a"], "(")]).read
  load text := if text = packetText then .ok (.map Definition.packetSettings) else .error (.malformed "")

/-- By a set that a file defines, an open bracket in one file and another file that is missing are two errors. -/
theorem outcome_tells_unclosed :
    Request.ofArguments packetSurroundings.dialect ["--attrs", "p", "a", "b"] =
        .run ⟨some "p", false, false, ["a", "b"]⟩ ∧
      ∃ out, outcome packetSurroundings ["--attrs", "p", "a", "b"] = .ok out ∧ out.exit = 1 ∧
        out.output = "a:1:1: error: Unclosed '('\nb: error: No such file or directory\n\n2 error(s)\n" := by
  have accepted : Request.ofArguments packetSurroundings.dialect ["--attrs", "p", "a", "b"] =
      .run ⟨some "p", false, false, ["a", "b"]⟩ := by cbv
  have textA : (Path.ofText "a").text = "a" := by cbv
  have textB : (Path.ofText "b").text = "b" := by cbv
  have shown : (((Unicode.lines "(").zipIdx 1).filter fun line => !Lint.hides line.1) = [("(", 1)] := by decide
  have isWrong : Lint.findingsOf (SetSource.file (.ofText "p") Definition.packet).grammar [("(", 1)] =
      .ok [⟨⟨1, 1⟩, "Unclosed '('"⟩] := by
    rw [Lint.findingsOf_cons, Lint.numbered?, Lint.line?, Lint.check_unclosed]
    rfl
  have readP : packetSurroundings.files (.ofText "p") = .ok packetText := by cbv
  have readA : packetSurroundings.files (.ofText "a") = .ok "(" := by cbv
  have readB : packetSurroundings.files (.ofText "b") = .error .notFound := by cbv
  have isData : packetSurroundings.load packetText = .ok (.map Definition.packetSettings) := by
    simp [packetSurroundings]
  obtain ⟨escapes_iff, tells⟩ := outcome_tells packetSurroundings accepted
  generalize packetSurroundings = w at accepted readP readA readB isData escapes_iff tells ⊢
  have names : NamesSet w ⟨some "p", false, false, ["a", "b"]⟩ (.file (.ofText "p") Definition.packet) :=
    ⟨_, rfl, .file (by intro b; cases b <;> decide) readP isData Definition.defines_packet⟩
  have areTried : ∀ name ∈ ["a", "b"], w.files (.ofText name) ≠ .error .badPath := by simp [readA, readB]
  refine ⟨accepted, ?_⟩
  cases ends : outcome w ["--attrs", "p", "a", "b"] with
  | error abort => exact absurd ((escapes_iff abort).1 ends) (names.not_escapes areTried abort)
  | ok out =>
      have checks := (tells out ends).checks _ names rfl (List.cons_ne_nil _ _)
      refine ⟨out, rfl, checks.exit_eq_one_iff.2 ⟨"b", by simp, .unreadable readB⟩, ?_⟩
      obtain ⟨printed, prints, output⟩ := checks.output
      obtain ⟨linesA, _, printsA, later, rfl⟩ := List.forall₂_cons_left_iff.1 prints
      obtain ⟨linesB, _, printsB, last, rfl⟩ := List.forall₂_cons_left_iff.1 later
      obtain rfl := List.forall₂_nil_left_iff.1 last
      have isA : linesA = ["a:1:1: error: Unclosed '('"] := by
        rw [printsA.eq_of_findings readA (shown ▸ isWrong), List.map_singleton, findingLine, textA]
        rfl
      have isB : linesB = ["b: error: No such file or directory"] := by
        rw [printsB.eq_of_error readB, textB]
        rfl
      rw [output, isA, isB]
      rfl

/-- A directory that is named as the set leaves the command without a status, and a file with nothing but a no-break
space counts as clean. -/
theorem outcome_directory :
    (Request.ofArguments .strict ["--attrs", "."] = .run ⟨some ".", false, false, []⟩ ∧
      outcome { packetSurroundings with files := (FileTree.mk []).read } ["--attrs", "."] =
        .error (.unreadable .isDirectory (.ofText "."))) ∧
    Request.ofArguments .strict ["a"] = .run ⟨some "field", false, false, ["a"]⟩ ∧
      outcome { packetSurroundings with files := (FileTree.mk [(["a"], "\u00a0")]).read } ["a"] = .ok ⟨0, "", ""⟩ ∧
      Lint.line? (SetSource.builtin .field).grammar "\u00a0" =
        .ok (some ⟨⟨1, 1⟩, "Unexpected character: '\\xa0'"⟩) := by
  refine ⟨⟨by cbv, by cbv⟩, by cbv, ?_, @Lint.line?_of_foreign _ _ [] [] '\u00a0' rfl rfl rfl⟩
  cbv

end Command

end AttrGrammar
