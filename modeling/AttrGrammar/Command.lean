import AttrGrammar.Command.Arguments
import AttrGrammar.Definition.Text
import AttrGrammar.FileTree
import AttrGrammar.Lint

/-!
Contract: the command that checks files of attribute lists.

Owns:
- finding the set of attributes that a command line names, which is one that needs no definition, or a file;
- what is printed and logged for each file, and for all of them;
- the exit status, and the failures that have none.

Does not own: reading real files, and loading texts as data. Both are functions that the command is given.
-/

namespace AttrGrammar.Command

/-- How the files that a command may read are read. -/
abbrev Files := Path → Except FileError String

/-- What a command finds around it: the rules for its words, the files, and the loader of definitions. -/
structure Surroundings (ε : Type) where
  dialect : Dialect
  files : Files
  load : Loader ε

variable {ε : Type}

/-- Why a name or a path yields no set of attributes. -/
inductive SetError (ε : Type) where
  /-- There is no such file. -/
  | notFound (p : Path)
  /-- There is something, but it cannot be read. -/
  | unreadable (e : FileError) (p : Path)
  /-- What was read cannot be used. -/
  | failure (f : TextFailure ε)
deriving DecidableEq, Repr

/-- The message for a path at which there is no file. -/
def notFoundMessage (p : Path) : String :=
  "Attribute set not found: " ++ p.text

/-- Where a set of attributes comes from. -/
inductive SetSource where
  | builtin (b : BuiltinSet)
  | file (p : Path) (d : Definition)
deriving DecidableEq, Repr

namespace SetSource

def set : SetSource → AttrSet Payload
  | builtin b => b.set
  | file _ d => d.set

def grammar (s : SetSource) : Grammar :=
  .attrs (s.set.map .payload)

end SetSource

/-- Whether there is nothing at all at a path that cannot be read. -/
def isAbsent : FileError → Bool
  | .notFound | .notDirectory | .badPath => true
  | .isDirectory | .nameTooLong => false

/-- The set that a name or a path stands for. -/
def resolve (w : Surroundings ε) (spec : String) : Except (SetError ε) SetSource :=
  match BuiltinSet.choices.lookup spec with
  | some b => .ok (.builtin b)
  | none =>
      let p := Path.ofText spec
      match w.files p with
      | .error e => .error (if isAbsent e then .notFound p else .unreadable e p)
      | .ok text =>
          match Definition.ofText w.load p.text text with
          | .ok d => .ok (.file p d)
          | .error f => .error (.failure f)

/-! ## Output -/

inductive LogLevel where
  | debug
  | info
deriving DecidableEq, Repr

def LogLevel.name : LogLevel → String
  | debug => "DEBUG"
  | info => "INFO"

structure LogLine where
  level : LogLevel
  message : String
deriving DecidableEq, Repr

def LogLine.text (l : LogLine) : String :=
  l.level.name ++ ": " ++ l.message

def ofLines (lines : List String) : String :=
  String.join (lines.map (· ++ "\n"))

/-- What is logged while a set is read from a file. -/
def loading (p : Path) : LogLine :=
  ⟨.debug, "Loading attribute set from " ++ p.text⟩

namespace SetSource

/-- What is logged about a set. -/
def log : SetSource → List LogLine
  | builtin _ => []
  | file p d =>
      let extending := d.base.toList.map fun b =>
        ⟨.debug, "Extending " ++ b.name ++ " attributes with " ++ toString d.nodes.length ++ " keyword(s)"⟩
      loading p :: extending ++
        [⟨.info, "Loaded attribute set " ++ Text.quoted d.name ++ " with " ++ toString d.set.size ++
          " keyword(s)"⟩]

end SetSource

namespace SetError

/-- What is logged about a name or a path that yields no set. -/
def log (spec : String) : SetError ε → List LogLine
  | notFound _ => []
  | unreadable .. => []
  | failure _ => [loading (Path.ofText spec)]

end SetError

/-- What the check of a file comes to: how many errors are counted, and what is printed and logged. -/
structure FileReport where
  errors : Nat
  lines : List String
  log : List LogLine
deriving DecidableEq, Repr

def findingLine (p : Path) (f : Finding) : String :=
  p.text ++ ":" ++ f.position.text ++ ": error: " ++ f.message

/-- The line that is logged for the attributes of a line. -/
def attributesLine (attributes : List (Attribute Parsed)) : LogLine :=
  ⟨.debug, "Parsed " ++ toString attributes.length ++ " attribute(s): " ++
    ", ".intercalate (attributes.map Attribute.keyword)⟩

/-- The report on a file from the results of its lines. -/
def reportLines (p : Path) (results : List (Except Finding (List (Attribute Parsed)))) : FileReport :=
  let findings := Lint.findings results
  let parsed := results.filterMap fun result => result.toOption.map attributesLine
  { errors := findings.length
    lines := findings.map (findingLine p)
    log := if findings.isEmpty then parsed ++ [⟨.info, p.text ++ ": OK"⟩] else parsed }

/-- The report on a file that cannot be read, which counts as one error. -/
def reportUnreadable (p : Path) (e : FileError) : FileReport :=
  ⟨1, [p.text ++ ": error: " ++ e.text], []⟩

/-! ## The command -/

/-- A failure of the command that has no exit status. -/
inductive Abort (ε : Type) where
  /-- A path cannot even be tried, or the set cannot be read although something is there. -/
  | unreadable (e : FileError) (p : Path)
  /-- The loader fails on the definition of the set in a way of its own. -/
  | unloaded (e : ε)
  /-- An integer in the definition of the set has too many digits for the error that would show it. -/
  | tooManyDigits
  /-- The command line names no set. -/
  | noSet
  /-- A set that cannot be used. -/
  | failure (f : Failure)
deriving DecidableEq, Repr

/-- What is said about a failure that has no exit status, by what is said about those of the loader. -/
def Abort.message (say : ε → String) : Abort ε → String
  | unreadable e p => e.message p
  | unloaded e => say e
  | tooManyDigits => "an integer has too many digits to be shown"
  | noSet => "no attribute set is named"
  | failure _ => "the attribute set cannot be used"

def checkFile (files : Files) (attrs : Grammar) (name : String) : Except (Abort ε) FileReport :=
  let p := Path.ofText name
  match files p with
  | .error .badPath => .error (.unreadable .badPath p)
  | .error e => .ok (reportUnreadable p e)
  | .ok text => ((Lint.results attrs text).map (reportLines p)).mapError .failure

/-- What a run of the command comes to. -/
structure Outcome where
  exit : Nat
  output : String
  errorOutput : String
deriving DecidableEq, Repr

/-- The outcome of a run that prints some lines, with its log if that is asked for. -/
def Outcome.ofLines (verbose : Bool) (exit : Nat) (lines : List String) (log : List LogLine) : Outcome :=
  ⟨exit, Command.ofLines lines, if verbose then Command.ofLines (log.map LogLine.text) else ""⟩

/-- The outcome for a name or a path that yields no set. -/
def refuseSet (o : Options) (spec : String) (e : SetError ε) : Except (Abort ε) Outcome :=
  let refuse (message : String) : Except (Abort ε) Outcome :=
    .ok (.ofLines o.verbose 2 ["error: " ++ message] (e.log spec))
  match e with
  | .notFound p => refuse (notFoundMessage p)
  | .unreadable e p => .error (.unreadable e p)
  | .failure (.definition (.unusable e)) => refuse e.message
  | .failure (.definition .tooManyDigits) => .error .tooManyDigits
  | .failure (.own e) => .error (.unloaded e)

def totalErrors (reports : List FileReport) : Nat :=
  reports.foldl (fun total report => total + report.errors) 0

def summarise (o : Options) (log : List LogLine) (reports : List FileReport) : Outcome :=
  let total := totalErrors reports
  let summary := if total = 0 then [] else ["", toString total ++ " error(s)"]
  .ofLines o.verbose (if total = 0 then 0 else 1) (reports.flatMap FileReport.lines ++ summary)
    (log ++ reports.flatMap FileReport.log)

def runWith (files : Files) (o : Options) (s : SetSource) : Except (Abort ε) Outcome :=
  if o.list then .ok (.ofLines o.verbose 0 s.set.keywords s.log)
  else if o.files.isEmpty then .ok { Outcome.ofLines o.verbose 1 [] s.log with output := help }
  else (o.files.mapM (checkFile files s.grammar)).map (summarise o s.log)

def run (w : Surroundings ε) (o : Options) : Except (Abort ε) Outcome :=
  match o.attrs with
  | none => .error .noSet
  | some spec =>
      match resolve w spec with
      | .ok s => runWith w.files o s
      | .error e => refuseSet o spec e

/-- The files that are read for what a command line asks for. -/
def Request.paths : Request → List Path
  | run o => (o.attrs.toList ++ o.files).map Path.ofText
  | _ => []

def Request.outcome (w : Surroundings ε) : Request → Except (Abort ε) Outcome
  | help => .ok ⟨0, Command.help, ""⟩
  | refuse e => .ok ⟨2, "", refusal e⟩
  | run o => Command.run w o

def outcome (w : Surroundings ε) (arguments : List String) : Except (Abort ε) Outcome :=
  (Request.ofArguments w.dialect arguments).outcome w

end AttrGrammar.Command
