import AttrGrammar.Text.Quoted
import AttrGrammar.Unicode.Digits

/-!
Contract: the command line of the checker.

Owns:
- the flags with their spellings, and what each word of a command line is;
- the options that the words come to, or why they are refused;
- the usage and the help text.

A flag may be shortened as long as it is told from all others. Flags of one letter may be joined. The first run of words
that are neither flags nor values of flags names the files; a later run is refused. Behind `--` no word is a flag.

In some words the rules of command lines have changed, and both versions of them are kept as dialects.
-/

namespace AttrGrammar.Command

/-- The rules for words on which versions differ. -/
inductive Dialect where
  /-- An equals sign may stand in front of the letters that are joined to a flag, a word with a letter that is no flag is
  refused, and `--` is dropped where it is the value of a flag. -/
  | lenient
  /-- Behind an equals sign stands the value of a flag, which may be `--`, and what is left of a word from a letter on that
  is no flag is a word by itself. -/
  | strict
deriving DecidableEq, Repr

inductive Flag where
  | help
  | attrs
  | list
  | verbose
deriving DecidableEq, Repr

namespace Flag

def spellings : List (String × Flag) :=
  [("-h", help), ("--help", help), ("--attrs", attrs), ("--list", list), ("-v", verbose),
    ("--verbose", verbose)]

/-- What messages call a flag: all its spellings. -/
def name (f : Flag) : String :=
  "/".intercalate ((spellings.filter fun spelling => spelling.2 = f).map Prod.fst)

end Flag

/-- Why a command line is refused. -/
inductive ArgumentError where
  /-- The word could be short for several spellings. -/
  | ambiguous (word : String) (spellings : List String)
  /-- A flag lacks its value. -/
  | missingValue (f : Flag)
  /-- A flag that takes no value has one. -/
  | unusedValue (f : Flag) (value : String)
  /-- Some words have no meaning. -/
  | unrecognized (words : List String)
deriving DecidableEq, Repr

/-- The message for a command line that is refused. -/
def ArgumentError.message : ArgumentError → String
  | ambiguous word spellings =>
      "ambiguous option: " ++ word ++ " could match " ++ ", ".intercalate spellings
  | missingValue f => "argument " ++ f.name ++ ": expected one argument"
  | unusedValue f value =>
      "argument " ++ f.name ++ ": ignored explicit argument " ++ Text.quoted value
  | unrecognized words => "unrecognized arguments: " ++ " ".intercalate words

/-- What a word of a command line is. -/
inductive Word where
  | plain (text : String)
  /-- The mark behind which no word is a flag. -/
  | separator
  /-- A flag, with the value that is joined to it by an equals sign. -/
  | flag (f : Flag) (value : Option String)
  /-- A flag of one letter, with more behind it. -/
  | letters (f : Flag) (more : List Char)
  /-- What looks like a flag and is none. -/
  | unknown (text : String)
deriving DecidableEq, Repr

namespace Word

/-- The mark behind which no word is a flag. -/
def separatorText : String := "--"

/-- A text before the first equals sign, and behind it if there is one. -/
def splitValue (text : String) : String × Option String :=
  let before := text.toList.takeWhile (· ≠ '=')
  match text.toList.drop before.length with
  | [] => (text, none)
  | _ :: value => (String.ofList before, some (String.ofList value))

def areDigits (cs : List Char) : Bool :=
  cs.all fun c => (Unicode.decimalValue? c.toNat).isSome

/-- Whether a word is a negative number, which is no flag: a dash and digits, or digits with a point before the last
of them. One line feed may stand at the end. -/
def isNegativeNumber (text : String) : Bool :=
  match text.toList with
  | '-' :: cs =>
      let cs := if cs.getLast? = some '\n' then cs.dropLast else cs
      let whole := cs.takeWhile (· ≠ '.')
      match cs.drop whole.length with
      | [] => !whole.isEmpty && areDigits whole
      | _ :: fraction => areDigits whole && !fraction.isEmpty && areDigits fraction
  | _ => false

/-- What a flag of one letter comes to with what is behind it: more flags, or the value behind an equals sign. -/
def ofLetter (d : Dialect) (f : Flag) : List Char → Word
  | ['='] => flag f (some "")
  | '=' :: more =>
      match d with
      | .lenient => letters f more
      | .strict => flag f (some (String.ofList more))
  | more => letters f more

/-- What a word can be short for, with the spelling: a word with two dashes for the flags whose spellings start like
it, and a word with one dash for the flag of its first letter. -/
def abbreviated (d : Dialect) (text : String) : List (String × Word) :=
  if separatorText.isPrefixOf text then
    let (word, value) := splitValue text
    (Flag.spellings.filter fun spelling => word.isPrefixOf spelling.1).map fun (spelling, f) =>
      (spelling, flag f value)
  else
    let letter := String.ofList (text.toList.take 2)
    (Flag.spellings.filter fun spelling => spelling.1 = letter).map fun (spelling, f) =>
      (spelling, ofLetter d f (text.toList.drop 2))

/-- What a word is, before the mark behind which no word is a flag. -/
def ofText (d : Dialect) (text : String) : Except ArgumentError Word :=
  if !"-".isPrefixOf text || text = "-" then .ok (plain text)
  else
    match Flag.spellings.lookup text with
    | some f => .ok (flag f none)
    | none =>
        match abbreviated d text with
        | [(_, word)] => .ok word
        | [] => .ok (if isNegativeNumber text || text.contains ' ' then plain text else unknown text)
        | several => .error (.ambiguous text (several.map Prod.fst))

/-- What the words of a command line are. -/
def ofTexts (d : Dialect) : List String → Except ArgumentError (List Word)
  | [] => .ok []
  | text :: later =>
      if text = separatorText then .ok (separator :: later.map plain)
      else do
        let word ← ofText d text
        pure (word :: (← ofTexts d later))

end Word

/-- The flags that are joined in one word, a flag with the letters of others behind it, and the words that are left. What
begins with a letter that is no flag would be a value, which these flags do not take, or is a word by itself. -/
def joinedFlags (d : Dialect) (f : Flag) : List Char → Except ArgumentError (List Flag × List String)
  | [] => .ok ([f], [])
  | letter :: later =>
      let unused (value : List Char) : Except ArgumentError (List Flag × List String) :=
        .error (.unusedValue f (String.ofList value))
      match Flag.spellings.lookup (String.ofList ['-', letter]), d with
      | some next, _ => (joinedFlags d next later).map fun (flags, words) => (f :: flags, words)
      | none, .lenient => unused (letter :: later)
      | none, .strict =>
          if letter = '=' then unused later
          else if letter = '-' then unused (letter :: later)
          else .ok ([f], [String.ofList ('-' :: letter :: later)])

structure Options where
  /-- The set of attributes, by its name or its path. There is none if the flag for it has lost its value. -/
  attrs : Option String
  list : Bool
  verbose : Bool
  files : List String
deriving DecidableEq, Repr

/-- The options where nothing is said. -/
def Options.default : Options :=
  ⟨some "field", false, false, []⟩

/-- What a command line asks for. -/
inductive Request where
  | help
  | refuse (e : ArgumentError)
  | run (o : Options)
deriving DecidableEq, Repr

/-- How far the run of words that names the files has come. -/
inductive FileWords where
  | awaited
  | current
  | past
deriving DecidableEq, Repr

/-- The options so far, and the words that have no meaning. -/
structure Progress where
  options : Options
  fileWords : FileWords
  unrecognized : List String
deriving DecidableEq, Repr

namespace Progress

/-- A word that has no meaning. -/
def refuse (word : String) (p : Progress) : Progress :=
  { p with unrecognized := p.unrecognized ++ [word] }

/-- A word that names a file, if its run is the first one. -/
def file (word : String) (p : Progress) : Progress :=
  if p.fileWords = .past then p.refuse word
  else
    { p with fileWords := .current, options := { p.options with files := p.options.files ++ [word] } }

/-- The mark behind which no word is a flag belongs to a run of words. -/
def separate (p : Progress) : Progress :=
  if p.fileWords = .past then p.refuse Word.separatorText else { p with fileWords := .current }

/-- A flag ends a run of words. -/
def interrupt (p : Progress) : Progress :=
  if p.fileWords = .current then { p with fileWords := .past } else p

/-- The set of attributes. -/
def attrs (value : Option String) (p : Progress) : Progress :=
  { p with options := { p.options with attrs := value } }

/-- A flag without a value: the help ends all else. -/
def flag (f : Flag) (p : Progress) : Except Request Progress :=
  match f with
  | .help => .error .help
  | .attrs => .error (.refuse (.missingValue .attrs))
  | .list => .ok { p with options := { p.options with list := true } }
  | .verbose => .ok { p with options := { p.options with verbose := true } }

/-- A flag with a value that is joined to it. -/
def valued (d : Dialect) (f : Flag) (value : String) (p : Progress) : Except Request Progress :=
  if f = .attrs then .ok (p.attrs (if d = .lenient ∧ value = Word.separatorText then none else some value))
  else .error (.refuse (.unusedValue f value))

def letters (d : Dialect) (f : Flag) (more : List Char) (p : Progress) : Except Request Progress :=
  match joinedFlags d f more with
  | .ok (flags, words) => flags.foldlM (fun p f => p.flag f) (words.foldl (fun p word => p.refuse word) p)
  | .error e => .error (.refuse e)

/-- All further words. -/
def take (d : Dialect) (p : Progress) : List Word → Except Request Progress
  | [] => .ok p
  | .plain text :: later => take d (p.file text) later
  | .separator :: later => take d p.separate later
  | .unknown text :: later => take d (p.interrupt.refuse text) later
  | .letters f more :: later => do take d (← p.interrupt.letters d f more) later
  | .flag .attrs none :: .plain value :: later => take d (p.interrupt.attrs (some value)) later
  | .flag f none :: later => do take d (← p.interrupt.flag f) later
  | .flag f (some value) :: later => do take d (← p.interrupt.valued d f value) later

end Progress

/-- What a command line asks for. -/
def Request.ofArguments (d : Dialect) (arguments : List String) : Request :=
  match Word.ofTexts d arguments with
  | .error e => .refuse e
  | .ok words =>
      match Progress.take d ⟨.default, .awaited, []⟩ words with
      | .error request => request
      | .ok p => if p.unrecognized.isEmpty then .run p.options else .refuse (.unrecognized p.unrecognized)

def commandName : String := "metaparse-lint"

/-- How the command is used. -/
def usage : String :=
  "usage: " ++ commandName ++ " [-h] [--attrs ATTRS] [--list] [-v] [files ...]\n"

/-- The help text. -/
def help : String :=
  usage ++ "\nLint attribute list files.\n\npositional arguments:\n" ++
    "  files          Files to lint\n\noptions:\n" ++
    "  -h, --help     show this help message and exit\n" ++
    "  --attrs ATTRS  Attribute set: 'struct', 'field' or a YAML definition file\n" ++
    "                 (default: field)\n" ++
    "  --list         List the keywords of the attribute set and exit\n" ++
    "  -v, --verbose  Show debug logging\n"

/-- What is said about a command line that is refused. -/
def refusal (e : ArgumentError) : String :=
  usage ++ commandName ++ ": error: " ++ e.message ++ "\n"

end AttrGrammar.Command
