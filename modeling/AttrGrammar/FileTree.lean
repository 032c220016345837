import AttrGrammar.Text.Quoted

/-!
Contract: named texts in directories.

Owns:
- paths, which are kept without empty and `.` parts;
- why a file cannot be read;
- trees of files, reading a file of a tree by its path, and writing files into an empty directory;
- texts with unified line ends, as files are read.

Does not own: any real directory. Paths from a root lead out of every tree, except to the root itself.
-/

namespace AttrGrammar

/-- A path: the slashes that it starts with, and its parts. -/
structure Path where
  root : String
  parts : List String
deriving DecidableEq, Repr

namespace Path

/-- A path as written. One slash at the start, or more than two, are a root; two are a root of their own. -/
def ofText (text : String) : Path :=
  let slashes := (text.toList.takeWhile (· = '/')).length
  { root := if slashes = 0 then "" else if slashes = 2 then "//" else "/"
    parts := (text.splitOn "/").filter fun part => part ≠ "" ∧ part ≠ "." }

/-- The text of a path: the path without parts is `.`. -/
def text (p : Path) : String :=
  let written := p.root ++ "/".intercalate p.parts
  if written.isEmpty then "." else written

end Path

/-- Why a file cannot be read. -/
inductive FileError where
  | notFound
  | notDirectory
  | isDirectory
  | nameTooLong
  /-- The path holds a character that no path can hold. -/
  | badPath
deriving DecidableEq, Repr

namespace FileError

/-- What is said of it. -/
def text : FileError → String
  | notFound => "No such file or directory"
  | notDirectory => "Not a directory"
  | isDirectory => "Is a directory"
  | nameTooLong => "File name too long"
  | badPath => "embedded null byte"

/-- The number of the error. -/
def number : FileError → Nat
  | notFound => 2
  | notDirectory => 20
  | isDirectory => 21
  | nameTooLong => 36
  | badPath => 0

def message (e : FileError) (p : Path) : String :=
  match e with
  | badPath => e.text
  | _ => "[Errno " ++ toString e.number ++ "] " ++ e.text ++ ": " ++ Text.quoted p.text

end FileError

/-- A text in which every line ends with a line feed. -/
def unifyLineEnds : List Char → List Char
  | [] => []
  | '\r' :: '\n' :: later => '\n' :: unifyLineEnds later
  | '\r' :: later => '\n' :: unifyLineEnds later
  | c :: later => c :: unifyLineEnds later

/-- A tree of files: the texts of files by the parts of their paths. Its directories are those of the files. -/
structure FileTree where
  files : List (List String × String)
deriving DecidableEq, Repr

namespace FileTree

/-- The most bytes that the name of a file has. -/
def nameLimit : Nat := 255

/-- The bytes that a path has to stay below. -/
def pathLimit : Nat := 4096

def hasDirectory (t : FileTree) (directory : List String) : Bool :=
  directory.isEmpty ||
    t.files.any fun file => directory.isPrefixOf file.1 && directory.length < file.1.length

/-- The text of a file, or that there is a directory or nothing. -/
def entry (t : FileTree) (parts : List String) : Except FileError String :=
  match t.files.lookup parts with
  | some text => .ok text
  | none => .error (if t.hasDirectory parts then .isDirectory else .notFound)

/-- What is reached from a directory by the parts of a path. What lies above the tree has no entries. -/
def walk (t : FileTree) (directory : List String) : List String → Except FileError String
  | [] => t.entry directory
  | part :: later =>
      if nameLimit < part.utf8ByteSize then .error .nameTooLong
      else if part = ".." then
        if directory.isEmpty then .error (if later.all (· = "..") then .isDirectory else .notFound)
        else t.walk directory.dropLast later
      else
        match t.entry (directory ++ [part]), later with
        | .ok text, [] => .ok text
        | .ok _, _ :: _ => .error .notDirectory
        | .error .isDirectory, later => t.walk (directory ++ [part]) later
        | .error e, _ => .error e

/-- Reads a file, with its line ends unified. -/
def read (t : FileTree) (p : Path) : Except FileError String :=
  if p.text.contains '\x00' then .error .badPath
  else if pathLimit ≤ p.text.utf8ByteSize then .error .nameTooLong
  else if p.root = "" then (t.walk [] p.parts).map fun text => String.ofList (unifyLineEnds text.toList)
  else .error (if p.parts.isEmpty then .isDirectory else .notFound)

/-- Writes a file, in a directory that is there. -/
def write (t : FileTree) (p : Path) (text : String) : Except FileError FileTree :=
  let written : FileTree := ⟨(p.parts, text) :: t.files⟩
  match t.read p with
  | .ok _ => .ok written
  | .error .notFound => if p.root = "" ∧ t.hasDirectory p.parts.dropLast then .ok written else .error .notFound
  | .error e => .error e

/-- Writes files into an empty directory, one behind the other. A file that cannot be written ends this. -/
def ofNames (files : List (String × String)) : Except (FileError × Path) FileTree :=
  files.foldlM
    (fun t (name, text) => (t.write (.ofText name) text).mapError fun e => (e, .ofText name))
    ⟨[]⟩

end FileTree

end AttrGrammar
