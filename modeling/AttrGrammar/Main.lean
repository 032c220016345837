import AttrGrammar.Command
import AttrGrammar.Yaml.Document

/-!
Contract: the command as a program.

Owns:
- reading the files that a command line names;
- writing what the command prints, and its exit status.

Does not own: any decision on what is read, printed or returned.
-/

namespace AttrGrammar

/-- Why a file could not be read, by the kind of the failure and, where two share a kind, its number. -/
def FileError.ofSystem : IO.Error → FileError
  | .inappropriateType _ code _ => if code = 21 then .isDirectory else .notDirectory
  | .invalidArgument _ code _ => if code = 22 then .badPath else .nameTooLong
  | _ => .notFound

/-- Reads a file, with its line ends unified. -/
def Path.read (p : Path) : IO (Except FileError String) := do
  try
    let text ← IO.FS.readFile p.text
    pure (.ok (String.ofList (unifyLineEnds text.toList)))
  catch e => pure (.error (.ofSystem e))

end AttrGrammar

open AttrGrammar Command in
/-- Runs the command. -/
def main (arguments : List String) : IO UInt32 := do
  let request := Request.ofArguments .lenient arguments
  let texts ← request.paths.mapM fun p => do pure (p, ← p.read)
  let files : Files := fun p => (texts.lookup p).getD (.error .notFound)
  match request.outcome ⟨.lenient, files, Yaml.load⟩ with
  | .ok outcome =>
      IO.print outcome.output
      IO.eprint outcome.errorOutput
      pure (UInt32.ofNat outcome.exit)
  | .error abort =>
      IO.eprintln (abort.message Yaml.Fault.message)
      pure 1
