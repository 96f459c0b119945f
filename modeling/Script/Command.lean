/-
# Script.Command -- the command line

The commands run a program, list its tokens or list its functions and imports.  A
command answers with what it writes and its exit code, which is zero unless
something went wrong.
-/
import Script.Job
import Script.Text.Quoted

namespace Script

set_option autoImplicit false

/-- What a command came to. -/
structure Report where
  stdout : String
  stderr : String
  exit : UInt32
deriving DecidableEq, Repr, Inhabited

namespace Report

def success (stdout : String) : Report := ⟨stdout, "", 0⟩

def failure (stderr : String) : Report := ⟨"", stderr, 1⟩

end Report

/-- Lines, each closed by a line feed. -/
def joinLines (lines : List String) : String :=
  String.join (lines.map (· ++ "\n"))

namespace Token.Kind

/-- How a token listing shows the kind, with the value of a number and the tag of a type name. -/
def listing : Token.Kind → String
  | number x => "Number(" ++ Number.write .listing x ++ ")"
  | string => "Str"
  | name => "Ident"
  | typeName tag => "TypeTag(" ++ tag.name.toList.head?.elim "" String.singleton ++
      String.ofList (tag.name.toList.tail.map Char.toLower) ++ ")"
  | keyword word => word.label
  | sign s => s.label
  | endOfInput => "Eof"

end Token.Kind

/-- The line of a listing that shows a token. -/
def Token.listing (t : Token) : String :=
  "  " ++ t.kind.listing ++ " " ++ Text.quoted t.text ++ " @ " ++ t.position.text

/-- The line of a listing that shows an import. -/
def Import.listing (i : Import) : String :=
  "  " ++ i.module ++ "." ++ i.name ++ (if i.newName = i.name then "" else " as " ++ i.newName) ++
    " @ " ++ i.position.text

/-- The line of a listing that shows a function. -/
def Function.listing (f : Function) : String :=
  "  " ++ f.name ++ "(" ++ ", ".intercalate f.params ++ ") @ " ++ f.position.text

/-- The listing of a program: its counts, then its imports and its functions, if it has any. -/
def Program.listing (p : Program) (path : String) : List String :=
  ["Parse result for '" ++ path ++ "':",
    "  Functions: " ++ toString p.functions.entries.length,
    "  Imports: " ++ toString p.imports.length] ++
  (if p.imports.isEmpty then [] else "" :: "Imports:" :: p.imports.map Import.listing) ++
  if p.functions.entries.isEmpty then []
  else "" :: "Functions:" :: p.functions.byPosition.map Function.listing

/-- The listing of the tokens of a file. -/
def tokenListing (path : String) (tokens : List Token) : List String :=
  ("Tokens for '" ++ path ++ "' (" ++ toString tokens.length ++ " tokens):") ::
    tokens.map Token.listing

namespace Command

def usage : String :=
  joinLines [
    "Lull scripting language",
    "",
    "Usage: lull <command> [options]",
    "",
    "Commands:",
    "  run [dir|file.ll]    Run a program (default: ./main.ll)",
    "  parse <file.ll>      Parse and list functions and imports",
    "  lex <file.ll>        Tokenize and display tokens",
    "  help                 Show this help message",
    "  version              Show version information",
    "",
    "Modules are looked up as <root>/<name>.ll, then resource/<name>.ll,",
    "then in the bundled library.",
    "",
    "Environment:",
    "  LULL_LOG             Log filter, e.g. LULL_LOG=lull_eval=debug",
    "",
    "Examples:",
    "  lull run                        # Run ./main.ll",
    "  lull run demo/                  # Run demo/main.ll",
    "  lull hello.ll                   # Run a single file",
    "  lull parse hello.ll"]

/-- What is written when a file named on the command line cannot be read. -/
def unreadable (path : String) (error : ReadError) : String :=
  match error with
  | .notFound => "cannot find file '" ++ path ++ "'\n"
  | .permissionDenied => "permission denied reading '" ++ path ++ "'\n"
  | .notText => "'" ++ path ++ "' contains invalid UTF-8 data\n"
  | error => "error reading '" ++ path ++ "': " ++ error.reason ++ "\n"

/-- What a failure in a file is reported as. -/
def failed (path : String) (f : Failure) : Report :=
  .failure (path ++ ": " ++ f.text ++ "\n")

/-- The report of a run; absent when the run stopped dead or did not end. -/
def ofEnding (label : String) (output : String) : Ending → Option Report
  | .value _ _ => some (.success output)
  | .aborted | .exhausted => none
  | ending => some ⟨output, ending.report label, 1⟩

/-- The listing of the tokens of a source text. -/
def lex (path source : String) : Report :=
  match tokenize source with
  | .ok tokens => .success (joinLines (tokenListing path tokens))
  | .error f => failed path f

/-- The listing of the program of a source text. -/
def parse (path source : String) : Option Report :=
  match Program.ofText source with
  | .ok program => some (.success (joinLines (program.listing path)))
  | .error (.failed f) => some (failed path f)
  | .error .exhausted => none

variable {m : Type → Type} [Monad m]

/-- Runs the program at a path, with the input that the caller has. -/
def run (files : Files m) (input : m Input) (path : String) : m (Option Report) := do
  match ← Job.ofPath files path with
  | .error error => pure (some (.failure (unreadable path error)))
  | .ok job => do
      let (ending, output) ← job.run files (← input)
      pure (ofEnding job.entryLabel output ending)

/-- Shows what a function makes of the text of a file. -/
def inspect (files : Files m) (path : String) (show? : String → Option Report) :
    m (Option Report) := do
  match ← files.readText path with
  | .ok source => pure (show? source)
  | .error error => pure (some (.failure (unreadable path error)))

/-- Whether a word on the command line is the path of a program. -/
def isProgram (word : String) : Bool :=
  match Path.extension? word with
  | some extension => extension.toList.map Char.toLower = ['l', 'l']
  | none => false

/-- Does what the words on the command line ask for. -/
def respond (files : Files m) (input : m Input) (words : List String) : m (Option Report) :=
  match words with
  | [] | "help" :: _ | "--help" :: _ | "-h" :: _ => pure (some (.success usage))
  | "version" :: _ | "--version" :: _ | "-v" :: _ => pure (some (.success "Lull 0.1.0\n"))
  | ["run"] => run files input "."
  | "run" :: path :: _ => run files input path
  | ["parse"] => pure (some (.failure "Usage: lull parse <file.ll>\n"))
  | "parse" :: path :: _ => inspect files path (parse path)
  | ["lex"] => pure (some (.failure "Usage: lull lex <file.ll>\n"))
  | "lex" :: path :: _ => inspect files path fun source => some (lex path source)
  | word :: _ =>
      if isProgram word then run files input word
      else pure (some ⟨usage, "Unknown command: " ++ word ++ "\n\n", 1⟩)

end Command

end Script
