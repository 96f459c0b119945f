/-
# Script.Job -- running a program from its sources

A job says where a program comes from: a source text, or the file `main.ll` of a
root folder.  Its modules are looked for in the root, then in the folder `resource`,
then among those that come with the language.  What a run came to is its value or why there is
none, and what the program wrote.
-/
import Script.Eval.Evaluate
import Script.Files
import Script.Module.Linker

namespace Script

set_option autoImplicit false

structure Job where
  /-- The folder of the program and its modules. -/
  root : Option String
  /-- The text to run, instead of the file `main.ll` of the root. -/
  source : Option String
  /-- The name of the text in reports. -/
  label : Option String
  /-- Whether the modules that come with the language can be imported. -/
  standard : Bool
deriving Inhabited

/-- What a run came to. -/
inductive Ending where
  | value (value : Value) (store : Store)
  | failed (failure : Failure)
  | unreadable (path : String) (error : ReadError)
  | nothingToRun
  | aborted
  | exhausted

namespace Ending

/-- The ending of a computation that nothing follows. -/
def ofOutcome : Outcome Value → Ending × String
  | .done v s => (.value v s.store, s.console.output)
  | .failed f s => (.failed f, s.console.output)
  | .aborted => (.aborted, "")
  | .exhausted => (.exhausted, "")

def ofStop : Stop → Ending
  | .failed f => .failed f
  | .exhausted => .exhausted

def isSuccess : Ending → Bool
  | value _ _ => true
  | _ => false

end Ending

namespace Failure

/-- The lines that report a failure in the source with a label. -/
def report (label : String) (f : Failure) : String :=
  let lines := ("Script error in " ++ label ++ ": " ++ f.headline) ::
    (if f.trace.isEmpty then [] else "Script stack:" :: f.trace.map Frame.text)
  String.join (lines.map (· ++ "\n"))

end Failure

namespace Ending

/-- What is reported of a run of the source with a label. -/
def report (label : String) : Ending → String
  | failed f => f.report label
  | unreadable path error => "cannot read '" ++ path ++ "': " ++ error.reason ++ "\n"
  | nothingToRun => "nothing to run: give a program directory or inline source\n"
  | value _ _ | aborted | exhausted => ""

end Ending

/-- Links and runs a source text. -/
def runText {m : Type → Type} [Monad m] (provider : Module.Provider m) (source : String)
    (input : Input) : m (Ending × String) := do
  match ← Module.linkText provider source with
  | .ok functions => pure (Ending.ofOutcome (Eval.runMain functions (.start input)))
  | .error stop => pure (Ending.ofStop stop, "")

namespace Job

/-- The file run when a folder is given. -/
def entryFile : String := "main.ll"

/-- The folder searched for modules after the root. -/
def resourceFolder : String := "resource"

/-- Runs a text. -/
def ofText (source : String) : Job :=
  ⟨none, some source, none, true⟩

/-- Runs the file `main.ll` of a folder. -/
def ofFolder (root : String) : Job :=
  ⟨some root, none, none, true⟩

/-- The name of the entry source in reports. -/
def entryLabel (job : Job) : String :=
  match job.label, job.source, job.root with
  | some label, _, _ => label
  | none, none, some root => Path.join root entryFile
  | none, _, _ => "<inline>"

variable {m : Type → Type} [Monad m]

/-- Where the job's modules come from. -/
def provider (job : Job) (files : Files m) : Module.Provider m :=
  .firstOf
    ((job.root.map fun root => files.provider root resourceFolder).toList ++
      if job.standard then [.standard] else [])

/-- The text to run. -/
def entrySource (job : Job) (files : Files m) : m (Except Ending String) :=
  match job.source, job.root with
  | some source, _ => pure (.ok source)
  | none, none => pure (.error .nothingToRun)
  | none, some root => do
      let path := Path.join root entryFile
      match ← files.readText path with
      | .ok source => pure (.ok source)
      | .error error => pure (.error (.unreadable path error))

/-- Runs the job; the second component is what the program wrote. -/
def run (job : Job) (files : Files m) (input : Input) : m (Ending × String) := do
  match ← job.entrySource files with
  | .error ending => pure (ending, "")
  | .ok source => runText (job.provider files) source input

/-- The job that a path asks for: a folder with its `main.ll`, or a file with its folder as root;
the error is why the file cannot be read. -/
def ofPath (files : Files m) (path : String) : m (Except ReadError Job) := do
  if ← files.isFolder path then pure (.ok (.ofFolder path))
  else
    let root := ((Path.parent? path).filter (· ≠ "")).getD "."
    match ← files.readText path with
    | .ok source => pure (.ok ⟨some root, some source, some path, true⟩)
    | .error error => pure (.error error)

end Job

end Script
