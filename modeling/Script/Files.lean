/-
# Script.Files -- reading files

`Files` is what a program needs to know of a file system: the bytes of a file and
which paths are folders.  It answers in a monad, so that the same code runs on the
files of a machine and on a `Tree` held in memory.
-/
import Script.Module.Provider
import Script.Path

namespace Script

set_option autoImplicit false

/-- Why a file cannot be read. -/
inductive ReadError where
  | notFound
  | permissionDenied
  | isFolder
  | notFolder
  | notText
  | other (reason : String)
deriving DecidableEq, Repr

namespace ReadError

def reason : ReadError → String
  | notFound => "No such file or directory (os error 2)"
  | permissionDenied => "Permission denied (os error 13)"
  | isFolder => "Is a directory (os error 21)"
  | notFolder => "Not a directory (os error 20)"
  | notText => "stream did not contain valid UTF-8"
  | other reason => reason

end ReadError

structure Files (m : Type → Type) where
  read : String → m (Except ReadError ByteArray)
  isFolder : String → m Bool

namespace Files

/-- The text that bytes encode. -/
def decode (bytes : ByteArray) : Except ReadError String :=
  match String.fromUTF8? bytes with
  | some text => .ok text
  | none => .error .notText

variable {m : Type → Type} [Monad m]

/-- The text of a file. -/
def readText (files : Files m) (path : String) : m (Except ReadError String) := do
  pure ((← files.read path).bind decode)

/-- Modules in files of two folders, the first searched first.  A file that cannot be read is
passed over. -/
def provider (files : Files m) (root resource : String) : Module.Provider m :=
  .firstOf ([root, resource].map fun folder module => do
    let path := Path.join folder (Module.fileName module)
    match ← files.readText path with
    | .ok code => pure (some ⟨path, code⟩)
    | .error _ => pure none)

end Files

end Script
