/-
# Script.Main -- the program

Reads the files of the machine and the standard input, and writes what the command
came to.  A run that stops dead has no report and ends with code 101.
-/
import Script.Command

namespace Script

set_option autoImplicit false

/-- Why the machine did not read a file.  The code of an error may come with its sign turned. -/
def ReadError.ofMachine (e : IO.Error) : ReadError :=
  match e with
  | .noFileOrDirectory _ _ _ => .notFound
  | .permissionDenied _ _ _ => .permissionDenied
  | .inappropriateType _ code reason =>
      match min code (0 - code) with
      | 20 => .notFolder
      | 21 => .isFolder
      | code => .other (reason ++ " (os error " ++ toString code ++ ")")
  | e => .other (toString e)

/-- The bytes of a file of the machine. -/
def readFile (path : String) : IO (Except ReadError ByteArray) := do
  try return .ok (← IO.FS.readBinFile path)
  catch e => return .error (.ofMachine e)

/-- The files of the machine. -/
def machine : Files IO where
  read := readFile
  isFolder path := return match ← readFile path with
    | .error .isFolder => true
    | _ => false

/-- The bytes of the standard input. -/
partial def readAll (stream : IO.FS.Stream) (got : List UInt8) : IO (List UInt8) := do
  let chunk ← stream.read 65536
  if chunk.isEmpty then return got else readAll stream (got ++ chunk.toList)

end Script

def main (words : List String) : IO UInt32 := do
  let input := return .bytes (← Script.readAll (← IO.getStdin) [])
  match ← Script.Command.respond Script.machine input words with
  | some report =>
      (← IO.getStdout).putStr report.stdout
      (← IO.getStderr).putStr report.stderr
      return report.exit
  | none => return 101
