/-
# Script.Files.Tree -- files held in memory

A tree lists files by their path from the folder one is in.  The folders are those
that some file lies in.  Looking up a path goes through its parts from left to
right: each must be found, and whatever is followed by a further part, even an empty
one, must be a folder.  Outside the tree there are folders, but nothing to be found in them.
-/
import Script.Files

namespace Script.Files

set_option autoImplicit false

/-- The files, by the parts of their paths. -/
structure Tree where
  files : List (List String × ByteArray)

namespace Tree

def ofList (files : List (String × ByteArray)) : Tree :=
  ⟨files.map fun file => ((Path.parts file.1).filter (!Path.isVoid ·), file.2)⟩

/-- What a path leads to. -/
inductive Place where
  | file (bytes : ByteArray)
  | folder (parts : List String)
  | outside

/-- What the parts of a path from the folder one is in lead to. -/
def at? (t : Tree) (parts : List String) : Option Place :=
  match t.files.lookup parts with
  | some bytes => some (.file bytes)
  | none =>
      if parts.isEmpty || t.files.any fun file => parts.isPrefixOf file.1 then
        some (.folder parts)
      else none

/-- Where the next part of a path leads. -/
def step (t : Tree) (place : Place) (part : String) : Except ReadError Place :=
  match place with
  | .file _ => .error .notFolder
  | .folder parts =>
      if Path.isVoid part then .ok place
      else if part = ".." then
        if parts.isEmpty then .ok .outside else .ok (.folder parts.dropLast)
      else
        match t.at? (parts ++ [part]) with
        | some place => .ok place
        | none => .error .notFound
  | .outside =>
      if Path.isVoid part || part = ".." then .ok .outside else .error .notFound

/-- What a path leads to. -/
def find (t : Tree) (path : String) : Except ReadError Place :=
  if path = "" then .error .notFound
  else
    let start := if Path.isAbsolute path then .outside else .folder []
    (Path.parts path).foldlM t.step start

def read (t : Tree) (path : String) : Except ReadError ByteArray := do
  match ← t.find path with
  | .file bytes => .ok bytes
  | .folder _ | .outside => .error .isFolder

def isFolder (t : Tree) (path : String) : Bool :=
  match t.find path with
  | .ok (.folder _) | .ok .outside => true
  | _ => false

/-- The tree as a file system. -/
def toFiles {m : Type → Type} [Monad m] (t : Tree) : Files m :=
  ⟨fun path => pure (t.read path), fun path => pure (t.isFolder path)⟩

end Tree

end Script.Files
