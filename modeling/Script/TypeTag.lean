/-
# Script.TypeTag -- the seven kinds of value a program can ask for

The upper-case names are reserved words of the language; each stands for the tag
itself, so that a program can compare the kind of a value with a name.
-/
namespace Script

set_option autoImplicit false

inductive TypeTag where
  | null
  | number
  | string
  | boolean
  | list
  | dict
  | function
deriving DecidableEq, Repr, Inhabited

namespace TypeTag

def all : List TypeTag :=
  [null, number, string, boolean, list, dict, function]

/-- The reserved word that stands for the tag. -/
def name : TypeTag → String
  | null => "NULL"
  | number => "NUMBER"
  | string => "STRING"
  | boolean => "BOOLEAN"
  | list => "ARRAY"
  | dict => "STRUCTURE"
  | function => "FUNCTION"

/-- The tag a reserved word stands for. -/
def ofName? (word : String) : Option TypeTag :=
  all.find? (·.name = word)

theorem ofName?_name (tag : TypeTag) : ofName? tag.name = some tag := by
  cases tag <;> decide

end TypeTag

end Script
