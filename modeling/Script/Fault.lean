/-
# Script.Fault -- what can go wrong in a program

A fault is a cause with what the message needs to name it; where it happened is
added by `Failure`.  Faults fall into seven categories, by the stage or the kind of
rule that was broken.
-/
import Script.Token
import Script.Number.Layout

namespace Script

set_option autoImplicit false

inductive Fault where
  | unterminatedString
  | unknownChar (char : Char)
  | invalidNumber (text : String)
  | unexpectedToken (expected found : Token.Kind)
  | badFactor (found : Token.Kind)
  | expectedDictKey (found : Token.Kind)
  | expectedItem (found : Token.Kind)
  | malformedImport (found : Token.Kind)
  | duplicateFunction (name : String)
  | duplicateImport (module name : String)
  | aliasSameAsName (name : String)
  | undefinedVariable (name : String)
  | undefinedFunction (name : String)
  | alreadyDefined (name : String)
  | invalidAssignmentTarget
  | notANumber (got : String)
  | notCoercible (got : String)
  | nonStringKey (got : String)
  | keyNotString (name got : String)
  | nonIntegerIndex (index : Float)
  | invalidArgument (function expected : String)
  | unknownType (value : String)
  | indexOutOfBounds (index : Float) (length : Nat)
  | missingKey (key : String)
  | notIndexable (typeName : String)
  | notIndexAssignable (typeName : String)
  | notADict (field typeName : String)
  | unknownMethod (method : String)
  | charCodeOutOfRange (code : Float)
  | intrinsicArity (name expected : String)
  | functionArity (name : String) (expected got : Nat)
  | moduleNotFound (module : String)
  | functionNotInModule (module name label : String)
  | aliasCollision (name : String)
deriving DecidableEq

namespace Fault

inductive Category where
  | lexical
  | syntactic
  | name
  | type
  | bounds
  | arity
  | module
deriving DecidableEq, Repr

namespace Category

def text : Category → String
  | lexical => "lexical"
  | syntactic => "syntax"
  | name => "name"
  | type => "type"
  | bounds => "bounds"
  | arity => "arity"
  | module => "module"

end Category

def category : Fault → Category
  | unterminatedString | unknownChar _ | invalidNumber _ => .lexical
  | unexpectedToken _ _ | badFactor _ | expectedDictKey _ | expectedItem _ | malformedImport _
  | duplicateFunction _ | duplicateImport _ _ | aliasSameAsName _ => .syntactic
  | undefinedVariable _ | undefinedFunction _ | alreadyDefined _ | invalidAssignmentTarget => .name
  | notANumber _ | notCoercible _ | nonStringKey _ | keyNotString _ _ | nonIntegerIndex _
  | invalidArgument _ _ | unknownType _ => .type
  | indexOutOfBounds _ _ | missingKey _ | notIndexable _ | notIndexAssignable _ | notADict _ _
  | unknownMethod _ | charCodeOutOfRange _ => .bounds
  | intrinsicArity _ _ | functionArity _ _ _ => .arity
  | moduleNotFound _ | functionNotInModule _ _ _ | aliasCollision _ => .module

def message : Fault → String
  | unterminatedString => "Unterminated string literal"
  | unknownChar c => "Unknown char: " ++ String.singleton c
  | invalidNumber text => "Invalid number literal: " ++ text
  | unexpectedToken expected found =>
      "Expected " ++ expected.description ++ " got " ++ found.description
  | badFactor found => "Bad factor: " ++ found.description
  | expectedDictKey found => "Expected dictionary key, got " ++ found.description
  | expectedItem found => "Expected fun or import, got " ++ found.description
  | malformedImport found => "Expected '.' after module in import, got " ++ found.description
  | duplicateFunction name => "Function already defined: " ++ name
  | duplicateImport module name => "Import already defined: " ++ module ++ "." ++ name
  | aliasSameAsName name => "Alias must be different from original name: " ++ name
  | undefinedVariable name => "Undefined variable " ++ name
  | undefinedFunction name => "Undefined function " ++ name
  | alreadyDefined name => "Variable already defined: " ++ name
  | invalidAssignmentTarget => "Invalid assignment target"
  | notANumber got => "Expected number, got " ++ got
  | notCoercible got => "Expected number or single-character string, got " ++ got
  | nonStringKey got => "Dictionary key must be a string, got " ++ got
  | keyNotString name got =>
      "Dictionary key " ++ name ++ " resolved to non-string value " ++ got
  | nonIntegerIndex index => "Index " ++ Number.write .inMessage index ++ " is not an integer"
  | invalidArgument function expected => function ++ "() expects " ++ expected
  | unknownType value => "typeOf() unknown type: " ++ value
  | indexOutOfBounds index length =>
      "Index " ++ Number.write .inMessage index ++ " out of bounds for length " ++ toString length
  | missingKey key => "Missing key: " ++ key
  | notIndexable typeName => "Cannot index value of type " ++ typeName
  | notIndexAssignable typeName => "Cannot assign by index into value of type " ++ typeName
  | notADict field typeName => "Cannot read field " ++ field ++ " of " ++ typeName
  | unknownMethod method => "Unknown method: " ++ method
  | charCodeOutOfRange code =>
      "toString() ascii code out of range: " ++ Number.write .inMessage code
  | intrinsicArity name expected => name ++ "() expects " ++ expected
  | functionArity name expected got =>
      "Function " ++ name ++ " expects " ++ toString expected ++ " args, got " ++ toString got
  | moduleNotFound module => "Module file not found: " ++ module
  | functionNotInModule module name label =>
      "Unknown function in module " ++ module ++ ": " ++ name ++ " (in " ++ label ++ ")"
  | aliasCollision name => "Function already defined: " ++ name

end Fault

end Script
