import Scriptlet.Tree.Statement
import Scriptlet.Value.Basic

/-!
# Faults of a run
-/

namespace Scriptlet

/-- Operands of the wrong type. -/
inductive Mismatch where
  | binary (op : BinaryOp) (left right : ValueType)
  | bitwise (op : BitwiseOp) (left right : ValueType)
  | shiftedBooleans (op : BitwiseOp)
  | unary (op : UnaryOp) (operand : ValueType)
  | repeatCount (found : ValueType)
  | index (found : ValueType)
  | indexed (target : ValueType)
  | storedByIndex (target : ValueType)
  deriving DecidableEq, Repr

/-- The wording of a mismatch. -/
def Mismatch.details : Mismatch → String
  | binary op left right =>
    "cannot use '" ++ op.text ++ "' on " ++ left.name ++ " and " ++ right.name
  | bitwise op left right =>
    "cannot use " ++ op.text ++ " on " ++ left.name ++ " and " ++ right.name
  | shiftedBooleans op => "cannot use " ++ op.text ++ " on booleans"
  | unary op operand => "cannot apply '" ++ op.text ++ "' to " ++ operand.name
  | repeatCount found => "repeat count must be a number, not " ++ found.name
  | index found => "index must be a number, not " ++ found.name
  | indexed target => "cannot index " ++ target.name
  | storedByIndex target => "cannot assign by index into " ++ target.name

/-- Why a run stops. -/
inductive RuntimeFault where
  | undefinedVariable (name : String)
  | typeMismatch (mismatch : Mismatch)
  | notCallable (type : ValueType)
  | arityMismatch (expected found : Nat)
  | undefinedProperty (name : String)
  | propertyOnNonObject (name : String) (type : ValueType)
  | privateAccess (name : String)
  | finalReassignment (name : String)
  | finalFieldReassignment (name : String)
  | finalInheritance (className superclass : String)
  | finalExtension (className : String)
  | superclassNotClass (name : String)
  | notAClass (name : String)
  | indexOutOfBounds (index : Int) (length : Nat)
  | unknownModule (name : String)
  | unknownNativeFunction (moduleName name : String)
  | noMatchingOverload (moduleName name : String)
  | ambiguousOverload (moduleName name : String) (candidates : Nat)
  | nativeFailure (moduleName name message : String)
  | illegalControlFlow (jump : Jump)
  | callDepthExceeded (limit : Nat)
  | testFailed (name : String)
  deriving DecidableEq, Repr

/-- The short name of a runtime fault. -/
def RuntimeFault.name : RuntimeFault → String
  | undefinedVariable _ => "UndefinedVariable"
  | typeMismatch _ => "TypeMismatch"
  | notCallable _ => "NotCallable"
  | arityMismatch _ _ => "ArityMismatch"
  | undefinedProperty _ => "UndefinedProperty"
  | propertyOnNonObject _ _ => "PropertyOnNonObject"
  | privateAccess _ => "PrivateAccess"
  | finalReassignment _ => "FinalReassignment"
  | finalFieldReassignment _ => "FinalFieldReassignment"
  | finalInheritance _ _ => "FinalInheritance"
  | finalExtension _ => "FinalExtension"
  | superclassNotClass _ => "SuperclassNotClass"
  | notAClass _ => "NotAClass"
  | indexOutOfBounds _ _ => "IndexOutOfBounds"
  | unknownModule _ => "UnknownModule"
  | unknownNativeFunction _ _ => "UnknownNativeFunction"
  | noMatchingOverload _ _ => "NoMatchingOverload"
  | ambiguousOverload _ _ _ => "AmbiguousOverload"
  | nativeFailure _ _ _ => "NativeFailure"
  | illegalControlFlow _ => "IllegalControlFlow"
  | callDepthExceeded _ => "CallDepthExceeded"
  | testFailed _ => "TestFailed"

/-- The wording of a runtime fault. -/
def RuntimeFault.message : RuntimeFault → String
  | undefinedVariable name => "Undefined variable '" ++ name ++ "'"
  | typeMismatch mismatch => "Type mismatch: " ++ mismatch.details
  | notCallable type => "Can only call functions and classes, not " ++ type.name
  | arityMismatch expected found =>
    "Expected " ++ toString expected ++ " argument(s) but got " ++ toString found
  | undefinedProperty name => "Undefined property '" ++ name ++ "'"
  | propertyOnNonObject name type =>
    "Cannot access property '" ++ name ++ "' on " ++ type.name
  | privateAccess name => "Cannot access private property '" ++ name ++ "' outside its class"
  | finalReassignment name => "Cannot reassign final binding '" ++ name ++ "'"
  | finalFieldReassignment name => "Cannot reassign final property '" ++ name ++ "'"
  | finalInheritance className superclass =>
    "Class '" ++ className ++ "' cannot extend final class '" ++ superclass ++ "'"
  | finalExtension className =>
    "Cannot add extension methods to final class '" ++ className ++ "'"
  | superclassNotClass name => "Superclass '" ++ name ++ "' is not a class"
  | notAClass name => "'" ++ name ++ "' is not a class"
  | indexOutOfBounds index length =>
    "Index " ++ toString index ++ " out of bounds for length " ++ toString length
  | unknownModule name => "Unknown native module '" ++ name ++ "'"
  | unknownNativeFunction moduleName name =>
    "Native module '" ++ moduleName ++ "' has no function '" ++ name ++ "'"
  | noMatchingOverload moduleName name =>
    "No overload of '" ++ moduleName ++ "." ++ name ++ "' accepts the given arguments"
  | ambiguousOverload moduleName name candidates =>
    "Call to '" ++ moduleName ++ "." ++ name ++ "' is ambiguous between " ++
      toString candidates ++ " overloads"
  | nativeFailure moduleName name message =>
    "Native function '" ++ moduleName ++ "." ++ name ++ "' failed: " ++ message
  | illegalControlFlow jump => "'" ++ jump.word ++ "' is not allowed here"
  | callDepthExceeded limit => "Maximum call depth of " ++ toString limit ++ " exceeded"
  | testFailed name => "Test '" ++ name ++ "' failed"

end Scriptlet
