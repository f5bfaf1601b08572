import Scriptlet.Token.Basic

/-!
# Values

Numbers, texts and truth values are what they are; arrays, functions, classes,
objects and modules live in a store and a value holds a reference to them. Two
references are the same thing exactly when they are equal.
-/

namespace Scriptlet

/-- A reference to an array. -/
structure ArrayRef where
  index : Nat
  deriving DecidableEq, Repr

/-- A reference to a scope. -/
structure ScopeRef where
  index : Nat
  deriving DecidableEq, Repr, Inhabited

/-- A reference to a function with its closure. -/
structure FunctionRef where
  index : Nat
  deriving DecidableEq, Repr

/-- A reference to a class. Classes are numbered in the order of their making. -/
structure ClassRef where
  index : Nat
  deriving DecidableEq, Repr

/-- A reference to an object, an instance of a class. -/
structure ObjectRef where
  index : Nat
  deriving DecidableEq, Repr

/-- A reference to a native module. -/
structure ModuleRef where
  index : Nat
  deriving DecidableEq, Repr

/-- A function of a native module, as a script holds it: by names, and with the
number of arguments it was declared with, if it was declared. -/
structure NativeBinding where
  moduleName : String
  name : String
  arity : Option Nat
  deriving DecidableEq, Repr

/-- A value of a script. -/
inductive Value where
  | nil
  | bool (value : Bool)
  | number (value : Float)
  | string (value : String)
  | char (value : Char)
  | array (ref : ArrayRef)
  | function (ref : FunctionRef)
  | native (binding : NativeBinding)
  | classValue (ref : ClassRef)
  | object (ref : ObjectRef)
  | moduleValue (ref : ModuleRef)
  deriving Repr, Inhabited

/-- The types scripts tell apart. -/
inductive ValueType where
  | nil | boolean | number | string | char | array | function | nativeFunction
  | classType | instanceType | moduleType
  deriving DecidableEq, Repr

/-- The name of a type in messages. -/
def ValueType.name : ValueType → String
  | nil => "nil"
  | boolean => "boolean"
  | number => "number"
  | string => "string"
  | char => "char"
  | array => "array"
  | function => "function"
  | nativeFunction => "native function"
  | classType => "class"
  | instanceType => "instance"
  | moduleType => "module"

namespace Value

/-- The type of a value. -/
def type : Value → ValueType
  | nil => .nil
  | bool _ => .boolean
  | number _ => .number
  | string _ => .string
  | char _ => .char
  | array _ => .array
  | function _ => .function
  | native _ => .nativeFunction
  | classValue _ => .classType
  | object _ => .instanceType
  | moduleValue _ => .moduleType

/-- Everything but nil and false counts as true. -/
def isTruthy : Value → Bool
  | nil | bool false => false
  | _ => true

/-- The number a value is. -/
def number? : Value → Option Float
  | number value => some value
  | _ => none

/-- The truth value a value is. -/
def bool? : Value → Option Bool
  | bool value => some value
  | _ => none

/-- The text a value is. -/
def string? : Value → Option String
  | string value => some value
  | _ => none

/-- Equality of values: plain values and native functions by content, everything
else by identity. -/
def same : Value → Value → Bool
  | nil, nil => true
  | bool a, bool b => a == b
  | number a, number b => a == b
  | string a, string b => a == b
  | char a, char b => a == b
  | array a, array b => a == b
  | function a, function b => a == b
  | native a, native b => a == b
  | classValue a, classValue b => a == b
  | object a, object b => a == b
  | moduleValue a, moduleValue b => a == b
  | _, _ => false

/-- The value a literal writes out. -/
def ofLiteral : Literal → Value
  | .nil => nil
  | .bool value => bool value
  | .number value => number value
  | .string value => string value
  | .char value => char value

end Value

end Scriptlet
