import Scriptlet.Tree.Statement

/-!
# Faults the static analysis finds
-/

namespace Scriptlet

/-- What a declared name stands for. -/
inductive DeclarationKind where
  | varKind | funKind | classKind | parameterKind | moduleKind
  deriving DecidableEq, Repr

/-- The word for a kind of declaration. -/
def DeclarationKind.word : DeclarationKind → String
  | varKind => "variable"
  | funKind => "function"
  | classKind => "class"
  | parameterKind => "parameter"
  | moduleKind => "module"

/-- Why a program is refused before it runs. -/
inductive ResolveFault where
  | finalReassignment (kind : DeclarationKind) (name : String)
  | finalRedeclaration (kind : DeclarationKind) (name : String)
  | finalInheritance (className superclass : String)
  | finalExtension (className : String)
  | finalOverride (className method : String)
  | finalFieldReassignment (name : String)
  | privateAccess (className name : String)
  | selfInheritance (className : String)
  | readInOwnInitializer (name : String)
  | useBeforeDeclaration (name : String)
  | illegalControlFlow (jump : Jump)
  | returnFromConstructor
  | thisOutsideClass
  | superOutsideSubclass
  deriving DecidableEq, Repr

/-- The construct a jump needs around it. -/
def Jump.place : Jump → String
  | breaking | continuing => "loop"
  | returning => "function"

/-- The short name of a fault of the static analysis. -/
def ResolveFault.name : ResolveFault → String
  | finalReassignment _ _ => "FinalReassignment"
  | finalRedeclaration _ _ => "FinalRedeclaration"
  | finalInheritance _ _ => "FinalInheritance"
  | finalExtension _ => "FinalExtension"
  | finalOverride _ _ => "FinalOverride"
  | finalFieldReassignment _ => "FinalFieldReassignment"
  | privateAccess _ _ => "PrivateAccess"
  | selfInheritance _ => "SelfInheritance"
  | readInOwnInitializer _ => "ReadInOwnInitializer"
  | useBeforeDeclaration _ => "UseBeforeDeclaration"
  | illegalControlFlow _ => "IllegalControlFlow"
  | returnFromConstructor => "ReturnFromConstructor"
  | thisOutsideClass => "ThisOutsideClass"
  | superOutsideSubclass => "SuperOutsideSubclass"

/-- The wording of a fault of the static analysis. -/
def ResolveFault.message : ResolveFault → String
  | finalReassignment kind name => "Cannot reassign final " ++ kind.word ++ " '" ++ name ++ "'"
  | finalRedeclaration kind name =>
    "Cannot redeclare final " ++ kind.word ++ " '" ++ name ++ "'"
  | finalInheritance className superclass =>
    "Class '" ++ className ++ "' cannot extend final class '" ++ superclass ++ "'"
  | finalExtension className =>
    "Cannot add extension methods to final class '" ++ className ++ "'"
  | finalOverride className method =>
    "Class '" ++ className ++ "' cannot override final method '" ++ method ++ "'"
  | finalFieldReassignment name => "Cannot reassign final property '" ++ name ++ "'"
  | privateAccess className name =>
    "Cannot access private property '" ++ name ++ "' of class '" ++ className ++
      "' outside its class"
  | selfInheritance className => "Class '" ++ className ++ "' cannot extend itself"
  | readInOwnInitializer name =>
    "Cannot read local variable '" ++ name ++ "' in its own initializer"
  | useBeforeDeclaration name => "Cannot use '" ++ name ++ "' before its declaration"
  | illegalControlFlow jump => "'" ++ jump.word ++ "' used outside of a " ++ jump.place
  | returnFromConstructor => "Cannot return a value from a constructor"
  | thisOutsideClass => "Cannot use 'this' outside of a class"
  | superOutsideSubclass => "Cannot use 'super' outside of a class with a superclass"

end Scriptlet
