import Scriptlet.Tree.Statement

/-!
# Faults of a parse
-/

namespace Scriptlet

/-- Why tokens do not form a program. -/
inductive ParseFault where
  | expectedExpression (found : String)
  | expectedToken (expected found : String)
  | invalidAssignmentTarget
  | tooManyArguments (limit : Nat)
  | tooManyParameters (limit : Nat)
  | operatorArity (kind : FunctionKind) (expected found : Nat)
  | invalidClassMember (found : String)
  deriving DecidableEq, Repr

/-- The word for a kind of function in messages. -/
def FunctionKind.word : FunctionKind → String
  | function => "function"
  | prefixOperator => "prefix"
  | infixOperator => "infix"
  | method => "method"
  | constructor => "constructor"

/-- The short name of a parse fault. -/
def ParseFault.name : ParseFault → String
  | expectedExpression _ => "ExpectedExpression"
  | expectedToken _ _ => "ExpectedToken"
  | invalidAssignmentTarget => "InvalidAssignmentTarget"
  | tooManyArguments _ => "TooManyArguments"
  | tooManyParameters _ => "TooManyParameters"
  | operatorArity _ _ _ => "OperatorArity"
  | invalidClassMember _ => "InvalidClassMember"

/-- The wording of a parse fault. -/
def ParseFault.message : ParseFault → String
  | expectedExpression found => "Expected expression, found '" ++ found ++ "'"
  | expectedToken expected found => "Expected " ++ expected ++ ", found '" ++ found ++ "'"
  | invalidAssignmentTarget => "Invalid assignment target"
  | tooManyArguments limit => "Cannot have more than " ++ toString limit ++ " arguments"
  | tooManyParameters limit => "Cannot have more than " ++ toString limit ++ " parameters"
  | operatorArity kind expected found =>
    "A " ++ kind.word ++ " function must declare exactly " ++ toString expected ++
      " parameter(s), found " ++ toString found
  | invalidClassMember found =>
    "Expected field, method or constructor in class body, found '" ++ found ++ "'"

end Scriptlet
