import Scriptlet.Token.Basic
import Scriptlet.Tree.Operator

/-!
# Expressions

Every node that mentions a name carries a number of its own, under which the
static analysis records how many scopes out the name lives.
-/

namespace Scriptlet

/-- The number of a node that mentions a name. -/
abbrev NodeId := Nat

/-- An expression. -/
inductive Expr where
  | literal (value : Literal) (location : Location)
  | array (elements : List Expr) (location : Location)
  | var (id : NodeId) (name : String) (location : Location)
  | assign (id : NodeId) (name : String) (value : Expr) (location : Location)
  | binary (op : BinaryOp) (left right : Expr) (location : Location)
  | logical (op : LogicalOp) (left right : Expr) (location : Location)
  | bitwise (op : BitwiseOp) (left right : Expr) (location : Location)
  | unary (op : UnaryOp) (operand : Expr) (location : Location)
  | prefixCall (id : NodeId) (name : String) (operand : Expr) (location : Location)
  | infixCall (id : NodeId) (name : String) (left right : Expr) (location : Location)
  | ternary (condition thenBranch elseBranch : Expr) (location : Location)
  | elvis (value fallback : Expr) (location : Location)
  | call (callee : Expr) (arguments : List Expr) (location : Location)
  | get (object : Expr) (name : String) (location : Location)
  | set (object : Expr) (name : String) (value : Expr) (location : Location)
  | getIndex (array index : Expr) (location : Location)
  | setIndex (array index value : Expr) (location : Location)
  | grouping (inner : Expr) (location : Location)
  | thisRef (id : NodeId) (location : Location)
  | superRef (id : NodeId) (method : String) (location : Location)
  deriving Repr, Inhabited

/-- Where an expression points at in the source. -/
def Expr.location : Expr → Location
  | literal _ location | array _ location | var _ _ location | assign _ _ _ location
  | binary _ _ _ location | logical _ _ _ location | bitwise _ _ _ location
  | unary _ _ location | prefixCall _ _ _ location | infixCall _ _ _ _ location
  | ternary _ _ _ location | elvis _ _ location | call _ _ location | get _ _ location
  | set _ _ _ location | getIndex _ _ location | setIndex _ _ _ location
  | grouping _ location | thisRef _ location | superRef _ _ location => location

end Scriptlet
