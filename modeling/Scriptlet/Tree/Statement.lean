import Scriptlet.Tree.Expr

/-!
# Statements and declarations
-/

namespace Scriptlet

/-- What a declared function is. -/
inductive FunctionKind where
  | function | prefixOperator | infixOperator | method | constructor
  deriving DecidableEq, Repr

/-- The name of a kind of function. -/
def FunctionKind.name : FunctionKind → String
  | function => "Function"
  | prefixOperator => "Prefix"
  | infixOperator => "Infix"
  | method => "Method"
  | constructor => "Constructor"

/-- Who may touch a field. -/
inductive Visibility where
  | everyone | ownClass
  deriving DecidableEq, Repr, Inhabited

/-- The name of a visibility. -/
def Visibility.name : Visibility → String
  | everyone => "Public"
  | ownClass => "Private"

/-- A statement that leaves the one it stands in. -/
inductive Jump where
  | breaking | continuing | returning
  deriving DecidableEq, Repr

/-- The word that jumps. -/
def Jump.word : Jump → String
  | breaking => "break"
  | continuing => "continue"
  | returning => "return"

/-- A declared parameter. -/
structure Parameter where
  name : String
  location : Location
  deriving DecidableEq, Repr

/-- A declared field. -/
structure FieldDecl where
  name : String
  visibility : Visibility
  isFinal : Bool
  initial : Option Expr
  location : Location
  deriving Repr

/-- The class a class declaration builds on. -/
structure SuperclassRef where
  id : NodeId
  name : String
  location : Location
  deriving DecidableEq, Repr

mutual

/-- A statement. -/
inductive Statement where
  | expression (expr : Expr) (location : Location)
  | varDecl (name : String) (initial : Option Expr) (isFinal : Bool) (location : Location)
  | block (body : List Statement) (location : Location)
  | ifElse (condition : Expr) (thenBranch : Statement) (elseBranch : Option Statement)
      (location : Location)
  | whileLoop (condition : Expr) (body : Statement) (location : Location)
  | doWhile (body : Statement) (condition : Expr) (location : Location)
  | repeatLoop (count : Expr) (body : Statement) (location : Location)
  | function (decl : FunctionDecl)
  | classDecl (decl : ClassDecl)
  | returning (value : Option Expr) (location : Location)
  | breaking (location : Location)
  | continuing (location : Location)
  | print (expr : Expr) (location : Location)
  | test (name : String) (body : List Statement) (location : Location)
  | moduleDecl (name : String) (location : Location)
  | nativeFunction (moduleName name : String) (params : List Parameter) (location : Location)
  | extension (id : NodeId) (className : String) (function : FunctionDecl) (location : Location)

/-- A declared function, method or constructor. -/
structure FunctionDecl where
  name : String
  kind : FunctionKind
  params : List Parameter
  body : List Statement
  isFinal : Bool
  location : Location

/-- A declared class. -/
structure ClassDecl where
  name : String
  superclass : Option SuperclassRef
  fields : List FieldDecl
  methods : List FunctionDecl
  isFinal : Bool
  location : Location

end

instance : Inhabited Statement := ⟨.breaking .nowhere⟩

instance : Inhabited FunctionDecl := ⟨⟨"", .function, [], [], false, .nowhere⟩⟩

instance : Inhabited ClassDecl := ⟨⟨"", none, [], [], false, .nowhere⟩⟩

/-- The construct that opened a scope. -/
inductive ScopeTag where
  | globals
  | block (body : List Statement) (location : Location)
  | test (body : List Statement) (location : Location)
  | body (decl : FunctionDecl)
  | superOf (decl : ClassDecl)
  | thisOf (decl : ClassDecl)
  | extensionThis (id : NodeId) (decl : FunctionDecl)
  deriving Inhabited

/-- The name every constructor has. -/
def constructorName : String := "constructor"

/-- A whole script. -/
abbrev Program := List Statement

/-- Where a statement begins. -/
def Statement.location : Statement → Location
  | function decl => decl.location
  | classDecl decl => decl.location
  | expression _ location | varDecl _ _ _ location | block _ location
  | ifElse _ _ _ location | whileLoop _ _ location | doWhile _ _ location
  | repeatLoop _ _ location | returning _ location | breaking location
  | continuing location | print _ location | test _ _ location | moduleDecl _ location
  | nativeFunction _ _ _ location | extension _ _ _ location => location

end Scriptlet
