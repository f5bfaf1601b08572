import Scriptlet.Tree.Statement

/-!
# Where constructors stand

A constructor is a member of a class: a function that is declared as a statement is none
(`Statement.isProper`).
-/

namespace Scriptlet

mutual

/-- No function inside of a statement is a constructor but for members of classes. -/
def Statement.isProper : Statement → Bool
  | .block body _ | .test _ body _ => Statement.areProper body
  | .ifElse _ thenBranch none _ => thenBranch.isProper
  | .ifElse _ thenBranch (some elseBranch) _ => thenBranch.isProper && elseBranch.isProper
  | .whileLoop _ body _ | .doWhile body _ _ | .repeatLoop _ body _ => body.isProper
  | .function decl => decl.kind != .constructor && decl.isProper
  | .extension _ _ decl _ => decl.isProper
  | .classDecl decl => decl.isProper
  | .expression .. | .varDecl .. | .returning .. | .breaking _ | .continuing _ | .print ..
  | .moduleDecl .. | .nativeFunction .. => true

/-- The body of a function is proper. -/
def FunctionDecl.isProper : FunctionDecl → Bool
  | ⟨_, _, _, body, _, _⟩ => Statement.areProper body

/-- The members of a class are proper. -/
def ClassDecl.isProper : ClassDecl → Bool
  | ⟨_, _, _, methods, _, _⟩ => FunctionDecl.areProper methods

/-- Every statement is proper. -/
def Statement.areProper : List Statement → Bool
  | [] => true
  | statement :: rest => statement.isProper && Statement.areProper rest

/-- The body of every function is proper. -/
def FunctionDecl.areProper : List FunctionDecl → Bool
  | [] => true
  | decl :: rest => decl.isProper && FunctionDecl.areProper rest

end

/-- A function is proper if the statements of its body are. -/
theorem FunctionDecl.isProper_eq (decl : FunctionDecl) :
    decl.isProper = Statement.areProper decl.body := by
  cases decl
  rfl

/-- A class is proper if its methods are. -/
theorem ClassDecl.isProper_eq (decl : ClassDecl) :
    decl.isProper = FunctionDecl.areProper decl.methods := by
  cases decl
  rfl

/-- Each of some proper functions is proper. -/
theorem FunctionDecl.isProper_of_mem {decl : FunctionDecl} {decls : List FunctionDecl}
    (proper : areProper decls = true) (member : decl ∈ decls) : decl.isProper = true := by
  induction decls with
  | nil => cases member
  | cons first rest ih =>
      rw [areProper, Bool.and_eq_true] at proper
      rcases List.mem_cons.mp member with rfl | later
      · exact proper.1
      · exact ih proper.2 later

end Scriptlet
