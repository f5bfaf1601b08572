import Scriptlet.Proofs.Resolution.StatementWalk

/-!
# The analysis of code covers its parts

`Resolve.Covers changes step part` says that the analysis of some code, if it passes, has
gone through a part of it on its own, in scopes that differ from those of the whole by the
listed changes at most.
-/

namespace Scriptlet

namespace Resolve

variable {α β : Type} {changes : List (String × Bool)} {step : Resolve α} {part : Resolve Unit}

/-- A step that passes has gone through a part of it, in scopes with at most the listed
changes. -/
def Covers (changes : List (String × Bool)) (step : Resolve α) (part : Resolve Unit) : Prop :=
  ∀ (before : Analysis) (value : α) (after : Analysis), step before = .ok value after →
    ∃ nodes start stop, before.Later nodes changes start ∧ part start = .ok () stop ∧
      stop.Precedes after

namespace Covers

private theorem self : Covers changes part part :=
  fun before _ after passed => ⟨[], before, after, .refl before, passed, .refl after⟩

/-- The part is in the first of two steps. -/
theorem first {next : α → Resolve β} {nodes : List NodeId} {others : List (String × Bool)}
    (covers : Covers changes step part) (rest : ∀ value, Steps nodes others (next value)) :
    Covers changes (step >>= next) part := by
  intro before value after passed
  obtain ⟨result, middle, stepped, passedNext⟩ := bind_eq_ok.mp passed
  obtain ⟨visited, start, stop, later, reached, precedes⟩ := covers before result middle stepped
  exact ⟨visited, start, stop, later, reached,
    precedes.trans (rest result middle value after passedNext).precedes⟩

/-- The part is in the second of two steps. -/
theorem second {next : α → Resolve β} {nodes : List NodeId} (steps : Steps nodes changes step)
    (covers : ∀ value, Covers changes (next value) part) : Covers changes (step >>= next) part := by
  intro before value after passed
  obtain ⟨result, middle, stepped, passedNext⟩ := bind_eq_ok.mp passed
  obtain ⟨visited, start, stop, later, reached, precedes⟩ :=
    covers result middle value after passedNext
  exact ⟨nodes ++ visited, start, stop, (steps before result middle stepped).trans later, reached,
    precedes⟩

/-- The part is in an expression that was noted before. -/
theorem noted {expr : Expr} {next : Unit → Resolve β} (covers : Covers changes (next ()) part) :
    Covers changes (Resolve.noteExpr expr >>= next) part :=
  second (.noteExpr expr) fun _ => covers

/-- The analysis of expressions covers each of them. -/
protected theorem expressions {exprs : List Expr} {expr : Expr} (member : expr ∈ exprs) :
    Covers [] (Resolve.expressions exprs) (Resolve.expression expr) := by
  induction exprs with
  | nil => cases member
  | cons head rest ih =>
      rcases List.mem_cons.mp member with rfl | later
      · exact first self fun _ => .expressions rest
      · exact second (.expression head) fun _ => ih later

/-- The analysis of two expressions covers both. -/
private theorem pair {left right expr : Expr} (member : expr ∈ [left, right]) :
    Covers [] (Resolve.expression left >>= fun _ => Resolve.expression right)
      (Resolve.expression expr) := by
  rcases (by simpa using member : expr = left ∨ expr = right) with rfl | rfl
  · exact first self fun _ => .expression right
  · exact second (.expression left) fun _ => self

/-- The analysis of three expressions covers all. -/
private theorem triple {left middle right expr : Expr} (member : expr ∈ [left, middle, right]) :
    Covers [] (Resolve.expression left >>= fun _ => Resolve.expression middle >>= fun _ =>
      Resolve.expression right) (Resolve.expression expr) := by
  rcases List.mem_cons.mp member with rfl | later
  · exact first self fun _ => .bind (.expression middle) fun _ => .expression right
  · exact second (.expression left) fun _ => pair later

/-- The analysis of an expression covers its parts. -/
theorem parts {expr inner : Expr} (member : inner ∈ expr.parts) :
    Covers [] (Resolve.expression expr) (Resolve.expression inner) := by
  cases expr with
  | literal | var | thisRef | superRef => cases member
  | array elements location => exact noted (.expressions member)
  | assign id name value location =>
      obtain rfl := List.mem_singleton.mp member
      exact noted (first self fun _ => .assignName id name location)
  | binary op left right location => exact noted (pair member)
  | logical op left right location => exact noted (pair member)
  | bitwise op left right location => exact noted (pair member)
  | elvis left right location => exact noted (pair member)
  | getIndex left right location => exact noted (pair member)
  | unary op operand location =>
      obtain rfl := List.mem_singleton.mp member
      exact noted self
  | grouping operand location =>
      obtain rfl := List.mem_singleton.mp member
      exact noted self
  | prefixCall id name operand location =>
      obtain rfl := List.mem_singleton.mp member
      exact noted (second (.resolveName id name) fun _ => self)
  | infixCall id name left right location =>
      exact noted (second (.resolveName id name) fun _ => pair member)
  | ternary condition thenBranch elseBranch location => exact noted (triple member)
  | call callee arguments location =>
      rcases List.mem_cons.mp member with rfl | later
      · exact noted (first self fun _ => .expressions arguments)
      · exact noted (second (.expression callee) fun _ => .expressions later)
  | get object name location =>
      obtain rfl := List.mem_singleton.mp member
      have checked : Steps [] [] (Resolve.checkField inner name location false) :=
        .checkField inner name location false
      exact noted (first self fun _ => checked)
  | set object name value location =>
      have checked : Steps [] [] (Resolve.checkField object name location true) :=
        .checkField object name location true
      rcases (by simpa [Expr.parts] using member : inner = object ∨ inner = value) with rfl | rfl
      · exact noted (second (.expression value) fun _ => first self fun _ => checked)
      · exact noted (first self fun _ => .bind (.expression object) fun _ => checked)
  | setIndex target index value location => exact noted (triple member)

/-- The analysis of a statement covers the expressions it evaluates. -/
theorem values {statement : Statement} {expr : Expr} (member : expr ∈ statement.values) :
    Covers [] (Resolve.statement statement) (Resolve.expression expr) := by
  cases statement with
  | expression inner location =>
      obtain rfl := List.mem_singleton.mp member
      exact self
  | print inner location =>
      obtain rfl := List.mem_singleton.mp member
      exact self
  | ifElse condition thenBranch elseBranch location =>
      obtain rfl := List.mem_singleton.mp member
      cases elseBranch with
      | none => exact first self fun _ => .statement thenBranch
      | some elseBranch =>
          have both : Steps _ (thenBranch.binds ++ elseBranch.binds)
              (Resolve.statement thenBranch >>= fun _ => Resolve.statement elseBranch) :=
            .bind ((Steps.statement thenBranch).mono (List.subset_append_left _ _)) fun _ =>
              (Steps.statement elseBranch).mono (List.subset_append_right _ _)
          exact first self fun _ => both
  | returning value location =>
      cases value with
      | none => cases member
      | some value =>
          obtain rfl := List.mem_singleton.mp member
          exact second (.checkReturn _ _) fun _ => self
  | _ => cases member

/-- The analysis of a condition covers the statements it chooses from. -/
theorem branches {statement branch : Statement} (member : branch ∈ statement.branches) :
    Covers statement.binds (Resolve.statement statement) (Resolve.statement branch) := by
  cases statement with
  | ifElse condition thenBranch elseBranch location =>
      have tested {changes : List (String × Bool)} :
          Steps condition.nodes changes (Resolve.expression condition) :=
        (Steps.expression condition).quiet
      cases elseBranch with
      | none =>
          obtain rfl : branch = thenBranch := by simpa [Statement.branches] using member
          exact second tested fun _ => self
      | some elseBranch =>
          rcases (by simpa [Statement.branches] using member :
            branch = thenBranch ∨ branch = elseBranch) with rfl | rfl
          · exact second tested fun _ => first self fun _ => .statement elseBranch
          · have chosen : Steps thenBranch.nodes
                (Statement.ifElse condition thenBranch (some branch) location).binds
                (Resolve.statement thenBranch) :=
              (Steps.statement thenBranch).mono (by simp [Statement.binds])
            exact second tested fun _ => second chosen fun _ => self
  | _ => cases member

/-- The analysis of fields covers the initial value of each. -/
protected theorem fieldInitials {fields : List FieldDecl} {field : FieldDecl} {expr : Expr}
    (member : field ∈ fields) (initial : field.initial = some expr) :
    Covers [] (Resolve.fieldInitials fields) (Resolve.expression expr) := by
  induction fields with
  | nil => cases member
  | cons head rest ih =>
      rcases List.mem_cons.mp member with rfl | later
      · refine first ?_ fun _ => .fieldInitials rest
        rw [initial]
        exact self
      · exact second (.optional _) fun _ => ih later

/-- The analysis of methods covers each of them. -/
protected theorem methods {methods : List FunctionDecl} {method : FunctionDecl}
    (member : method ∈ methods) :
    Covers [] (Resolve.methods methods)
      (Resolve.function (methodContext method.kind) method) := by
  induction methods with
  | nil => cases member
  | cons head rest ih =>
      rcases List.mem_cons.mp member with rfl | later
      · exact first self fun _ => .methods rest
      · exact second (.function _ head) fun _ => ih later

end Covers

/-- A declaration gives its name a value. -/
theorem flags_of_declares {statement : Statement} {name : String} {hoisted : Hoisted}
    {before after : Analysis} {done : Unit}
    (passed : Resolve.statement statement before = .ok done after)
    (declared : statement.declares? = some (name, hoisted)) (nonempty : before.scopes ≠ []) :
    after.flags name = some (true, hoisted.isFinal) := by
  cases statement with
  | varDecl key initial isFinal location =>
      cases declared
      exact (varDecl_eq_ok passed).2.1 nonempty
  | function decl =>
      cases declared
      obtain ⟨middle, _, flagged, rest⟩ := introduce_eq_ok passed
      rw [(Steps.function .function decl _ _ _ rest).flags_eq]
      exact flagged nonempty
  | classDecl decl =>
      cases declared
      rw [Resolve.statement, classDecl_eq] at passed
      obtain ⟨facts, middle, head, rest⟩ := bind_eq_ok.mp passed
      obtain ⟨first, known, second, _, flagged, built, _, later⟩ := classHead_eq_ok head
      have looked : first.Later _ [] second := Steps.declaredSuperclass decl _ _ _ built
      have inside := (Steps.inClass _ _ (.deferred (.classScopes decl
        (.bind (.fieldInitials decl.fields) fun _ => .methods decl.methods)))) _ _ _ rest
      rw [inside.flags_eq, later.flags_eq, looked.flags_eq]
      exact flagged nonempty
  | moduleDecl key location =>
      cases declared
      exact (introduced_eq_ok passed).2 nonempty
  | nativeFunction moduleName key params location =>
      cases declared
      exact (introduced_eq_ok passed).2 nonempty
  | _ => cases declared

end Resolve

end Scriptlet
