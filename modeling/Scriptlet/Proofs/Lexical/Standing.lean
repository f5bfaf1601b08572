import Scriptlet.Proofs.Lexical.Binding

/-!
# Where code stands

`Stands program scopes code` says that the code is written in the program inside of
these scopes, innermost first (`Stands`). Of each scope it is said which names are certainly
bound when the code runs and which are perhaps bound for good (`LexicalScope`). The body
of a function runs later, when the scopes around it may bind more names: such scopes are
deferred. The statements of a scope are those before the code, the one the code is in,
and those after it (`Stands.continues`).
-/

namespace Scriptlet

/-- A piece of a program. -/
inductive Code where
  | expression (expr : Expr)
  | statement (statement : Statement)
  | statements (statements : List Statement)

/-- The names that are bound for good, of some that are bound. -/
def finalsOf (changes : List (String × Bool)) : List String :=
  (changes.filter (·.2)).map (·.1)

/-- The names bound for good are those that are bound so. -/
@[simp] theorem mem_finalsOf {changes : List (String × Bool)} {name : String} :
    name ∈ finalsOf changes ↔ (name, true) ∈ changes := by
  simp [finalsOf]

/-- A scope around some code, as it is when the code runs: the construct that opened
it, its statements that come before the one the code is in, the names it has certainly
declared, each with whether that is for good, the names it perhaps binds for good unless
it is deferred, and the variable whose initial value the code is part of. -/
structure LexicalScope where
  tag : ScopeTag
  earlier : List Statement
  declared : List (String × Bool)
  finals : List String
  pending : Option String
  deferred : Bool

namespace LexicalScope

/-- The names a scope certainly binds. -/
def bound (scope : LexicalScope) : List String :=
  scope.declared.map (·.1)

/-- A scope when it is opened. -/
def opened (tag : ScopeTag) : LexicalScope :=
  ⟨tag, [], tag.implicit, finalsOf tag.implicit, none, false⟩

/-- The globals when a program begins to run. An earlier run may have left final
bindings. -/
def globals (program : Program) : LexicalScope :=
  ⟨.globals, [], [], finalsOf (ScopeTag.globals.binds program), none, false⟩

/-- A scope when a declaration is done. -/
def bind (scope : LexicalScope) (name : String) (isFinal : Bool) : LexicalScope :=
  { scope with
    declared := (name, isFinal) :: scope.declared
    finals := if isFinal then name :: scope.finals else scope.finals.filter (· ≠ name) }

/-- A scope when some names may have been bound. -/
def loosen (scope : LexicalScope) (changes : List (String × Bool)) : LexicalScope :=
  { scope with finals := scope.finals ++ finalsOf changes }

/-- A scope when a statement that runs in it has ended normally. -/
def settle (scope : LexicalScope) (statement : Statement) : LexicalScope :=
  match statement.declares? with
  | some (name, hoisted) => scope.bind name hoisted.isFinal
  | none => scope.loosen statement.binds

/-- A scope when one of its own statements has ended normally. -/
def after (scope : LexicalScope) (statement : Statement) : LexicalScope :=
  { scope.settle statement with earlier := scope.earlier ++ [statement] }

/-- A scope around code that runs later. -/
def defer (scope : LexicalScope) : LexicalScope :=
  { scope with pending := none, deferred := true }

/-- A scope in which names may have been bound was opened by the same construct. -/
@[simp] theorem tag_loosen (scope : LexicalScope) (changes : List (String × Bool)) :
    (scope.loosen changes).tag = scope.tag := rfl

/-- A scope after a statement was opened by the same construct. -/
@[simp] theorem tag_after (scope : LexicalScope) (statement : Statement) :
    (scope.after statement).tag = scope.tag := by
  unfold after settle
  split <;> rfl

/-- A statement leaves the variable that waits for its initial value the same. -/
@[simp] theorem pending_after (scope : LexicalScope) (statement : Statement) :
    (scope.after statement).pending = scope.pending := by
  unfold after settle
  split <;> rfl

/-- A statement leaves a scope deferred if it was. -/
@[simp] theorem deferred_after (scope : LexicalScope) (statement : Statement) :
    (scope.after statement).deferred = scope.deferred := by
  unfold after settle
  split <;> rfl

/-- What a scope has declared stays declared. -/
theorem declared_subset_after (scope : LexicalScope) (statement : Statement) :
    scope.declared ⊆ (scope.after statement).declared := by
  unfold after settle
  split
  · exact List.subset_cons_self _ _
  · exact List.Subset.refl _

/-- A scope has declared what a declaration in it declares. -/
theorem mem_declared_after (scope : LexicalScope) {statement : Statement} {name : String}
    {hoisted : Hoisted} (declares : statement.declares? = some (name, hoisted)) :
    (name, hoisted.isFinal) ∈ (scope.after statement).declared := by
  unfold after settle
  rw [declares]
  exact List.mem_cons_self ..

/-- The statements of a scope are those that come before some code and some others. What
the construct holds by itself and what the statements before declare has been declared. -/
structure Continues (program : Program) (scope : LexicalScope) (rest : List Statement) : Prop where
  statements : scope.tag.statements program = scope.earlier ++ rest
  implicit : scope.tag.implicit ⊆ scope.declared
  earlier : ∀ statement ∈ scope.earlier, ∀ name hoisted,
    statement.declares? = some (name, hoisted) → (name, hoisted.isFinal) ∈ scope.declared

/-- A scope around code that has a scope of its own. If a declaration of the scope has the
code in it, then it has been made. -/
def Surrounds (program : Program) (scope : LexicalScope) : Prop :=
  ∃ rest, scope.Continues program rest ∧ ∀ statement ∈ rest.head?, ∀ name hoisted,
    statement.declares? = some (name, hoisted) → (name, hoisted.isFinal) ∈ scope.declared

/-- A statement that comes after the one some code is in declares a name for good. -/
def DeclaresLater (program : Program) (scope : LexicalScope) (name : String) : Prop :=
  ∃ statement later, scope.tag.statements program = scope.earlier ++ statement :: later ∧
    ∃ declaration ∈ later, ∃ hoisted, declaration.declares? = some (name, hoisted) ∧
      hoisted.isFinal = true

/-- A name that is not yet declared for good is declared so later, or only perhaps. -/
theorem Surrounds.declaresLater {program : Program} {scope : LexicalScope} {name : String}
    (surrounds : scope.Surrounds program) (binds : (name, true) ∈ scope.tag.binds program)
    (undeclared : (name, true) ∉ scope.declared) :
    scope.tag.LooselyBinds program (name, true) ∨ scope.DeclaresLater program name := by
  obtain ⟨rest, continues, made⟩ := surrounds
  rcases List.mem_append.mp binds with implicit | written
  · exact absurd (continues.implicit implicit) undeclared
  · obtain ⟨statement, member, bound⟩ := List.mem_flatMap.mp written
    cases declares : statement.declares? with
    | none => exact .inl ⟨statement, member, declares, bound⟩
    | some entry =>
        obtain ⟨key, hoisted⟩ := entry
        rw [Statement.binds_of_declares declares] at bound
        obtain ⟨rfl, final⟩ : name = key ∧ true = hoisted.isFinal := by simpa using bound
        rw [final] at undeclared
        have statements := continues.statements
        rw [statements] at member
        rcases List.mem_append.mp member with before | behind
        · exact absurd (continues.earlier statement before name hoisted declares) undeclared
        · cases rest with
          | nil => cases behind
          | cons around later =>
              rcases List.mem_cons.mp behind with rfl | last
              · exact absurd (made statement rfl name hoisted declares) undeclared
              · exact .inr ⟨around, later, statements, statement, last, hoisted, declares,
                  final.symm⟩

/-- A scope when its first statement that is left has ended normally. -/
theorem Continues.after {program : Program} {scope : LexicalScope} {statement : Statement}
    {rest : List Statement} (continues : scope.Continues program (statement :: rest)) :
    (scope.after statement).Continues program rest := by
  have grows := scope.declared_subset_after statement
  refine ⟨?_, ?_, fun listed member name hoisted declares => ?_⟩
  · rw [tag_after, continues.statements]
    exact (List.append_assoc scope.earlier [statement] rest).symm
  · rw [tag_after]
    exact List.Subset.trans continues.implicit grows
  · rcases List.mem_append.mp member with before | last
    · exact grows (continues.earlier listed before name hoisted declares)
    · obtain rfl := List.mem_singleton.mp last
      exact scope.mem_declared_after declares

end LexicalScope

/-- The scopes the code of a class closes over. -/
def classClosureScopes (decl : ClassDecl) (outer : List LexicalScope) : List LexicalScope :=
  if decl.superclass.isSome then .opened (.superOf decl) :: outer else outer

/-- Code of a program and the scopes it stands in, innermost first. -/
inductive Stands (program : Program) : List LexicalScope → Code → Prop where
  | program : Stands program [.globals program] (.statements program)
  | first {scopes : List LexicalScope} {statement : Statement} {rest : List Statement} :
      Stands program scopes (.statements (statement :: rest)) →
      Stands program scopes (.statement statement)
  | rest {scope : LexicalScope} {outer : List LexicalScope} {statement : Statement}
      {rest : List Statement} :
      Stands program (scope :: outer) (.statements (statement :: rest)) →
      Stands program (scope.after statement :: outer) (.statements rest)
  | value {scopes : List LexicalScope} {statement : Statement} {expr : Expr} :
      Stands program scopes (.statement statement) → expr ∈ statement.values →
      Stands program scopes (.expression expr)
  | initial {scope : LexicalScope} {outer : List LexicalScope} {name : String} {expr : Expr}
      {isFinal : Bool} {location : Location} :
      Stands program (scope :: outer) (.statement (.varDecl name (some expr) isFinal location)) →
      Stands program ({ scope with pending := some name } :: outer) (.expression expr)
  | branch {scopes : List LexicalScope} {statement branch : Statement} :
      Stands program scopes (.statement statement) → branch ∈ statement.branches →
      Stands program scopes (.statement branch)
  | condition {scope : LexicalScope} {outer : List LexicalScope} {statement body : Statement}
      {expr : Expr} :
      Stands program (scope :: outer) (.statement statement) →
      statement.loop? = some (expr, body) →
      Stands program (scope.loosen body.binds :: outer) (.expression expr)
  | loopBody {scope : LexicalScope} {outer : List LexicalScope} {statement body : Statement}
      {expr : Expr} :
      Stands program (scope :: outer) (.statement statement) →
      statement.loop? = some (expr, body) →
      Stands program (scope.loosen body.binds :: outer) (.statement body)
  | opened {scopes : List LexicalScope} {statement : Statement} {tag : ScopeTag}
      {inside : List Statement} :
      Stands program scopes (.statement statement) → statement.opens? = some (tag, inside) →
      Stands program (.opened tag :: scopes) (.statements inside)
  | function {scope : LexicalScope} {outer : List LexicalScope} {decl : FunctionDecl} :
      Stands program (scope :: outer) (.statement (.function decl)) →
      Stands program
        (.opened (.body decl) :: (scope.bind decl.name decl.isFinal :: outer).map (·.defer))
        (.statements decl.body)
  | field {scope : LexicalScope} {outer : List LexicalScope} {decl : ClassDecl}
      {field : FieldDecl} {expr : Expr} :
      Stands program (scope :: outer) (.statement (.classDecl decl)) →
      field ∈ decl.fields → field.initial = some expr →
      Stands program
        (.opened (.thisOf decl) ::
          (classClosureScopes decl (scope.bind decl.name decl.isFinal :: outer)).map (·.defer))
        (.expression expr)
  | method {scope : LexicalScope} {outer : List LexicalScope} {decl : ClassDecl}
      {method : FunctionDecl} :
      Stands program (scope :: outer) (.statement (.classDecl decl)) →
      method ∈ decl.methods →
      Stands program
        (.opened (.body method) ::
          (.opened (.thisOf decl) ::
            classClosureScopes decl (scope.bind decl.name decl.isFinal :: outer)).map (·.defer))
        (.statements method.body)
  | extension {scopes : List LexicalScope} {id : NodeId} {className : String}
      {decl : FunctionDecl} {location : Location} :
      Stands program scopes (.statement (.extension id className decl location)) →
      Stands program
        (.opened (.body decl) :: (.opened (.extensionThis id decl) :: scopes).map (·.defer))
        (.statements decl.body)
  | part {scopes : List LexicalScope} {expr part : Expr} :
      Stands program scopes (.expression expr) → part ∈ expr.parts →
      Stands program scopes (.expression part)

namespace Stands

variable {program : Program}

/-- Code stands in some scope. -/
theorem ne_nil {scopes : List LexicalScope} {code : Code} (stands : Stands program scopes code) :
    scopes ≠ [] := by
  induction stands with
  | first _ ih | value _ _ ih | branch _ _ ih | part _ _ ih => exact ih
  | _ => exact List.cons_ne_nil _ _

/-- No scope waits for an initial value. -/
def Settled (scopes : List LexicalScope) : Prop :=
  ∀ scope ∈ scopes, scope.pending = none

/-- No scope waits for an initial value if neither the innermost one nor those around it do. -/
theorem Settled.cons {scope : LexicalScope} {outer : List LexicalScope}
    (inner : scope.pending = none) (around : Settled outer) : Settled (scope :: outer) :=
  List.forall_mem_cons.mpr ⟨inner, around⟩

/-- No scope around code that runs later waits for an initial value. -/
theorem Settled.defer (scopes : List LexicalScope) : Settled (scopes.map (·.defer)) := by
  intro scope member
  obtain ⟨_, _, rfl⟩ := List.mem_map.mp member
  rfl

/-- Only an expression can be part of an initial value, and only of a variable of its
innermost scope. -/
theorem settled {scopes : List LexicalScope} {code : Code} (stands : Stands program scopes code) :
    Settled scopes.tail ∧ ((∀ expr, code ≠ .expression expr) → Settled scopes) := by
  induction stands with
  | program => exact ⟨nofun, fun _ => .cons rfl nofun⟩
  | first _ ih => exact ⟨ih.1, fun _ => ih.2 nofun⟩
  | @rest scope outer statement rest _ ih =>
      obtain ⟨inner, around⟩ := List.forall_mem_cons.mp (ih.2 nofun)
      exact ⟨around, fun _ => .cons ((scope.pending_after statement).trans inner) around⟩
  | value _ _ ih => exact ⟨ih.1, fun other => absurd rfl (other _)⟩
  | initial _ ih => exact ⟨ih.1, fun other => absurd rfl (other _)⟩
  | branch _ _ ih => exact ⟨ih.1, fun _ => ih.2 nofun⟩
  | condition _ _ ih => exact ⟨ih.1, fun other => absurd rfl (other _)⟩
  | loopBody _ _ ih =>
      obtain ⟨inner, around⟩ := List.forall_mem_cons.mp (ih.2 nofun)
      exact ⟨around, fun _ => .cons inner around⟩
  | opened _ _ ih =>
      have around := ih.2 nofun
      exact ⟨around, fun _ => .cons rfl around⟩
  | function => exact ⟨.defer _, fun _ => .cons rfl (.defer _)⟩
  | field => exact ⟨.defer _, fun _ => .cons rfl (.defer _)⟩
  | method => exact ⟨.defer _, fun _ => .cons rfl (.defer _)⟩
  | extension => exact ⟨.defer _, fun _ => .cons rfl (.defer _)⟩
  | part _ _ ih => exact ⟨ih.1, fun other => absurd rfl (other _)⟩

/-- A piece of code is written directly in the list of its scope, or whatever it declares
is declared only perhaps. -/
def Placed (program : Program) (tag : ScopeTag) : Code → Prop
  | .expression _ => True
  | .statement single => single ∈ tag.statements program ∨
      ∀ entry ∈ single.binds, tag.LooselyBinds program entry
  | .statements listed => listed ⊆ tag.statements program

/-- What a statement that is no declaration binds, it binds only perhaps. -/
theorem Placed.loose {tag : ScopeTag} {statement : Statement}
    (placed : Placed program tag (.statement statement)) (undeclared : statement.declares? = none) :
    ∀ entry ∈ statement.binds, tag.LooselyBinds program entry := by
  rcases placed with direct | loose
  · exact fun entry member => ⟨statement, direct, undeclared, member⟩
  · exact loose

/-- The statements a statement opens a scope for are those of the scope. -/
private theorem statements_of_opens {statement : Statement} {tag : ScopeTag}
    {inside : List Statement} (opens : statement.opens? = some (tag, inside)) :
    tag.statements program = inside := by
  cases statement <;> simp_all [Statement.opens?]
  all_goals
    obtain ⟨rfl, rfl⟩ := opens
    rfl

/-- Code is written in the list of its scope, or in a part that declares only perhaps. -/
theorem placed {scope : LexicalScope} {outer : List LexicalScope} {code : Code}
    (stands : Stands program (scope :: outer) code) : Placed program scope.tag code := by
  generalize shape : scope :: outer = scopes at stands
  induction stands generalizing scope outer with
  | program =>
      cases shape
      exact List.Subset.refl _
  | first _ ih => exact .inl (ih shape (List.mem_cons_self ..))
  | rest _ ih =>
      cases shape
      rw [LexicalScope.tag_after]
      exact List.Subset.trans (List.subset_cons_self _ _) (ih rfl)
  | branch _ member ih =>
      have loose := Placed.loose (ih shape) (Statement.declares?_of_mem_branches member)
      exact .inr fun entry bound =>
        loose entry (Statement.binds_subset_of_mem_branches member bound)
  | loopBody _ looped ih =>
      cases shape
      have loose := Placed.loose (ih rfl) (Statement.declares?_of_loop looped)
      rw [Statement.binds_of_loop looped] at loose
      exact .inr loose
  | opened _ opens ih =>
      cases shape
      change _ ⊆ ScopeTag.statements program _
      rw [LexicalScope.opened, statements_of_opens opens]
      exact List.Subset.refl _
  | function | method | extension =>
      cases shape
      exact List.Subset.refl _
  | value | initial | condition | field | part => trivial

/-- What the body of a loop declares is declared only perhaps. -/
theorem loose_of_loop {scope : LexicalScope} {outer : List LexicalScope}
    {statement body : Statement} {condition : Expr}
    (stands : Stands program (scope :: outer) (.statement statement))
    (looped : statement.loop? = some (condition, body)) :
    ∀ entry ∈ body.binds, scope.tag.LooselyBinds program entry := by
  have loose := stands.placed.loose (Statement.declares?_of_loop looped)
  rwa [Statement.binds_of_loop looped] at loose

/-- What is left of a scope where code stands in it: the statements listed, or those that
begin with the one the code is in, which is no declaration if the code is only a part. -/
def Continuing (program : Program) (scope : LexicalScope) : Code → Prop
  | .expression _ => True
  | .statement single => ∃ statement rest, scope.Continues program (statement :: rest) ∧
      (statement = single ∨ statement.declares? = none)
  | .statements listed => scope.Continues program listed

/-- A part of a statement that is no declaration. -/
private theorem Continuing.part {scope : LexicalScope} {statement : Statement}
    (continuing : Continuing program scope (.statement statement))
    (undeclared : statement.declares? = none) :
    ∃ whole rest, scope.Continues program (whole :: rest) ∧ whole.declares? = none := by
  obtain ⟨whole, rest, continues, rfl | none⟩ := continuing
  · exact ⟨whole, rest, continues, undeclared⟩
  · exact ⟨whole, rest, continues, none⟩

private theorem Continuing.surrounds {scope : LexicalScope} {statement : Statement}
    (continuing : Continuing program scope (.statement statement))
    (undeclared : statement.declares? = none) : scope.Surrounds program := by
  obtain ⟨whole, rest, continues, none⟩ := continuing.part undeclared
  refine ⟨_, continues, fun listed first name hoisted declares => ?_⟩
  obtain rfl : whole = listed := Option.some.inj first
  cases none.symm.trans declares

/-- The name of a function or a class is declared before the inside runs. -/
private theorem Continuing.surrounds_bind {scope : LexicalScope} {statement : Statement}
    {name : String}
    {hoisted : Hoisted} (continuing : Continuing program scope (.statement statement))
    (declares : statement.declares? = some (name, hoisted)) :
    (scope.bind name hoisted.isFinal).Surrounds program := by
  obtain ⟨whole, rest, continues, same⟩ := continuing
  refine ⟨whole :: rest, ⟨continues.statements,
    List.subset_cons_of_subset _ continues.implicit, fun listed member key other known =>
      List.mem_cons_of_mem _ (continues.earlier listed member key other known)⟩,
    fun listed first key other known => ?_⟩
  obtain rfl : whole = listed := Option.some.inj first
  rcases same with rfl | none
  · cases declares.symm.trans known
    exact List.mem_cons_self ..
  · cases none.symm.trans known

private theorem surrounds_sealed {tag : ScopeTag} (nothing : tag.statements program = []) :
    (LexicalScope.opened tag).Surrounds program :=
  ⟨[], ⟨nothing, List.Subset.refl _, nofun⟩, nofun⟩

private theorem surrounds_defer {scopes : List LexicalScope}
    (surround : ∀ scope ∈ scopes, scope.Surrounds program) :
    ∀ scope ∈ scopes.map (·.defer), scope.Surrounds program := by
  intro scope member
  obtain ⟨inner, listed, rfl⟩ := List.mem_map.mp member
  obtain ⟨rest, continues, made⟩ := surround inner listed
  exact ⟨rest, ⟨continues.statements, continues.implicit, continues.earlier⟩, made⟩

private theorem surrounds_classClosure {decl : ClassDecl} {outer : List LexicalScope}
    (surround : ∀ scope ∈ outer, scope.Surrounds program) :
    ∀ scope ∈ classClosureScopes decl outer, scope.Surrounds program := by
  unfold classClosureScopes
  split
  · exact List.forall_mem_cons.mpr ⟨surrounds_sealed rfl, surround⟩
  · exact surround

/-- Of the statements of each scope around code those that come before the code have been
made, and of the scopes outside of the innermost one also the one the code is in. -/
theorem continues {scope : LexicalScope} {outer : List LexicalScope} {code : Code}
    (stands : Stands program (scope :: outer) code) :
    Continuing program scope code ∧ ∀ around ∈ outer, around.Surrounds program := by
  generalize shape : scope :: outer = scopes at stands
  induction stands generalizing scope outer with
  | program =>
      cases shape
      exact ⟨⟨rfl, nofun, nofun⟩, nofun⟩
  | first _ ih =>
      obtain ⟨inner, around⟩ := ih shape
      exact ⟨⟨_, _, inner, .inl rfl⟩, around⟩
  | rest _ ih =>
      cases shape
      obtain ⟨inner, around⟩ := ih rfl
      exact ⟨inner.after, around⟩
  | value _ _ ih | part _ _ ih => exact ⟨trivial, (ih shape).2⟩
  | initial _ ih | condition _ _ ih =>
      cases shape
      exact ⟨trivial, (ih rfl).2⟩
  | branch _ member ih =>
      obtain ⟨inner, around⟩ := ih shape
      obtain ⟨whole, rest, continues, none⟩ :=
        inner.part (Statement.declares?_of_mem_branches member)
      exact ⟨⟨whole, rest, continues, .inr none⟩, around⟩
  | loopBody _ looped ih =>
      cases shape
      obtain ⟨inner, around⟩ := ih rfl
      obtain ⟨whole, rest, continues, none⟩ := inner.part (Statement.declares?_of_loop looped)
      exact ⟨⟨whole, rest, ⟨continues.statements, continues.implicit, continues.earlier⟩,
        .inr none⟩, around⟩
  | @opened scopes statement tag inside stands opens ih =>
      cases shape
      obtain ⟨inner, around, rfl⟩ := List.exists_cons_of_ne_nil stands.ne_nil
      obtain ⟨continuing, surround⟩ := ih rfl
      have undeclared := Statement.declares?_of_opens opens
      refine ⟨⟨statements_of_opens opens, List.Subset.refl _, nofun⟩,
        List.forall_mem_cons.mpr ⟨continuing.surrounds undeclared, surround⟩⟩
  | function _ ih =>
      cases shape
      obtain ⟨continuing, surround⟩ := ih rfl
      have bound := continuing.surrounds_bind rfl
      exact ⟨⟨rfl, List.Subset.refl _, nofun⟩,
        surrounds_defer (List.forall_mem_cons.mpr ⟨bound, surround⟩)⟩
  | field _ _ _ ih =>
      cases shape
      obtain ⟨continuing, surround⟩ := ih rfl
      have bound := continuing.surrounds_bind rfl
      exact ⟨trivial, surrounds_defer (surrounds_classClosure
        (List.forall_mem_cons.mpr ⟨bound, surround⟩))⟩
  | method _ _ ih =>
      cases shape
      obtain ⟨continuing, surround⟩ := ih rfl
      have bound := continuing.surrounds_bind rfl
      exact ⟨⟨rfl, List.Subset.refl _, nofun⟩,
        surrounds_defer (List.forall_mem_cons.mpr ⟨surrounds_sealed rfl, surrounds_classClosure
          (List.forall_mem_cons.mpr ⟨bound, surround⟩)⟩)⟩
  | @extension scopes id className decl location stands ih =>
      cases shape
      obtain ⟨inner, around, rfl⟩ := List.exists_cons_of_ne_nil stands.ne_nil
      obtain ⟨continuing, surround⟩ := ih rfl
      exact ⟨⟨rfl, List.Subset.refl _, nofun⟩,
        surrounds_defer (List.forall_mem_cons.mpr ⟨surrounds_sealed rfl,
          List.forall_mem_cons.mpr ⟨continuing.surrounds rfl, surround⟩⟩)⟩

private theorem deferred_eq_false {scope : LexicalScope} {outer : List LexicalScope} {code : Code}
    (stands : Stands program (scope :: outer) code) : scope.deferred = false := by
  generalize shape : scope :: outer = scopes at stands
  induction stands generalizing scope outer with
  | first _ ih | value _ _ ih | branch _ _ ih | part _ _ ih => exact ih shape
  | rest _ ih =>
      cases shape
      rw [LexicalScope.deferred_after]
      exact ih rfl
  | initial _ ih | condition _ _ ih | loopBody _ _ ih =>
      cases shape
      have inner := ih rfl
      exact inner
  | program | opened | function | field | method | extension =>
      cases shape
      rfl

/-- Code that runs later than the code around it has a scope of its own. -/
theorem surrounds_of_deferred {scopes : List LexicalScope} {scope : LexicalScope} {code : Code}
    (stands : Stands program scopes code) (member : scope ∈ scopes)
    (deferred : scope.deferred = true) : scope.Surrounds program := by
  obtain ⟨inner, outer, rfl⟩ := List.exists_cons_of_ne_nil stands.ne_nil
  rcases List.mem_cons.mp member with rfl | around
  · cases deferred.symm.trans stands.deferred_eq_false
  · exact stands.continues.2 scope around

/-- The statements of a piece of code that run in the scope it stands in. -/
def statementsOf : Code → List Statement
  | .expression _ => []
  | .statement statement => [statement]
  | .statements statements => statements

/-- What code binds in its own scope is among what the construct of that scope binds. -/
theorem binds_subset {scope : LexicalScope} {outer : List LexicalScope} {code : Code}
    (stands : Stands program (scope :: outer) code) :
    (statementsOf code).flatMap Statement.binds ⊆ scope.tag.binds program := by
  generalize shape : scope :: outer = scopes at stands
  induction stands generalizing scope outer with
  | program =>
      cases shape
      exact List.subset_append_right _ _
  | first _ ih =>
      refine List.Subset.trans ?_ (ih shape)
      simp [statementsOf]
  | rest _ ih =>
      cases shape
      rw [LexicalScope.tag_after]
      refine List.Subset.trans ?_ (ih rfl)
      simp [statementsOf]
  | branch _ member ih =>
      refine List.Subset.trans ?_ (ih shape)
      simpa [statementsOf] using Statement.binds_subset_of_mem_branches member
  | loopBody _ looped ih =>
      cases shape
      rw [LexicalScope.tag_loosen]
      refine List.Subset.trans ?_ (ih rfl)
      simp [statementsOf, Statement.binds_of_loop looped]
  | @opened scopes statement tag inside _ opens ih =>
      cases shape
      rw [LexicalScope.opened, ScopeTag.binds, statements_of_opens opens]
      exact List.subset_append_right _ _
  | function _ ih | method _ _ ih | extension _ ih =>
      cases shape
      exact List.subset_append_right _ _
  | value | initial | condition | field | part => simp [statementsOf]

end Stands

end Scriptlet
