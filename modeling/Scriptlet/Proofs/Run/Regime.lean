import Scriptlet.Proofs.Run.Leading
import Scriptlet.Proofs.Run.Primitive

/-!
# Regimes of a run

A regime says along which relation runs go and where a piece of code may run (`Regime`). If it obeys
a few laws, each about one operation of a run (`Regime.Lawful`), then code that may run where it
begins goes along the relation, however deep it nests (`Regime.Lawful.interpretBy`).
-/

namespace Scriptlet

/-- A piece of code and code directly inside of it that runs in the same scope. -/
inductive Code.Holds : Code → Code → Prop where
  | part {expr part : Expr} : part ∈ expr.parts → Holds (.expression expr) (.expression part)
  | value {statement : Statement} {expr : Expr} : expr ∈ statement.values →
      Holds (.statement statement) (.expression expr)
  | initial {name : String} {expr : Expr} {isFinal : Bool} {location : Location} :
      Holds (.statement (.varDecl name (some expr) isFinal location)) (.expression expr)
  | branch {statement branch : Statement} : branch ∈ statement.branches →
      Holds (.statement statement) (.statement branch)
  | condition {statement body : Statement} {expr : Expr} :
      statement.loop? = some (expr, body) → Holds (.statement statement) (.expression expr)
  | loopBody {statement body : Statement} {expr : Expr} :
      statement.loop? = some (expr, body) → Holds (.statement statement) (.statement body)
  | first {statement : Statement} {rest : List Statement} :
      Holds (.statements (statement :: rest)) (.statement statement)
  | rest {statement : Statement} {rest : List Statement} :
      Holds (.statements (statement :: rest)) (.statements rest)

/-- Machines that differ in arrays, native modules and what was printed and tested only, and in
names that the other one used besides. -/
structure Machine.Alike (machine other : Machine) : Prop where
  env : other.env = machine.env
  owners : other.owners = machine.owners
  callDepth : other.callDepth = machine.callDepth
  initDepth : other.initDepth = machine.initDepth
  uses : machine.uses ⊆ other.uses
  fieldUses : other.fieldUses = machine.fieldUses
  evaluations : other.evaluations = machine.evaluations
  scopes : other.store.scopes = machine.store.scopes
  functions : other.store.functions = machine.store.functions
  classes : other.store.classes = machine.store.classes
  objects : other.store.objects = machine.store.objects

/-- What the host does leaves the objects in a store as they are. -/
theorem Store.objects_perform {store after : Store} {action : HostAction} {calls : Nat}
    {arguments : List Value} {value : Value}
    (performed : store.perform action calls arguments = .ok (value, after)) :
    after.objects = store.objects := by
  unfold perform at performed
  split at performed <;> try cases performed
  all_goals try rfl
  all_goals
    split at performed <;> cases performed
    rfl

private theorem Store.objects_invoke (store : Store) (ref : ModuleRef) (name : String) (place : Nat)
    (arguments : List Value) :
    (store.invoke ref name place arguments).2.objects = store.objects := by
  unfold invoke
  simp only
  split
  · split
    · rename_i performed
      exact (objects_perform performed : _ = (store.countCall ref name place).objects)
    · rfl
  · rfl

/-- A relation runs go along, and where code may run that nests at most so deep. -/
structure Regime where
  evolution : Evolution
  allows : Nat → Code → Machine → Prop

namespace Regime

variable {α β : Type}

/-- Where the code may run the step goes along the relation. -/
def Permits (regime : Regime) (depth : Nat) (code : Code) (step : Run α) : Prop :=
  Run.Leads regime.evolution (regime.allows depth code) step fun _ _ => True

end Regime

/-- Routines that go along the relation of a regime where it allows code. -/
structure Run.Routines.Permitted (inner : Routines) (regime : Regime) (depth : Nat) : Prop where
  evaluate : ∀ expr, regime.Permits depth (.expression expr) (inner.evaluate expr)
  execute : ∀ statement, regime.Permits depth (.statement statement) (inner.execute statement)
  executeAll : ∀ statements,
    regime.Permits depth (.statements statements) (inner.executeAll statements)

/-- What a regime must obey: where code may run, and what each operation does. -/
structure Regime.Lawful (regime : Regime) (setting : Setting) : Prop where
  keep : ∀ {depth code machine later}, regime.evolution.relates machine later →
    regime.allows depth code machine → regime.allows depth code later
  inside : ∀ {depth outer inner machine}, Code.Holds outer inner →
    regime.allows (depth + 1) outer machine → regime.allows depth inner machine
  exhausted : ∀ {code machine}, regime.allows 0 code machine →
    regime.evolution.stops machine .exhausted machine
  alike : ∀ {machine later : Machine}, machine.Alike later → regime.evolution.relates machine later
  assign : ∀ {depth expr} id name value location, regime.Permits depth (.expression expr)
    (Run.assign setting id name value location)
  property : ∀ {depth expr} target name location, regime.Permits depth (.expression expr)
    (Run.property target name location)
  setProperty : ∀ {depth expr} target name value location, regime.Permits depth (.expression expr)
    (Run.setProperty target name value location)
  superMethod : ∀ {depth expr} id method location, regime.Permits depth (.expression expr)
    (Run.superMethod setting id method location)
  callFunction : ∀ {depth expr inner ref function} arguments location, Expr.isCall expr = true →
    Run.Routines.Permitted inner regime depth → Run.Leads regime.evolution
      (fun machine => some function = machine.store.function? ref ∧
        regime.allows (depth + 1) (.expression expr) machine)
      (Run.callFunction setting inner.executeAll function arguments location) fun _ _ => True
  instantiate : ∀ {depth expr inner} ofClass arguments location, Expr.isCall expr = true →
    Run.Routines.Permitted inner regime depth → regime.Permits (depth + 1) (.expression expr)
      (Run.instantiate setting inner.evaluate inner.executeAll ofClass arguments location)
  noting : ∀ {depth expr}, (Run.routines setting depth).Permitted regime depth →
    regime.Permits (depth + 1) (.expression expr)
      (Run.evaluateStep setting (Run.routines setting depth) expr) →
    regime.Permits (depth + 1) (.expression expr)
      (Run.noting expr (Run.evaluateStep setting (Run.routines setting depth) expr))
  define : ∀ {depth statement} name value isFinal, regime.Permits depth (.statement statement)
    (Run.define name value isFinal)
  opened : ∀ {depth statement tag inside inner}, statement.opens? = some (tag, inside) →
    Run.Routines.Permitted inner regime depth → ∀ machine, Run.Leads regime.evolution
      (fun later => machine = later ∧ regime.allows (depth + 1) (.statement statement) later)
      (Run.within machine.env tag [] (inner.executeAll inside)) fun _ _ => True
  function : ∀ {depth} decl, regime.Permits depth (.statement (.function decl))
    (Run.declareFunction decl)
  classDecl : ∀ {depth} decl, regime.Permits depth (.statement (.classDecl decl))
    (Run.declareClass setting decl)
  extension : ∀ {depth} id className decl location,
    regime.Permits depth (.statement (.extension id className decl location))
      (Run.declareExtension setting id className decl location)

namespace Regime.Lawful

open Run

variable {α β : Type} {regime : Regime} {setting : Setting} {depth : Nat} {code : Code}
  {inner : Routines}

/-- After a step along the relation the code may still run. -/
theorem after (lawful : regime.Lawful setting) {before : Machine → Prop} {step : Run α}
    (leads : Leads regime.evolution before step fun _ _ => True)
    (allowed : ∀ machine, before machine → regime.allows depth code machine) :
    Leads regime.evolution before step fun _ => regime.allows depth code :=
  fun machine holds => (leads machine holds).imp fun _ _ _ moved _ =>
    lawful.keep moved (allowed machine holds)

private theorem bind (lawful : regime.Lawful setting) {step : Run α} {next : α → Run β}
    (first : regime.Permits depth code step) (rest : ∀ value, regime.Permits depth code
      (next value)) :
    regime.Permits depth code (step >>= next) :=
  Leads.bind (lawful.after first fun _ allowed => allowed) rest

/-- A piece of code goes along where code that holds it may run. -/
theorem descend (lawful : regime.Lawful setting) {outer part : Code} {step : Run α}
    (held : Code.Holds outer part) (permits : regime.Permits depth part step) :
    regime.Permits (depth + 1) outer step :=
  permits.strengthen fun _ allowed => lawful.inside held allowed

private theorem pure (value : α) : regime.Permits depth code (pure value) :=
  Leads.pure fun _ _ => trivial

private theorem fail (fault : RuntimeFault) (location : Location) :
    regime.Permits depth code (Run.fail fault location : Run α) :=
  Leads.fail fault location

private theorem inspect (look : Store → α) : regime.Permits depth code (Run.inspect look) :=
  (Leads.inspect look).weaken fun _ _ _ => trivial

private theorem orFail (result : Except RuntimeFault α) (location : Location) :
    regime.Permits depth code (Run.orFail result location) :=
  (Leads.orFail result location).weaken fun _ _ _ => trivial

/-- A step that ends well with a machine like the one it begins on. -/
theorem of_alike (lawful : regime.Lawful setting) {step : Run α} {value : Machine → α}
    {next : Machine → Machine} (steps : ∀ machine, step machine = .ok (value machine)
      (next machine))
    (alike : ∀ machine : Machine, machine.Alike (next machine)) :
    regime.Permits depth code step := by
  intro machine _
  rw [steps]
  exact ⟨lawful.alike (alike machine), trivial⟩

private theorem noteUse (lawful : regime.Lawful setting) (id : NodeId) (name : String) :
    regime.Permits depth code (Run.noteUse id name) :=
  lawful.of_alike (fun _ => rfl) fun _ =>
    ⟨rfl, rfl, rfl, rfl, List.subset_cons_self _ _, rfl, rfl, rfl, rfl, rfl, rfl⟩

private theorem lookup (lawful : regime.Lawful setting) (id : NodeId) (name : String)
    (location : Location) : regime.Permits depth code (Run.lookup setting id name location) := by
  refine lawful.bind (lawful.noteUse id name) fun use => lawful.bind (inspect _) fun found => ?_
  split
  · exact pure _
  · exact fail _ _

private theorem newArray (lawful : regime.Lawful setting) (elements : Array Value) :
    regime.Permits depth code (Run.create (·.newArray elements)) :=
  lawful.of_alike (fun _ => rfl) fun _ =>
    ⟨rfl, rfl, rfl, rfl, List.Subset.refl _, rfl, rfl, rfl, rfl, rfl, rfl⟩

private theorem setElement (lawful : regime.Lawful setting) (target index value : Value)
    (location : Location) :
    regime.Permits depth code (Run.setElement target index value location) := by
  refine lawful.bind (inspect _) fun _ => lawful.bind (orFail _ _) fun _ => ?_
  exact lawful.of_alike (fun _ => rfl) fun _ =>
    ⟨rfl, rfl, rfl, rfl, List.Subset.refl _, rfl, rfl, rfl, rfl, rfl, rfl⟩

private theorem moduleNamed (lawful : regime.Lawful setting) (name : String) (location : Location) :
    regime.Permits depth code (Run.moduleNamed setting name location) := by
  unfold Run.moduleNamed
  split
  · refine lawful.bind (inspect _) fun found => ?_
    split
    · exact pure _
    · exact fail _ _
  · exact fail _ _

private theorem callNative (lawful : regime.Lawful setting) (binding : NativeBinding)
    (arguments : List Value) (location : Location) :
    regime.Permits depth code (Run.callNative setting binding arguments location) := by
  have invoked (ref : ModuleRef) (place : Nat) : regime.Permits depth code
      (Run.create (·.invoke ref binding.name place arguments)) := by
    refine lawful.of_alike (fun _ => rfl) fun machine => ?_
    obtain ⟨functions, tables⟩ :=
      machine.store.code_invoke ref binding.name place arguments
    exact ⟨rfl, rfl, rfl, rfl, List.Subset.refl _, rfl, rfl, machine.store.scopes_invoke _ _ _ _,
      functions, (List.cons.inj tables).1, machine.store.objects_invoke _ _ _ _⟩
  unfold Run.callNative
  extract_lets fits
  split
  · exact fail _ _
  · refine lawful.bind (lawful.moduleNamed _ _) fun found => ?_
    dsimp only
    split
    · exact fail _ _
    · refine lawful.bind (invoked _ _) fun answer => ?_
      split
      · exact pure _
      · exact fail _ _

private theorem valueOrNil (lawful : regime.Lawful setting) {expr : Option Expr}
    (permitted : inner.Permitted regime depth)
    (held : ∀ one, expr = some one → Code.Holds code (.expression one)) :
    regime.Permits (depth + 1) code (Run.valueOrNil inner.evaluate expr) := by
  cases expr with
  | some one => exact lawful.descend (held one rfl) (permitted.evaluate one)
  | none => exact pure _

private theorem valuesOf (lawful : regime.Lawful setting) {exprs : List Expr}
    (permitted : inner.Permitted regime depth)
    (held : ∀ expr ∈ exprs, Code.Holds code (.expression expr)) :
    regime.Permits (depth + 1) code (Run.valuesOf inner.evaluate exprs) := by
  induction exprs with
  | nil => exact pure _
  | cons expr rest ih =>
      refine lawful.bind (lawful.descend (held expr (List.mem_cons_self ..))
        (permitted.evaluate expr)) fun value => ?_
      refine lawful.bind (ih fun other member => held other (List.mem_cons_of_mem _ member)) ?_
      exact fun values => pure _

private theorem call (lawful : regime.Lawful setting) (permitted : inner.Permitted regime depth)
    {expr : Expr} (calls : expr.isCall = true) (callee : Value) (arguments : List Value)
    (location : Location) : regime.Permits (depth + 1) (.expression expr)
      (Run.call setting inner.evaluate inner.executeAll callee arguments location) := by
  unfold Run.call
  split
  · refine Leads.bind (.inspect _) fun found => ?_
    split
    · exact lawful.callFunction arguments location calls permitted
    · exact .fail _ _
  · exact lawful.instantiate _ _ _ calls permitted
  · exact lawful.callNative _ _ _
  · exact fail _ _

private theorem evaluateStep (lawful : regime.Lawful setting)
    (permitted : inner.Permitted regime depth) (expr : Expr) :
    regime.Permits (depth + 1) (.expression expr) (Run.evaluateStep setting inner expr) := by
  have inside (part : Expr) (member : part ∈ expr.parts) :
      regime.Permits (depth + 1) (.expression expr) (inner.evaluate part) :=
    lawful.descend (.part member) (permitted.evaluate part)
  have insideAll (parts : List Expr) (members : ∀ part ∈ parts, part ∈ expr.parts) :
      regime.Permits (depth + 1) (.expression expr) (Run.valuesOf inner.evaluate parts) :=
    lawful.valuesOf permitted fun part member => .part (members part member)
  cases expr with
  | literal value location => exact pure _
  | array elements location =>
      exact lawful.bind (insideAll elements fun _ member => member) fun _ =>
        lawful.bind (lawful.newArray _) fun _ => pure _
  | var id name location => exact lawful.lookup id name location
  | assign id name value location =>
      exact lawful.bind (inside value (by simp [Expr.parts])) fun _ =>
        lawful.bind (lawful.assign _ _ _ _) fun _ => pure _
  | binary op left right location =>
      exact lawful.bind (inside left (by simp [Expr.parts])) fun _ =>
        lawful.bind (inside right (by simp [Expr.parts])) fun _ =>
          lawful.bind (inspect _) fun _ => orFail _ _
  | logical op left right location =>
      refine lawful.bind (inside left (by simp [Expr.parts])) fun value => ?_
      split
      · exact pure _
      · exact lawful.bind (inside right (by simp [Expr.parts])) fun _ => pure _
  | bitwise op left right location =>
      exact lawful.bind (inside left (by simp [Expr.parts])) fun _ =>
        lawful.bind (inside right (by simp [Expr.parts])) fun _ => orFail _ _
  | unary op operand location =>
      exact lawful.bind (inside operand (by simp [Expr.parts])) fun _ => orFail _ _
  | prefixCall id name operand location =>
      exact lawful.bind (lawful.lookup _ _ _) fun _ =>
        lawful.bind (inside operand (by simp [Expr.parts])) fun _ => lawful.call permitted rfl _ _ _
  | infixCall id name left right location =>
      exact lawful.bind (lawful.lookup _ _ _) fun _ =>
        lawful.bind (inside left (by simp [Expr.parts])) fun _ =>
          lawful.bind (inside right (by simp [Expr.parts])) fun _ => lawful.call permitted rfl _ _ _
  | ternary condition thenBranch elseBranch location =>
      refine lawful.bind (inside condition (by simp [Expr.parts])) fun value => ?_
      split
      · exact inside thenBranch (by simp [Expr.parts])
      · exact inside elseBranch (by simp [Expr.parts])
  | elvis value fallback location =>
      refine lawful.bind (inside value (by simp [Expr.parts])) fun first => ?_
      split
      · exact pure _
      · exact inside fallback (by simp [Expr.parts])
  | call callee arguments location =>
      exact lawful.bind (inside callee (by simp [Expr.parts])) fun _ =>
        lawful.bind (insideAll arguments fun _ member => List.mem_cons_of_mem _ member) fun _ =>
          lawful.call permitted rfl _ _ _
  | get object name location =>
      exact lawful.bind (inside object (by simp [Expr.parts])) fun _ => lawful.property _ _ _
  | set object name value location =>
      exact lawful.bind (inside object (by simp [Expr.parts])) fun _ =>
        lawful.bind (inside value (by simp [Expr.parts])) fun _ =>
          lawful.bind (lawful.setProperty _ _ _ _) fun _ => pure _
  | getIndex array index location =>
      exact lawful.bind (inside array (by simp [Expr.parts])) fun _ =>
        lawful.bind (inside index (by simp [Expr.parts])) fun _ =>
          lawful.bind (inspect _) fun _ => orFail _ _
  | setIndex array index value location =>
      exact lawful.bind (inside array (by simp [Expr.parts])) fun _ =>
        lawful.bind (inside index (by simp [Expr.parts])) fun _ =>
          lawful.bind (inside value (by simp [Expr.parts])) fun _ =>
            lawful.bind (lawful.setElement _ _ _ _) fun _ => pure _
  | grouping grouped location => exact inside grouped (by simp [Expr.parts])
  | thisRef id location => exact lawful.lookup id "this" location
  | superRef id method location => exact lawful.superMethod id method location

private theorem untilDone (lawful : regime.Lawful setting) {round : Run (Option Completion)}
    (once : regime.Permits depth code round) (bound : Nat) :
    regime.Permits depth code (Run.untilDone round bound) := by
  induction bound with
  | zero => exact .endless
  | succ bound ih =>
      refine lawful.bind once fun done => ?_
      cases done with
      | some completion => exact pure _
      | none => exact ih

private theorem times (lawful : regime.Lawful setting) {round : Run (Option Completion)}
    (once : regime.Permits depth code round) (count : Nat) :
    regime.Permits depth code (Run.times round count) := by
  induction count with
  | zero => exact pure _
  | succ count ih =>
      refine lawful.bind once fun done => ?_
      cases done with
      | some completion => exact pure _
      | none => exact ih

private theorem testResult (lawful : regime.Lawful setting) (name : String)
    (completion : Completion)
    (location : Location) : regime.Permits depth code
      (Run.testResult name completion location) := by
  have recorded (passed : Bool) : regime.Permits depth code
    (Run.recordTest name passed location) := by
    have noted : regime.Permits depth code (modify fun machine =>
        { machine with tests := machine.tests.push ⟨name, passed⟩ } : Run Unit) :=
      lawful.of_alike (fun _ => rfl) fun _ =>
        ⟨rfl, rfl, rfl, rfl, List.Subset.refl _, rfl, rfl, rfl, rfl, rfl, rfl⟩
    refine lawful.bind noted fun _ => ?_
    split
    · exact pure _
    · exact fail _ _
  cases completion with
  | normal => exact recorded true
  | returning value => exact recorded _
  | breaking => exact fail _ _
  | continuing => exact fail _ _

private theorem print (lawful : regime.Lawful setting) (value : Value) :
    regime.Permits depth code (Run.print value) :=
  lawful.of_alike (fun _ => rfl) fun _ =>
    ⟨rfl, rfl, rfl, rfl, List.Subset.refl _, rfl, rfl, rfl, rfl, rfl, rfl⟩

private theorem roundsOf (count : Value) (location : Location) :
    regime.Permits depth code (Run.roundsOf count location) := by
  unfold Run.roundsOf
  split
  · exact pure _
  · exact fail _ _

private theorem executeStep (lawful : regime.Lawful setting)
    (permitted : inner.Permitted regime depth) (statement : Statement) :
    regime.Permits (depth + 1) (.statement statement)
      (Run.executeStep setting inner statement) := by
  have value {expr : Expr} (member : expr ∈ statement.values) :
      regime.Permits (depth + 1) (.statement statement) (inner.evaluate expr) :=
    lawful.descend (.value member) (permitted.evaluate expr)
  have branch {one : Statement} (member : one ∈ statement.branches) :
      regime.Permits (depth + 1) (.statement statement) (inner.execute one) :=
    lawful.descend (.branch member) (permitted.execute one)
  cases statement with
  | expression expr location =>
      exact lawful.bind (value (List.mem_singleton.mpr rfl)) fun _ => pure _
  | varDecl name initial isFinal location =>
      refine lawful.bind (lawful.valueOrNil permitted fun expr given => ?_) fun _ =>
        lawful.bind (lawful.define _ _ _) fun _ => pure _
      subst given
      exact .initial
  | block body location =>
      exact Leads.bind .get fun machine => lawful.opened rfl permitted machine
  | ifElse condition thenBranch elseBranch location =>
      refine lawful.bind (value (List.mem_singleton.mpr rfl)) fun chosen => ?_
      split
      · exact branch (List.mem_cons_self ..)
      · split
        · exact branch (by simp [Statement.branches])
        · exact pure _
  | whileLoop condition body location =>
      refine lawful.untilDone ?_ _
      refine lawful.bind (lawful.descend (.condition rfl) (permitted.evaluate _)) fun chosen => ?_
      split
      · exact lawful.bind (lawful.descend (.loopBody rfl) (permitted.execute _)) fun _ => pure _
      · exact pure _
  | doWhile body condition location =>
      refine lawful.untilDone ?_ _
      refine lawful.bind (lawful.descend (.loopBody rfl) (permitted.execute _)) fun completion => ?_
      split
      · exact pure _
      · refine lawful.bind (lawful.descend (.condition rfl) (permitted.evaluate _)) fun chosen => ?_
        split
        · exact pure _
        · exact pure _
  | repeatLoop count body location =>
      refine lawful.bind (lawful.descend (.condition rfl) (permitted.evaluate _)) fun _ =>
        lawful.bind (roundsOf _ _) fun _ => lawful.times ?_ _
      exact lawful.bind (lawful.descend (.loopBody rfl) (permitted.execute _)) fun _ => pure _
  | function decl => exact lawful.bind (lawful.function decl) fun _ => pure _
  | classDecl decl => exact lawful.bind (lawful.classDecl decl) fun _ => pure _
  | returning result location =>
      refine lawful.bind (lawful.valueOrNil permitted fun expr given => ?_) fun _ => pure _
      subst given
      exact .value (List.mem_singleton.mpr rfl)
  | breaking location => exact pure _
  | continuing location => exact pure _
  | print expr location =>
      exact lawful.bind (value (List.mem_singleton.mpr rfl)) fun _ =>
        lawful.bind (lawful.print _) fun _ => pure _
  | test name body location =>
      refine Leads.bind .get fun machine => ?_
      exact Leads.bind
        (lawful.after (lawful.opened rfl permitted machine) fun _ allowed => allowed.2)
        fun completion => lawful.testResult _ _ _
  | moduleDecl name location =>
      exact lawful.bind (lawful.bind (lawful.moduleNamed _ _) fun _ => lawful.define _ _ _)
        fun _ => pure _
  | nativeFunction moduleName name params location =>
      refine lawful.bind (lawful.bind (lawful.moduleNamed _ _) fun found => ?_) fun _ => pure _
      dsimp only
      split
      · exact lawful.define _ _ _
      · exact fail _ _
  | extension id className decl location =>
      exact lawful.bind (lawful.extension id className decl location) fun _ => pure _

private theorem executeAllStep (lawful : regime.Lawful setting)
    (permitted : inner.Permitted regime depth) (statements : List Statement) :
    regime.Permits (depth + 1) (.statements statements) (Run.executeAllStep inner statements) := by
  cases statements with
  | nil => exact pure _
  | cons statement rest =>
      refine lawful.bind (lawful.descend .first (permitted.execute statement)) fun completion => ?_
      split
      · exact lawful.descend .rest (permitted.executeAll rest)
      · exact pure _

/-- Runs go along the relation of a lawful regime, however deep they nest. -/
theorem routines (lawful : regime.Lawful setting) (depth : Nat) :
    (Run.routines setting depth).Permitted regime depth := by
  induction depth with
  | zero =>
      exact ⟨fun _ _ allowed => lawful.exhausted allowed, fun _ _ allowed =>
        lawful.exhausted allowed, fun _ _ allowed => lawful.exhausted allowed⟩
  | succ depth ih =>
      exact ⟨fun expr => lawful.noting ih (lawful.evaluateStep ih expr), lawful.executeStep ih,
        lawful.executeAllStep ih⟩

/-- A program goes along the relation if each of its statements may run at the start. -/
theorem interpretBy (lawful : regime.Lawful setting) (depth : Nat) (program : Program) :
    Leads regime.evolution
      (fun machine => ∀ statement ∈ program, regime.allows depth (.statement statement) machine)
      (Run.interpretBy (Run.routines setting depth).execute program) fun _ _ => True := by
  induction program with
  | nil => exact Leads.pure fun _ _ => trivial
  | cons statement rest ih =>
      have executed := (lawful.routines depth).execute statement
      refine Leads.through (fun _ machine => ∀ other ∈ rest,
        regime.allows depth (.statement other) machine) (fun machine allowed => ?_)
          fun completion => ?_
      · refine (executed machine (allowed statement (List.mem_cons_self ..))).imp ?_
        exact fun _ _ _ moved _ other member =>
          lawful.keep moved (allowed other (List.mem_cons_of_mem _ member))
      · split
        · exact ih
        · exact .fail _ _

end Regime.Lawful

end Scriptlet
