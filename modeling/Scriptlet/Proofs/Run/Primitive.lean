import Scriptlet.Proofs.Run.Upholding

/-!
# What the operations of a run uphold

One lemma for each operation that runs no code by itself. Only names that are used, jumps that are
caught and code that is stored need an argument; every other fault is plain
(`RuntimeFault.isPlain`).
-/

namespace Scriptlet

/-- Whether a fault is about the operands of an operator. -/
def RuntimeFault.isOperand : RuntimeFault → Bool
  | .typeMismatch _ | .indexOutOfBounds _ _ => true
  | _ => false

/-- A fault about operands has nothing to do with names or jumps. -/
theorem RuntimeFault.isPlain_of_isOperand {fault : RuntimeFault}
    (operand : fault.isOperand = true) : fault.isPlain = true := by
  cases fault <;> first | rfl | cases operand

namespace Value

/-- The faults of operators are about types. -/
theorem isOperand_of_binary {store : Store} {op : BinaryOp} {left right : Value}
    {fault : RuntimeFault} (failed : binary store op left right = .error fault) :
    fault.isOperand = true := by
  have mismatch (op : BinaryOp) (left right : Value) :
      (binaryMismatch op left right).isOperand = true := rfl
  have computed (op : BinaryOp) (compute : Float → Float → Float)
      (failed : arithmetic op compute left right = .error fault) : fault.isOperand = true := by
    unfold arithmetic at failed
    split at failed <;> cases failed
    rfl
  have compared (op : BinaryOp) (failed : ordering op left right = .error fault) :
      fault.isOperand = true := by
    unfold ordering at failed
    split at failed <;> cases failed
    rfl
  cases op with
  | equal => cases failed
  | notEqual => cases failed
  | add =>
      unfold binary add at failed
      dsimp only at failed
      split at failed <;> cases failed
      rfl
  | sub => exact computed _ _ failed
  | mul => exact computed _ _ failed
  | div => exact computed _ _ failed
  | mod => exact computed _ _ failed
  | _ => exact compared _ failed

/-- A bitwise operator fails for its operands only. -/
theorem isOperand_of_bitwise {op : BitwiseOp} {left right : Value} {fault : RuntimeFault}
    (failed : bitwise op left right = .error fault) : fault.isOperand = true := by
  unfold bitwise at failed
  split at failed
  · split at failed <;> cases failed
    rfl
  · cases failed
  · cases failed
    rfl

/-- A unary operator fails for its operand only. -/
theorem isOperand_of_unary {op : UnaryOp} {operand : Value} {fault : RuntimeFault}
    (failed : unary op operand = .error fault) : fault.isOperand = true := by
  unfold unary at failed
  split at failed <;> cases failed
  rfl

private theorem isOperand_of_index {α : Type} {index : Value} {next : Float → Except RuntimeFault α}
    {fault : RuntimeFault} (failed : indexNumber index >>= next = .error fault)
    (operand : ∀ position, next position = .error fault → fault.isOperand = true) :
    fault.isOperand = true := by
  cases index with
  | number value => exact operand value failed
  | _ =>
      cases failed
      rfl

private theorem isOperand_of_checked {α : Type} {position : Float} {length : Nat} {result : Nat → α}
    {fault : RuntimeFault}
    (failed : (checkedIndex position length >>= fun place => pure (result place)) =
      .error fault) : fault.isOperand = true := by
  unfold checkedIndex at failed
  split at failed <;> cases failed
  rfl

/-- An element is read in vain for what the operands are only. -/
theorem isOperand_of_elementAt {store : Store} {target index : Value} {fault : RuntimeFault}
    (failed : elementAt store target index = .error fault) : fault.isOperand = true := by
  refine isOperand_of_index failed fun position rest => ?_
  split at rest
  · exact isOperand_of_checked rest
  · exact isOperand_of_checked rest
  · cases rest
    rfl

/-- The place of an element is looked for in vain for what the operands are only. -/
theorem isOperand_of_elementPlace {store : Store} {target index : Value} {fault : RuntimeFault}
    (failed : elementPlace store target index = .error fault) : fault.isOperand = true := by
  refine isOperand_of_index failed fun position rest => ?_
  split at rest
  · exact isOperand_of_checked rest
  · cases rest
    rfl

end Value

namespace Store

/-- What the host does leaves the code in a store as it is. -/
theorem code_perform {store after : Store} {action : HostAction} {calls : Nat}
    {arguments : List Value} {value : Value}
    (performed : store.perform action calls arguments = .ok (value, after)) :
    after.functions = store.functions ∧ after.tables = store.tables := by
  unfold perform at performed
  split at performed <;> try cases performed
  all_goals try exact ⟨rfl, rfl⟩
  all_goals
    split at performed <;> cases performed
    exact ⟨rfl, rfl⟩

/-- A native function makes no code. -/
theorem code_invoke (store : Store) (ref : ModuleRef) (name : String) (place : Nat)
    (arguments : List Value) :
    (store.invoke ref name place arguments).2.functions = store.functions ∧
      (store.invoke ref name place arguments).2.tables = store.tables := by
  unfold invoke
  simp only
  split
  · split
    · rename_i performed
      obtain ⟨functions, tables⟩ := code_perform performed
      exact ⟨functions, tables⟩
    · exact ⟨rfl, rfl⟩
  · exact ⟨rfl, rfl⟩

end Store

/-- The names a construct binds by itself when it opens a scope, and only those for good
that it binds so. -/
structure ScopeTag.Fills (tag : ScopeTag) (bindings : Table Binding) : Prop where
  bound : ∀ name ∈ tag.implicit.map (·.1), ((bindings.find? name).map (·.isFinal)).isSome
  finals : ∀ name, (bindings.find? name).map (·.isFinal) = some true → (name, true) ∈ tag.implicit

namespace ScopeTag.Fills

/-- A construct that binds nothing by itself opens an empty scope. -/
theorem empty {tag : ScopeTag} (nothing : tag.implicit = []) : tag.Fills [] := by
  refine ⟨fun name member => ?_, fun name marked => ?_⟩
  · rw [nothing] at member
    cases member
  · cases marked

/-- A construct that binds one name by itself opens a scope with this name, bound for good. -/
theorem single {tag : ScopeTag} {name : String} (value : Value)
    (one : tag.implicit = [(name, true)]) : tag.Fills [(name, ⟨value, true⟩)] := by
  refine ⟨fun other member => ?_, fun other marked => ?_⟩
  · obtain rfl : other = name := by simpa [one] using member
    simp [Table.find?]
  · by_cases hit : name = other
    · subst hit
      rw [one]
      exact List.mem_singleton.mpr rfl
    · simp [Table.find?, hit] at marked

/-- Binding parameters one after the other keeps what is bound and binds the rest. -/
private theorem find?_foldl (pairs : List (Parameter × Value)) (table : Table Binding)
    (name : String) :
    (pairs.foldl (fun bindings pair => bindings.put pair.1.name ⟨pair.2, false⟩) table).find? name =
        table.find? name ∧ name ∉ pairs.map (·.1.name) ∨
      ∃ value, (pairs.foldl
        (fun bindings pair => bindings.put pair.1.name ⟨pair.2, false⟩) table).find? name =
          some ⟨value, false⟩ := by
  induction pairs generalizing table with
  | nil => exact .inl ⟨rfl, List.not_mem_nil⟩
  | cons pair rest ih =>
      rw [List.foldl_cons]
      rcases ih (table.put pair.1.name ⟨pair.2, false⟩) with ⟨same, absent⟩ | bound
      · rw [same]
        by_cases hit : pair.1.name = name
        · subst hit
          exact .inr ⟨pair.2, Table.find?_put_self _ _ _⟩
        · refine .inl ⟨Table.find?_put_of_ne _ _ hit, ?_⟩
          simp only [List.map_cons, List.mem_cons, not_or]
          exact ⟨Ne.symm hit, absent⟩
      · exact .inr bound

/-- As many arguments as parameters bind every parameter, and none for good. -/
theorem params (decl : FunctionDecl) {arguments : List Value}
    (fitting : arguments.length = decl.params.length) :
    (ScopeTag.body decl).Fills (Run.bindParams decl.params arguments) := by
  have names : (decl.params.zip arguments).map (·.1.name) = decl.params.map (·.name) := by
    have firsts : (decl.params.zip arguments).map Prod.fst = decl.params :=
      List.map_fst_zip (Nat.le_of_eq fitting.symm)
    calc (decl.params.zip arguments).map (·.1.name)
        = ((decl.params.zip arguments).map Prod.fst).map (·.name) := by rw [List.map_map]; rfl
      _ = decl.params.map (·.name) := by rw [firsts]
  refine ⟨fun name member => ?_, fun name marked => ?_⟩
  · rcases find?_foldl (decl.params.zip arguments) [] name with ⟨_, absent⟩ | ⟨value, found⟩
    · rw [names] at absent
      refine absurd ?_ absent
      simpa [ScopeTag.implicit] using member
    · unfold Run.bindParams
      rw [found]
      rfl
  · rcases find?_foldl (decl.params.zip arguments) [] name with ⟨same, _⟩ | ⟨value, found⟩
    · unfold Run.bindParams at marked
      rw [same] at marked
      cases marked
    · unfold Run.bindParams at marked
      rw [found] at marked
      cases marked

/-- A scope that was just opened is what is said of a scope that its construct opened. -/
theorem describes {tag : ScopeTag} {bindings : Table Binding} (fills : tag.Fills bindings)
    (foreign : String → Prop) (enclosing : Option ScopeRef) :
    (LexicalScope.opened tag).Describes foreign ⟨bindings, enclosing, tag⟩ :=
  ⟨rfl, fills.bound, fun _ name marked => .inl (mem_finalsOf.mpr (fills.finals name marked))⟩

end ScopeTag.Fills

/-- A sound machine stays sound when a construct opens a scope. -/
theorem Course.Sound.newScope {course : Course} {machine : Machine} {tag : ScopeTag}
    {bindings : Table Binding} (sound : course.Sound machine) (enclosing : Option ScopeRef)
    (fills : tag.Fills bindings) :
    course.Sound
      { machine with store := (machine.store.newScope enclosing tag bindings).2 } := by
  have keeps : machine.store.Keeps machine.env []
      (machine.store.newScope enclosing tag bindings).2 := .newScope _ _ _ _
  have finals := sound.store.finals.newScope enclosing tag bindings fills.finals
  exact sound.of_store keeps (sound.store.of_keeps keeps rfl rfl finals) rfl rfl

namespace Run.Upholds

variable {course : Course} {setting : Setting} {before : Machine → Prop}
  {scopes : List LexicalScope}

/-- A scope that is made in scopes of the text fits there as one that its construct opened. -/
protected theorem newScope {tag : ScopeTag} {bindings : Table Binding} (enclosing : ScopeRef)
    (fills : tag.Fills bindings) :
    Upholds course setting (fun machine => course.Fits machine.store scopes enclosing)
      (Run.create (·.newScope (some enclosing) tag bindings))
      fun scope machine => course.Fits machine.store (.opened tag :: scopes) scope :=
  fun _ sound fits =>
    ⟨sound.newScope (some enclosing) fills, fits.push tag bindings (fills.describes _ _)⟩

/-- A step in a scope that a construct opens upholds soundness, if it does so inside of the
construct. -/
protected theorem within {α : Type} {step : Run α} {promised : α → Prop} {tag : ScopeTag}
    {bindings : Table Binding} (enclosing : ScopeRef) (fills : tag.Fills bindings)
    (inside : Upholds course setting (course.At (.opened tag :: scopes)) step
      fun value _ => promised value) :
    Upholds course setting (fun machine => course.Fits machine.store scopes enclosing)
      (Run.within enclosing tag bindings step) fun value _ => promised value := by
  refine .bind (.newScope enclosing fills) fun scope => ?_
  intro machine sound fits
  have ended := inside { machine with env := scope } (sound.congr rfl rfl rfl) fits
  unfold Run.inScope
  dsimp only
  cases result : step { machine with env := scope } with
  | ok value later =>
      rw [result] at ended
      exact ⟨ended.1.congr rfl rfl rfl, ended.2⟩
  | error stop later =>
      rw [result] at ended
      cases stop with
      | fault fault => exact ⟨ended.1.congr rfl rfl rfl, ended.2⟩
      | exhausted | endless => exact Course.Sound.congr ended rfl rfl rfl

/-- A sound machine may note that code of the program uses a name. -/
private theorem sound_afterUse {machine : Machine} {code : Code} {id : NodeId} {name : String}
    (sound : course.Sound machine) (stands : Stands course.program scopes code)
    (mentioned : (id, name) ∈ code.mentions) (fits : course.At scopes machine) :
    course.Sound (afterUse id name machine) := by
  refine ⟨sound.store, fun use member => ?_, sound.evaluations⟩
  rcases List.mem_cons.mp member with rfl | earlier
  · exact ⟨scopes, code, stands, mentioned, Course.Fits.defer fits⟩
  · exact sound.uses use earlier

/-- A machine whose last use of a name was this one, by code that stands where it is. -/
private def JustUsed (course : Course) (scopes : List LexicalScope) (use : Use)
    (machine : Machine) : Prop :=
  (∃ earlier, machine.uses = use :: earlier) ∧ course.Fits machine.store scopes use.env ∧
    course.At scopes machine

private theorem noteUse {code : Code} {id : NodeId} {name : String}
    (stands : Stands course.program scopes code) (mentioned : (id, name) ∈ code.mentions) :
    Upholds course setting (course.At scopes) (Run.noteUse id name)
      fun use machine => (use.id = id ∧ use.name = name) ∧ JustUsed course scopes use machine :=
  fun _ sound fits =>
    ⟨sound_afterUse sound stands mentioned fits, ⟨rfl, rfl⟩, ⟨_, rfl⟩, fits, fits⟩

/-- Reading a name is due to the code that mentions it. -/
protected theorem lookup {code : Code} {id : NodeId} {name : String} (location : Location)
    (stands : Stands course.program scopes code) (mentioned : (id, name) ∈ code.mentions) :
    Upholds course setting (course.At scopes) (Run.lookup setting id name location)
      fun _ => course.At scopes := by
  refine .bind (noteUse stands mentioned) fun use => .assuming ?_
  rintro ⟨rfl, rfl⟩
  refine .bind (.inspect _) fun found => ?_
  split
  · exact .pure fun _ holds => holds.2.2.2
  · rintro machine sound ⟨unbound, ⟨earlier, noted⟩, fits, _⟩
    exact ⟨sound, .unbound noted stands mentioned fits unbound.symm⟩

/-- An assignment is due to the code that is one, and binds nothing for good. -/
protected theorem assign {id : NodeId} {name : String} {expr : Expr} {place : Location}
    (value : Value) (location : Location)
    (stands : Stands course.program scopes (.expression (.assign id name expr place))) :
    Safe course setting (course.At scopes) (Run.assign setting id name value location) := by
  intro machine sound fits
  have noted := sound_afterUse sound stands (List.mem_singleton.mpr rfl) fits
  rw [assign_eq]
  cases targeted : assignTarget setting ⟨id, name, machine.env⟩ machine.store with
  | ok target =>
      have marked (scope : Scope) (found : machine.store.scope? target = some scope) :=
        Store.mark_of_checkAssign (checkAssign_of_assignTarget targeted) found
      have keeps : machine.store.Keeps machine.env []
          (machine.store.define target name value false) := .define _ _ _ _ _ (.inr marked)
      have finals := sound.store.finals.define target name value false fun final => by cases final
      exact ⟨noted.of_store keeps (sound.store.of_keeps keeps rfl rfl finals) rfl rfl, trivial⟩
  | error fault => exact ⟨noted, .unassignable rfl stands fits targeted⟩

/-- A method that gets its receiver closes over a scope that holds it. -/
protected theorem bindMethod (method : MethodObject) (receiver : Value) :
    Upholds course setting (fun machine => course.Awaits machine.store method)
      (Run.bindMethod method receiver)
      fun function machine => course.Closes machine.store function.decl function.closure := by
  rintro machine sound ⟨implicit, scopes, stands, fits⟩
  refine (Upholds.newScope method.closure (.single receiver implicit)).bind (fun scope => ?_)
    machine sound fits
  refine .pure fun later opened => ⟨.opened method.receiver :: scopes, stands, ?_⟩
  have deferred := opened.defer
  rw [List.map_cons, List.map_map] at deferred
  exact deferred

/-- Making a function upholds soundness, if the function closes over scopes it is written in. -/
protected theorem newFunction (function : FunctionObject) :
    Safe course setting
      (fun machine => course.Closes machine.store function.decl function.closure)
      (Run.create (·.newFunction function)) := by
  intro machine sound closes
  have keeps : machine.store.Keeps machine.env [] (machine.store.newFunction function).2 :=
    .of_scopes_eq rfl
  exact ⟨sound.of_store keeps (sound.store.newFunction function closes) rfl rfl, trivial⟩

/-- Making a function of a method and its receiver upholds soundness, if the method awaits a
receiver where it is written. -/
protected theorem boundMethod (method : MethodObject) (receiver : Value) :
    Safe course setting (fun machine => course.Awaits machine.store method)
      (Run.boundMethod method receiver) :=
  .bind (.bindMethod method receiver) fun function =>
    .bind (.newFunction function) fun _ => .pure fun _ _ => trivial

/-- Checking whether a field may be used upholds soundness. -/
protected theorem checkAccess (slot : FieldSlot) (name : String) (location : Location) :
    Safe course setting before (Run.checkAccess slot name location) := by
  refine .bind .get fun _ => ?_
  split
  · exact .fail rfl _
  · exact .pure fun _ _ => trivial

/-- Noting the use of a field upholds soundness. -/
protected theorem noteField (object : ObjectRef) (name : String) (slot : FieldSlot)
    (kind : FieldUseKind) :
    Safe course setting before (Run.noteField object name slot kind) :=
  fun _ sound _ => ⟨sound.congr rfl rfl rfl, trivial⟩

/-- Setting a field upholds soundness. -/
protected theorem writeField (object : ObjectRef) (name : String) (slot : FieldSlot)
    (kind : FieldUseKind) :
    Safe course setting before (Run.writeField object name slot kind) :=
  .bind (.changeData (fun _ => rfl) (fun _ => rfl) fun _ => rfl) fun _ => .noteField _ _ _ _

/-- A method read from an object is code of the program. -/
protected theorem property (target : Value) (name : String) (location : Location) :
    Safe course setting before (Run.property target name location) := by
  unfold Run.property
  split
  · refine .bind .get fun machine => ?_
    dsimp only
    split
    · exact .bind (.checkAccess _ _ _) fun _ =>
        .bind (.noteField _ _ _ _) fun _ => .pure fun _ _ => trivial
    · split
      · rename_i method found
        refine (Upholds.boundMethod method _).strengthen fun later sound holds => ?_
        obtain ⟨object, _, inherited⟩ := Option.bind_eq_some_iff.mp found
        rw [holds.1] at inherited
        exact sound.store.method? inherited
      · exact .fail rfl _
  · refine .bind (.inspect _) fun native => ?_
    split
    · split
      · exact .pure fun _ _ => trivial
      · exact .fail rfl _
    · exact .fail rfl _
  · split
    · exact .bind (.inspect _) fun _ => .pure fun _ _ => trivial
    · exact .fail rfl _
  · split
    · exact .pure fun _ _ => trivial
    · exact .fail rfl _
  · exact .fail rfl _

/-- Setting a property upholds soundness. -/
protected theorem setProperty (target : Value) (name : String) (value : Value)
    (location : Location) :
    Safe course setting before (Run.setProperty target name value location) := by
  unfold Run.setProperty
  split
  · refine .bind (.inspect _) fun object => ?_
    split
    · unfold Run.setField
      split
      · refine .bind (.checkAccess _ _ _) fun _ => ?_
        split
        · exact .fail rfl _
        · exact .writeField _ _ _ _
      · exact .writeField _ _ _ _
    · exact .fail rfl _
  · exact .fail rfl _

/-- A method of a superclass is code of the program. That there is none where one is
asked for is due to the code that asks. -/
protected theorem superMethod {id : NodeId} {method : String} (location : Location)
    (stands : Stands course.program scopes (.expression (.superRef id method location))) :
    Safe course setting (course.At scopes) (Run.superMethod setting id method location) := by
  refine .bind (noteUse stands (List.mem_singleton.mpr rfl)) fun use => .assuming ?_
  rintro ⟨rfl, named⟩
  refine .bind .get fun machine => ?_
  have missing : Safe course setting
      (fun later => machine = later ∧ JustUsed course scopes use later)
      (Run.fail (.undefinedVariable "super") location : Run Value) := by
    rintro later sound ⟨_, ⟨earlier, noted⟩, _⟩
    exact ⟨sound, .noSuper noted stands named⟩
  dsimp only
  split
  · split
    · split
      · rename_i found inherited
        refine (Upholds.boundMethod found _).strengthen fun later sound holds => ?_
        rw [holds.1] at inherited
        exact sound.store.method? inherited
      · exact .fail rfl _
    · exact missing
  · exact missing

/-- Looking for a module upholds soundness and leaves the machine where it is. -/
protected theorem moduleNamed (name : String) (location : Location) :
    Upholds course setting before (Run.moduleNamed setting name location) fun _ => before := by
  unfold Run.moduleNamed
  split
  · refine .bind (.inspect _) fun native => ?_
    split
    · exact .pure fun _ holds => holds.2
    · exact .fail rfl _
  · exact .fail rfl _

/-- Calling a native function upholds soundness. -/
protected theorem callNative (binding : NativeBinding) (arguments : List Value)
    (location : Location) :
    Safe course setting before (Run.callNative setting binding arguments location) := by
  unfold Run.callNative
  extract_lets fits
  split
  · exact .fail rfl _
  · refine .bind (.moduleNamed _ _) fun found => ?_
    dsimp only
    split
    · rename_i fault _
      exact .fail (by cases fault <;> rfl) _
    · refine .bind (.createData (fun store => store.scopes_invoke _ _ _ _)
        (fun store => (store.code_invoke _ _ _ _).1) fun store => (store.code_invoke _ _ _ _).2)
        fun answer => ?_
      split
      · exact .pure fun _ _ => trivial
      · exact .fail rfl _

/-- Printing upholds soundness. -/
protected theorem print (value : Value) : Safe course setting before (Run.print value) :=
  fun _ sound _ => ⟨sound.congr rfl rfl rfl, trivial⟩

/-- Counting the rounds of a loop upholds soundness and leaves the machine where it is. -/
protected theorem roundsOf (count : Value) (location : Location) :
    Upholds course setting before (Run.roundsOf count location) fun _ => before := by
  unfold Run.roundsOf
  split
  · exact .pure fun _ holds => holds
  · exact .fail rfl _

/-- Setting an element of an array upholds soundness. -/
protected theorem setElement (target index value : Value) (location : Location) :
    Safe course setting before (Run.setElement target index value location) := by
  refine .bind (.inspect _) fun place =>
    .bind (.orFail location fun machine holds fault failed => ?_)
    fun _ => .changeData (fun _ => rfl) (fun _ => rfl) fun _ => rfl
  exact RuntimeFault.isPlain_of_isOperand
    (Value.isOperand_of_elementPlace (holds.1.symm.trans failed))

end Run.Upholds

end Scriptlet
