import Scriptlet.Proofs.Run.Calling

/-!
# Runs stay in the scopes of the text

Every expression and statement of a run is code of the program, evaluated in a chain of scopes that
is what is said of the scopes it is written in (`Run.upheld_routines`). This holds of any number of
successive runs on the same globals, and of any recorded distances.
-/

namespace Scriptlet

namespace Course.At

variable {course : Course} {scope : LexicalScope} {outer : List LexicalScope} {machine : Machine}

private theorem loosen (fits : course.At (scope :: outer) machine)
    (changes : List (String × Bool)) :
    course.At (scope.loosen changes :: outer) machine :=
  Fits.replaceHead fits fun _ _ describes => describes.mono rfl (List.Subset.refl _)
    (List.subset_append_left _ _) rfl

/-- The same names may be bound for good once more. -/
theorem reloosen {changes : List (String × Bool)}
    (fits : course.At ((scope.loosen changes).loosen changes :: outer) machine) :
    course.At (scope.loosen changes :: outer) machine := by
  refine Fits.replaceHead fits fun _ _ describes => describes.mono rfl (List.Subset.refl _) ?_ rfl
  exact List.append_subset.mpr ⟨List.Subset.refl _, List.subset_append_right _ _⟩

/-- A name that was bound was perhaps bound. -/
theorem loosen_of_bind {name : String} {isFinal : Bool}
    (fits : course.At (scope.bind name isFinal :: outer) machine) :
    course.At (scope.loosen [(name, isFinal)] :: outer) machine := by
  refine Fits.replaceHead fits fun _ _ describes => describes.mono rfl
    (List.subset_cons_self _ _) ?_ rfl
  intro other member
  cases isFinal with
  | false => exact List.mem_append_left _ (List.mem_filter.mp member).1
  | true =>
      rcases List.mem_cons.mp member with rfl | known
      · exact List.mem_append_right _ (by simp)
      · exact List.mem_append_left _ known

/-- The initial value of a variable is part of its declaration. -/
theorem pending (fits : course.At (scope :: outer) machine) (name : Option String) :
    course.At ({ scope with pending := name } :: outer) machine :=
  Fits.replaceHead fits fun _ _ describes => describes.mono rfl (List.Subset.refl _)
    (List.Subset.refl _) rfl

/-- What comes before code in the text says nothing of a scope of a run. -/
theorem after {statement : Statement} (fits : course.At (scope.settle statement :: outer) machine) :
    course.At (scope.after statement :: outer) machine :=
  Fits.replaceHead fits fun _ _ describes => ⟨describes.tag, describes.bound, describes.finals⟩

end Course.At

namespace Run

namespace Upholds

variable {course : Course} {setting : Setting} {scope : LexicalScope} {outer : List LexicalScope}
  {statement : Statement} {step : Run Completion}

/-- After a statement that is no declaration only what it perhaps binds is known. -/
theorem settleLoose (undeclared : statement.declares? = none) (leaves : Leaves statement.binds step)
    (safe : Safe course setting (course.At (scope :: outer)) step) :
    Upholds course setting (course.At (scope :: outer)) step fun completion machine =>
      course.At (scope.loosen statement.binds :: outer) machine ∧
        (completion = .normal → course.At (scope.after statement :: outer) machine) := by
  intro machine sound fits
  refine (safe machine sound fits).imp fun completion later result _ _ => ?_
  have kept := leaves.of_ok result
  have loose : course.At (scope.loosen statement.binds :: outer) later := by
    unfold Course.At
    rw [kept.env]
    exact Course.Fits.loosen fits kept.store
  refine ⟨loose, fun _ => .after ?_⟩
  unfold LexicalScope.settle
  rw [undeclared]
  exact loose

/-- After a declaration its name is known to be bound. -/
theorem settleBound {name : String} {hoisted : Hoisted}
    (declared : statement.declares? = some (name, hoisted))
    (upholds : Upholds course setting (course.At (scope :: outer)) step
      fun _ => course.At (scope.bind name hoisted.isFinal :: outer)) :
    Upholds course setting (course.At (scope :: outer)) step fun completion machine =>
      course.At (scope.loosen statement.binds :: outer) machine ∧
        (completion = .normal → course.At (scope.after statement :: outer) machine) := by
  refine upholds.mono (fun _ _ fits => fits) fun completion machine _ bound =>
    ⟨?_, fun _ => .after ?_⟩
  · rw [Statement.binds_of_declares declared]
    exact bound.loosen_of_bind
  · unfold LexicalScope.settle
    rw [declared]
    exact bound

end Upholds

namespace Routines.Upheld

variable {course : Course} {setting : Setting} {inner : Routines} {scope : LexicalScope}
  {scopes outer : List LexicalScope}

/-- The parts of an expression are evaluated in the scopes of the expression. -/
theorem evaluatePart (upheld : inner.Upheld course setting) {expr part : Expr}
    (stands : Stands course.program scopes (.expression expr)) (member : part ∈ expr.parts) :
    Upholds course setting (course.At scopes) (inner.evaluate part) fun _ => course.At scopes :=
  upheld.evaluate (.part stands member)

private theorem evaluateStep (upheld : inner.Upheld course setting) (contained : inner.Contained)
    {expr : Expr} (stands : Stands course.program scopes (.expression expr)) :
    Safe course setting (course.At scopes) (Run.evaluateStep setting inner expr) := by
  have inside (part : Expr) (member : part ∈ expr.parts) := upheld.evaluatePart stands member
  cases expr with
  | literal value location => exact .pure fun _ _ => trivial
  | array elements location =>
      exact .bind (.valuesOf inside) fun _ =>
        .bind (.createData (fun _ => rfl) (fun _ => rfl) fun _ => rfl) fun _ =>
          .pure fun _ _ => trivial
  | var id name location => exact (Upholds.lookup _ stands (List.mem_singleton.mpr rfl)).safe
  | assign id name value location =>
      exact .bind (inside value (by simp [Expr.parts])) fun _ =>
        .bind (.assign _ _ stands) fun _ => .pure fun _ _ => trivial
  | binary op left right location =>
      refine .bind (inside left (by simp [Expr.parts])) fun _ =>
        .bind (inside right (by simp [Expr.parts])) fun _ => .bind (.inspect _) fun _ => ?_
      exact (Upholds.orFail _ fun _ holds _ failed =>
        RuntimeFault.isPlain_of_isOperand
          (Value.isOperand_of_binary (holds.1.symm.trans failed))).safe
  | logical op left right location =>
      refine .bind (inside left (by simp [Expr.parts])) fun value => ?_
      split
      · exact .pure fun _ _ => trivial
      · exact .bind (inside right (by simp [Expr.parts])) fun _ => .pure fun _ _ => trivial
  | bitwise op left right location =>
      exact .bind (inside left (by simp [Expr.parts])) fun _ =>
        .bind (inside right (by simp [Expr.parts])) fun _ =>
          (Upholds.orFail _ fun _ _ _ failed =>
            RuntimeFault.isPlain_of_isOperand (Value.isOperand_of_bitwise failed)).safe
  | unary op operand location =>
      exact .bind (inside operand (by simp [Expr.parts])) fun _ =>
        (Upholds.orFail _ fun _ _ _ failed =>
          RuntimeFault.isPlain_of_isOperand (Value.isOperand_of_unary failed)).safe
  | prefixCall id name operand location =>
      exact .bind (.lookup _ stands (List.mem_singleton.mpr rfl)) fun _ =>
        .bind (inside operand (by simp [Expr.parts])) fun _ => upheld.call contained _ _ _
  | infixCall id name left right location =>
      exact .bind (.lookup _ stands (List.mem_singleton.mpr rfl)) fun _ =>
        .bind (inside left (by simp [Expr.parts])) fun _ =>
          .bind (inside right (by simp [Expr.parts])) fun _ => upheld.call contained _ _ _
  | ternary condition thenBranch elseBranch location =>
      refine .bind (inside condition (by simp [Expr.parts])) fun value => ?_
      split
      · exact (inside thenBranch (by simp [Expr.parts])).safe
      · exact (inside elseBranch (by simp [Expr.parts])).safe
  | elvis value fallback location =>
      refine .bind (inside value (by simp [Expr.parts])) fun first => ?_
      split
      · exact .pure fun _ _ => trivial
      · exact (inside fallback (by simp [Expr.parts])).safe
  | call callee arguments location =>
      exact .bind (inside callee (by simp [Expr.parts])) fun _ =>
        .bind (.valuesOf fun expr member => inside expr (List.mem_cons_of_mem _ member)) fun _ =>
          upheld.call contained _ _ _
  | get object name location =>
      exact .bind (inside object (by simp [Expr.parts])) fun _ => .property _ _ _
  | set object name value location =>
      exact .bind (inside object (by simp [Expr.parts])) fun _ =>
        .bind (inside value (by simp [Expr.parts])) fun _ =>
          .bind (.setProperty _ _ _ _) fun _ => .pure fun _ _ => trivial
  | getIndex target index location =>
      refine .bind (inside target (by simp [Expr.parts])) fun _ =>
        .bind (inside index (by simp [Expr.parts])) fun _ => .bind (.inspect _) fun _ => ?_
      exact (Upholds.orFail _ fun _ holds _ failed =>
        RuntimeFault.isPlain_of_isOperand
          (Value.isOperand_of_elementAt (holds.1.symm.trans failed))).safe
  | setIndex target index value location =>
      exact .bind (inside target (by simp [Expr.parts])) fun _ =>
        .bind (inside index (by simp [Expr.parts])) fun _ =>
          .bind (inside value (by simp [Expr.parts])) fun _ =>
            .bind (.setElement _ _ _ _) fun _ => .pure fun _ _ => trivial
  | grouping grouped location => exact (inside grouped (by simp [Expr.parts])).safe
  | thisRef id location => exact (Upholds.lookup _ stands (List.mem_singleton.mpr rfl)).safe
  | superRef id method location => exact .superMethod location stands

/-- The body of a loop may run again in the scope it leaves behind. -/
theorem executeBody (upheld : inner.Upheld course setting) {statement body : Statement}
    {condition : Expr} (stands : Stands course.program (scope :: outer) (.statement statement))
    (looped : statement.loop? = some (condition, body)) :
    Upholds course setting (course.At (scope.loosen body.binds :: outer)) (inner.execute body)
      fun _ => course.At (scope.loosen body.binds :: outer) :=
  (upheld.execute (.loopBody stands looped)).mono (fun _ _ fits => fits)
    fun _ _ _ ended => ended.1.reloosen

/-- A jump that a test cannot answer is written in its body. -/
protected theorem testResult {before : Machine → Prop} {body : List Statement} {place : Location}
    {completion : Completion} (name : String) (location : Location)
    (stands : Stands course.program (.opened (.test body place) :: outer) (.statements body))
    (inside : completion.Within (jumpsAll body)) :
    Safe course setting before (Run.testResult name completion location) := by
  have recorded (passed : Bool) :
      Safe course setting before (Run.recordTest name passed location) := by
    have noted : Safe course setting before (modify fun machine =>
        { machine with tests := machine.tests.push ⟨name, passed⟩ } : Run Unit) :=
      fun _ sound _ => ⟨sound.congr rfl rfl rfl, trivial⟩
    refine .bind noted fun _ => ?_
    split
    · exact .pure fun _ _ => trivial
    · exact .fail rfl _
  have blamed {jump : Jump} (jumped : completion.jump? = some jump) (other : jump ≠ .returning) :
      Safe course setting before (Run.fail (.illegalControlFlow jump) location : Run Completion) :=
    fun _ sound _ => ⟨sound, .jump stands rfl (inside jump jumped) other⟩
  cases completion with
  | normal => exact recorded true
  | returning value => exact recorded _
  | breaking => exact blamed rfl (by decide)
  | continuing => exact blamed rfl (by decide)

/-- Statements inside of another one run in a new scope inside of its scope. -/
theorem executeOpened (upheld : inner.Upheld course setting) (contained : inner.Contained)
    {statement : Statement} {tag : ScopeTag} {body : List Statement}
    (stands : Stands course.program scopes (.statement statement))
    (opens : statement.opens? = some (tag, body)) (nothing : tag.implicit = [])
    (machine : Machine) :
    Upholds course setting (fun later => machine = later ∧ course.At scopes later)
      (Run.within machine.env tag [] (inner.executeAll body))
      fun completion _ => completion.Within (jumpsAll body) := by
  have ran := (upheld.executeAll (.opened stands opens)).yielding (contained.executeAll body)
  refine .strengthen (.within machine.env (.empty nothing)
    (ran.mono (fun _ _ fits => fits) fun _ _ _ ended => ended.1)) ?_
  rintro later _ ⟨rfl, fits⟩
  exact fits

private theorem executeStep (upheld : inner.Upheld course setting) (framed : inner.Framed)
    (contained : inner.Contained) {statement : Statement}
    (stands : Stands course.program (scope :: outer) (.statement statement)) :
    Upholds course setting (course.At (scope :: outer)) (Run.executeStep setting inner statement)
      fun completion machine =>
        course.At (scope.loosen statement.binds :: outer) machine ∧
          (completion = .normal → course.At (scope.after statement :: outer) machine) := by
  have value {expr : Expr} (member : expr ∈ statement.values) :=
    upheld.evaluate (.value stands member)
  have leaves : Leaves statement.binds (Run.executeStep setting inner statement) :=
    framed.executeStep statement
  cases statement with
  | expression expr location =>
      refine .settleLoose rfl leaves ?_
      exact .bind (value (List.mem_singleton.mpr rfl)) fun _ => .pure fun _ _ => trivial
  | varDecl name initial isFinal location =>
      refine .settleBound rfl ?_
      have bound : (name, isFinal) ∈ scope.tag.binds course.program :=
        stands.binds_subset (by simp [Stands.statementsOf, Statement.binds])
      have evaluated : Upholds course setting (course.At (scope :: outer))
          (valueOrNil inner.evaluate initial) fun _ => course.At (scope :: outer) := by
        cases initial with
        | none => exact .pure fun _ fits => fits
        | some expr =>
            exact (upheld.evaluate (.initial stands)).mono
              (fun _ _ fits => Course.At.pending fits (some name))
              (fun _ _ _ fits => Course.At.pending fits scope.pending)
      exact .bind evaluated fun _ => .bind (.define _ bound) fun _ => .pure fun _ fits => fits
  | block body location =>
      refine .settleLoose rfl leaves ?_
      exact .bind .get fun machine =>
        (upheld.executeOpened contained stands rfl rfl machine).safe
  | ifElse condition thenBranch elseBranch location =>
      refine .settleLoose rfl leaves ?_
      refine .bind (value (List.mem_singleton.mpr rfl)) fun chosen => ?_
      split
      · exact (upheld.execute (.branch stands (List.mem_cons_self ..))).safe
      · split
        · exact (upheld.execute (.branch stands (by simp [Statement.branches]))).safe
        · exact .pure fun _ _ => trivial
  | whileLoop condition body location =>
      refine .settleLoose rfl leaves ?_
      refine .strengthen (.untilDone ?_ _) fun _ _ fits => fits.loosen body.binds
      refine .bind (upheld.evaluate (.condition stands rfl)) fun chosen => ?_
      split
      · exact .bind (upheld.executeBody stands rfl) fun _ => .pure fun _ fits => fits
      · exact .pure fun _ fits => fits
  | doWhile body condition location =>
      refine .settleLoose rfl leaves ?_
      refine .strengthen (.untilDone ?_ _) fun _ _ fits => fits.loosen body.binds
      refine .bind (upheld.executeBody stands rfl) fun completion => ?_
      split
      · exact .pure fun _ fits => fits
      · refine .bind (upheld.evaluate (.condition stands rfl)) fun chosen => ?_
        split
        · exact .pure fun _ fits => fits
        · exact .pure fun _ fits => fits
  | repeatLoop count body location =>
      refine .settleLoose rfl leaves ?_
      have counted := (upheld.evaluate (.condition stands rfl)).strengthen
        fun _ _ fits => Course.At.loosen fits body.binds
      refine .bind counted fun _ => .bind (.roundsOf _ _) fun _ => .times ?_ _
      exact .bind (upheld.executeBody stands rfl) fun _ => .pure fun _ fits => fits
  | function decl =>
      refine .settleBound rfl ?_
      exact .bind (.declareFunction stands) fun _ => .pure fun _ fits => fits
  | classDecl decl =>
      refine .settleBound rfl ?_
      exact .bind (.declareClass stands) fun _ => .pure fun _ fits => fits
  | returning result location =>
      refine .settleLoose rfl leaves ?_
      have evaluated : Upholds course setting (course.At (scope :: outer))
          (valueOrNil inner.evaluate result) fun _ => course.At (scope :: outer) := by
        refine upheld.valueOrNil fun expr given => .value stands ?_
        subst given
        exact List.mem_singleton.mpr rfl
      exact .bind evaluated fun _ => .pure fun _ _ => trivial
  | breaking location => exact .settleLoose rfl leaves (.pure fun _ _ => trivial)
  | continuing location => exact .settleLoose rfl leaves (.pure fun _ _ => trivial)
  | print expr location =>
      refine .settleLoose rfl leaves ?_
      exact .bind (value (List.mem_singleton.mpr rfl)) fun _ =>
        .bind (.print _) fun _ => .pure fun _ _ => trivial
  | test name body location =>
      refine .settleLoose rfl leaves ?_
      refine .bind .get fun machine =>
        .bind (upheld.executeOpened contained stands rfl rfl machine) fun completion => ?_
      exact .strengthen (.assuming (Routines.Upheld.testResult name location (.opened stands rfl)))
        fun _ _ inside => ⟨inside, trivial⟩
  | moduleDecl name location =>
      refine .settleBound rfl ?_
      exact .bind (.declareModule stands) fun _ => .pure fun _ fits => fits
  | nativeFunction moduleName name params location =>
      refine .settleBound rfl ?_
      exact .bind (.declareNative _ stands) fun _ => .pure fun _ fits => fits
  | extension id className decl location =>
      refine .settleLoose rfl leaves ?_
      exact .bind (.declareExtension stands) fun _ => .pure fun _ _ => trivial

private theorem executeAllStep (upheld : inner.Upheld course setting) {statements : List Statement}
    (stands : Stands course.program scopes (.statements statements)) :
    Safe course setting (course.At scopes) (Run.executeAllStep inner statements) := by
  cases statements with
  | nil => exact .pure fun _ _ => trivial
  | cons statement rest =>
      obtain ⟨scope, outer, rfl⟩ := List.exists_cons_of_ne_nil stands.ne_nil
      refine .bind (upheld.execute (.first stands)) fun completion => ?_
      split
      · exact (upheld.executeAll (.rest stands)).strengthen fun _ _ ended => ended.2 rfl
      · exact .pure fun _ _ => trivial

end Routines.Upheld

/-- Runs uphold soundness, however deep they nest. -/
theorem upheld_routines (course : Course) (setting : Setting) (depth : Nat) :
    (routines setting depth).Upheld course setting := by
  induction depth with
  | zero => exact ⟨fun _ => .exhausted, fun _ => .exhausted, fun _ => .exhausted⟩
  | succ depth ih =>
      have framed := framed_routines setting depth
      have contained := contained_routines setting depth
      refine ⟨@fun _ expr stands => ?_, fun stands => ?_, fun stands => ih.executeAllStep stands⟩
      · have leaves : Leaves [] (Run.evaluateStep setting (routines setting depth) expr) :=
          framed.evaluateStep expr
        exact .keepAt (.noting _ leaves) (.noting stands leaves (ih.evaluateStep contained stands))
      · exact ih.executeStep framed contained stands

/-- Executing what is left of a program upholds soundness, statement by statement. -/
theorem upholds_interpretBy {course : Course} {setting : Setting} {inner : Routines}
    (upheld : inner.Upheld course setting) (contained : inner.Contained) {scope : LexicalScope}
    {outer : List LexicalScope} {rest : Program}
    (stands : Stands course.program (scope :: outer) (.statements rest))
    (jumps : jumpsAll rest ⊆ jumpsAll course.program) :
    Safe course setting (course.At (scope :: outer)) (interpretBy inner.execute rest) := by
  induction rest generalizing scope with
  | nil => exact .pure fun _ _ => trivial
  | cons statement rest ih =>
      rw [jumpsAll] at jumps
      obtain ⟨first, others⟩ := List.append_subset.mp jumps
      refine .bind ((upheld.execute (.first stands)).yielding (contained.execute statement))
        fun completion => .assuming fun inside => ?_
      split
      · rename_i normal
        refine (ih (.rest stands) others).strengthen fun _ _ ended => ended.2 ?_
        cases completion <;> first | rfl | cases normal
      · rename_i jump jumped
        exact fun _ sound _ => ⟨sound, .escape (first (inside jump jumped))⟩

end Run

end Scriptlet
