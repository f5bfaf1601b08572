import Scriptlet.Proofs.Resolution.Coverage
import Scriptlet.Proofs.Resolution.Reflecting

/-!
# The analysis comes to all code of a program

If a program passes the analysis, then every piece of its code has passed it on its own (`Visited`),
in scopes that reflect what is said of the scopes the code stands in (`Reflected`,
`visited_of_stands`).
-/

namespace Scriptlet

/-- The analysis of a piece of code. -/
def Code.resolve : Code → Resolve Unit
  | .expression expr => Resolve.expression expr
  | .statement single => Resolve.statement single
  | .statements listed => Resolve.statements listed

/-- Scopes of the analysis that reflect scopes of the text. -/
abbrev Reflected (program : Program) (depth : Nat) :
    List LexicalScope → List StaticScope → Prop :=
  List.Forall₂ (·.Reflects program depth ·)

namespace Reflected

variable {program : Program} {depth : Nat} {scope other : LexicalScope}
  {scopes outer : List LexicalScope} {before after : Analysis} {nodes : List NodeId}
  {changes : List (String × Bool)}

/-- Scopes of the analysis that reflect those of the text are scopes of the same constructs. -/
theorem map_tag {statics : List StaticScope} (reflected : Reflected program depth scopes statics) :
    statics.map (·.tag) = scopes.map (·.tag) := by
  induction reflected with
  | nil => rfl
  | cons reflects _ ih => rw [List.map_cons, List.map_cons, reflects.tag, ih]

private theorem quietly {statics later : List StaticScope}
    (reflected : Reflected program depth scopes statics)
    (becomes : statics.Forall₂ (·.Becomes [] ·) later) : Reflected program depth scopes later := by
  induction reflected generalizing later with
  | nil =>
      cases becomes
      exact .nil
  | cons head _ ih =>
      cases becomes with
      | cons next rest => exact .cons (head.quiet next) (ih rest)

/-- What is said of the innermost scope changes with it, and of no other. -/
theorem later (reflected : Reflected program before.functionDepth (scope :: outer) before.scopes)
    (later : before.Later nodes changes after)
    (head : ∀ static learned, (∀ name, before.flags name = static.flags name) →
      (∀ name, after.flags name = learned.flags name) →
      scope.Reflects program before.functionDepth static → static.Becomes changes learned →
      other.Reflects program before.functionDepth learned) :
    Reflected program after.functionDepth (other :: outer) after.scopes := by
  rw [later.functionDepth]
  have scopes := later.scopes
  have first : ∀ static rest, before.scopes = static :: rest →
      ∀ name, before.flags name = static.flags name := by
    intro static rest shape name
    rw [Analysis.flags, shape]
  have last : ∀ learned rest, after.scopes = learned :: rest →
      ∀ name, after.flags name = learned.flags name := by
    intro learned rest shape name
    rw [Analysis.flags, shape]
  generalize before.scopes = earlier at reflected scopes first
  generalize after.scopes = reached at scopes last ⊢
  cases reflected with
  | cons reflects rest =>
      cases scopes with
      | cons becomes around =>
          exact .cons (head _ _ (first _ _ rfl) (last _ _ rfl) reflects becomes)
            (quietly rest around)

/-- Scopes go on reflecting those of the text where no names were declared. -/
theorem quiet (reflected : Reflected program before.functionDepth scopes before.scopes)
    (later : before.Later nodes [] after) :
    Reflected program after.functionDepth scopes after.scopes := by
  rw [later.functionDepth]
  exact quietly reflected later.scopes.forall₂

/-- Less is said of scopes that are deferred, at any depth. -/
theorem defer {statics : List StaticScope} (reflected : Reflected program depth scopes statics)
    (settled : Stands.Settled scopes) (deeper : Nat) :
    Reflected program deeper (scopes.map (·.defer)) statics := by
  induction reflected with
  | nil => exact .nil
  | cons head _ ih =>
      obtain ⟨inner, around⟩ := List.forall_mem_cons.mp settled
      exact .cons (head.defer inner deeper) (ih around)

/-- What is said of deferred scopes is said at any depth. -/
theorem redefer {statics : List StaticScope}
    (reflected : Reflected program depth (scopes.map (·.defer)) statics) (deeper : Nat) :
    Reflected program deeper (scopes.map (·.defer)) statics := by
  have again := reflected.defer (.defer scopes) deeper
  rw [List.map_map] at again
  exact again

private theorem enter (reflected : Reflected program before.functionDepth outer before.scopes)
    {tag : ScopeTag} (nested : tag ≠ .globals) (nothing : tag.implicit = [])
    (body : List Statement) :
    Reflected program (before.enter tag body).functionDepth (.opened tag :: outer)
      (before.enter tag body).scopes := by
  refine .cons (.opened nested rfl rfl (fun _ => .inl rfl) fun name member => ?_) reflected
  rw [nothing] at member
  cases member

private theorem holding (reflected : Reflected program before.functionDepth outer before.scopes)
    {tag : ScopeTag} {name : String} (nested : tag ≠ .globals)
    (one : tag.implicit = [(name, true)]) :
    Reflected program (before.holding tag name).functionDepth (.opened tag :: outer)
      (before.holding tag name).scopes := by
  refine .cons (.opened nested rfl rfl (fun query => ?_) fun query member => ?_) reflected
  · by_cases hit : name = query
    · subst hit
      exact .inr ⟨true, by simp [one], by simp [StaticScope.flags, Table.find?]⟩
    · exact .inl (by simp [StaticScope.flags, Table.find?, hit])
  · obtain rfl : query = name := by simpa [one] using member
    exact ⟨true, by simp [StaticScope.flags, Table.find?]⟩

end Reflected

/-- A piece of code has passed the analysis of a program, from one state to another. -/
structure Visited (program : Program) (final : Analysis) (scopes : List LexicalScope)
    (code : Code) (before after : Analysis) : Prop where
  passed : code.resolve before = .ok () after
  reflected : Reflected program before.functionDepth scopes before.scopes
  deep : ∀ scope ∈ scopes, scope.deferred = true → 0 < before.functionDepth
  unlooped : ∀ listed scope outer, code = .statements listed → scopes = scope :: outer →
    scope.tag.isBody = true → before.loopDepth = 0
  precedes : after.Precedes final

/-- The body of a function, wherever the function stands. -/
theorem visited_function {program : Program} {final before after : Analysis}
    {outer : List LexicalScope} {context : BodyContext} {decl : FunctionDecl} {done : Unit}
    {depth : Nat} (passed : Resolve.function context decl before = .ok done after)
    (reflected : Reflected program depth (outer.map (·.defer)) before.scopes)
    (precedes : after.Precedes final) :
    ∃ start stop, Visited program final (.opened (.body decl) :: outer.map (·.defer))
      (.statements decl.body) start stop := by
  rw [Resolve.function_eq] at passed
  obtain ⟨called, entered, rfl⟩ := Resolve.inBody_eq_ok.mp passed
  obtain ⟨inner, deferred, rfl⟩ := Resolve.deferred_eq_ok.mp entered
  obtain ⟨inside, hoisted, rfl⟩ := Resolve.inScope_hoist_eq_ok.mp deferred
  obtain ⟨_, start, bound, analysed⟩ := bind_eq_ok.mp hoisted
  have later := Resolve.Steps.parameters decl.params _ _ _ bound
  refine ⟨start, inside, analysed, ?_, ?_, fun _ _ _ _ _ _ => later.loopDepth,
    ⟨precedes.visits, precedes.walk⟩⟩
  · have entering : Reflected program (before.functionDepth + 1) (outer.map (·.defer))
        before.scopes := reflected.redefer _
    have scopes := later.scopes
    rw [later.functionDepth]
    change Reflected program (before.functionDepth + 1) _ start.scopes
    unfold Analysis.enter at scopes
    dsimp only at scopes
    generalize start.scopes = reached at scopes ⊢
    cases scopes with
    | cons becomes around =>
        refine .cons
          (.opened nofun becomes.tag becomes.level (fun name => ?_) fun name member => ?_)
          (Reflected.quietly entering around)
        · rcases becomes.flags name with same | ⟨isFinal, listed, flagged⟩
          · exact .inl same
          · exact .inr ⟨isFinal, listed, flagged⟩
        · simp [ScopeTag.implicit] at member
  · intro scope member deferred
    rw [later.functionDepth]
    exact Nat.succ_pos _

/-- The inside of a class, wherever the class stands. -/
theorem reflected_classScopes {program : Program} {before after : Analysis}
    {outer : List LexicalScope} {decl : ClassDecl} {step : Resolve Unit} {done : Unit}
    (passed : Resolve.classScopes decl step before = .ok done after)
    (reflected : Reflected program before.functionDepth (outer.map (·.defer)) before.scopes) :
    ∃ start stop, step start = .ok () stop ∧ stop.Precedes after ∧
      start.functionDepth = before.functionDepth ∧
      Reflected program start.functionDepth
        (.opened (.thisOf decl) :: (classClosureScopes decl outer).map (·.defer)) start.scopes := by
  unfold Resolve.classScopes at passed
  unfold classClosureScopes
  split at passed
  · rename_i derived
    rw [if_pos derived]
    obtain ⟨inside, received, rfl⟩ := Resolve.inScope_implicit_eq_ok.mp passed
    obtain ⟨inner, stepped, rfl⟩ := Resolve.inScope_implicit_eq_ok.mp received
    have inherited := reflected.holding (nofun : ScopeTag.superOf decl ≠ .globals) rfl
    have deferred := inherited.defer (.cons rfl (.defer outer)) before.functionDepth
    rw [List.map_cons, List.map_map] at deferred
    exact ⟨_, inner, stepped, ⟨List.suffix_refl _, List.suffix_refl _⟩, rfl,
      Reflected.holding deferred (nofun : ScopeTag.thisOf decl ≠ .globals) rfl⟩
  · rename_i root
    rw [if_neg root]
    obtain ⟨inner, stepped, rfl⟩ := Resolve.inScope_implicit_eq_ok.mp passed
    exact ⟨_, inner, stepped, ⟨List.suffix_refl _, List.suffix_refl _⟩, rfl,
      reflected.holding (nofun : ScopeTag.thisOf decl ≠ .globals) rfl⟩

/-- A loop is analysed with its condition or count first. -/
theorem Resolve.statement_of_loop {statement body : Statement} {condition : Expr}
    (looped : statement.loop? = some (condition, body)) :
    Resolve.statement statement =
      (Resolve.expression condition >>= fun _ => Resolve.inLoop (Resolve.statement body)) := by
  cases statement <;> cases looped <;> rfl

namespace Visited

variable {program : Program} {final before after : Analysis} {scope : LexicalScope}
  {scopes outer : List LexicalScope} {code part : Code} {changes : List (String × Bool)}

/-- Code is analysed in some scope. -/
theorem nonempty (visited : Visited program final (scope :: outer) code before after) :
    before.scopes ≠ [] := by
  intro empty
  have reflected := visited.reflected
  rw [empty] at reflected
  cases reflected

/-- The analysis of an expression was noted where it began. -/
theorem walked {expr : Expr}
    (visited : Visited program final scopes (.expression expr) before after) :
    ⟨expr, before.scopes, before.current, before.classContext⟩ ∈ final.walk :=
  visited.precedes.walk.subset
    ((Resolve.Notes.expression expr).noted before () after visited.passed)

/-- The analysis of code has come to its parts. -/
theorem covered (visited : Visited program final (scope :: outer) code before after)
    (covers : Resolve.Covers changes code.resolve part.resolve)
    (loose : ∀ entry ∈ changes, scope.tag.LooselyBinds program entry)
    (single : ∀ listed, part ≠ .statements listed) :
    ∃ start stop, Visited program final (scope :: outer) part start stop := by
  obtain ⟨nodes, start, stop, later, reached, precedes⟩ := covers _ _ _ visited.passed
  refine ⟨start, stop, reached, ?_, ?_, fun listed _ _ same => absurd same (single listed),
    precedes.trans visited.precedes⟩
  · exact visited.reflected.later later fun _ _ _ _ reflects becomes =>
      reflects.shift becomes loose
  · rw [later.functionDepth]
    exact visited.deep

/-- The analysis of a program begins with its globals. -/
theorem globals {done : Unit} (accepted : Resolve.program program .start = .ok done final) :
    ∃ start, Visited program final [.globals program] (.statements program) start final := by
  obtain ⟨_, start, hoisted, analysed⟩ := bind_eq_ok.mp accepted
  cases hoisted
  refine ⟨_, analysed, .cons ⟨rfl, fun _ => rfl, fun _ => rfl, nofun, nofun, nofun, ?_⟩ .nil, ?_,
    ?_, .refl _⟩
  · intro _ name member
    exact (loose_or_hoistsFinal (mem_finalsOf.mp member)).imp id fun hoists =>
      .inr ⟨rfl, hoists, .inl rfl⟩
  · intro scope member deferred
    obtain rfl := List.mem_singleton.mp member
    cases deferred
  · intro _ scope outer _ shape body
    cases shape
    cases body

private theorem first {statement : Statement} {rest : List Statement}
    (visited : Visited program final scopes (.statements (statement :: rest)) before after) :
    ∃ middle, Visited program final scopes (.statement statement) before middle := by
  obtain ⟨_, middle, analysed, remaining⟩ := bind_eq_ok.mp visited.passed
  exact ⟨middle, analysed, visited.reflected, visited.deep, nofun,
    (Resolve.Steps.statements rest _ _ _ remaining).precedes.trans visited.precedes⟩

/-- What a statement declares is known to the statements after it. -/
theorem rest {statement : Statement} {rest : List Statement}
    (visited :
      Visited program final (scope :: outer) (.statements (statement :: rest)) before after)
    (placed : Stands.Placed program scope.tag (.statement statement)) :
    ∃ middle, Visited program final (scope.after statement :: outer) (.statements rest)
      middle after := by
  obtain ⟨_, middle, analysed, remaining⟩ := bind_eq_ok.mp visited.passed
  have later := Resolve.Steps.statement statement _ _ _ analysed
  refine ⟨middle, remaining, ?_, ?_, ?_, visited.precedes⟩
  · refine visited.reflected.later later fun static learned _ last reflects becomes => ?_
    refine reflects.after becomes placed fun name hoisted declared => ?_
    rw [← last]
    exact Resolve.flags_of_declares analysed declared visited.nonempty
  · rw [later.functionDepth]
    obtain ⟨inner, around⟩ := List.forall_mem_cons.mp visited.deep
    refine List.forall_mem_cons.mpr ⟨fun deferred => inner ?_, around⟩
    rwa [LexicalScope.deferred_after] at deferred
  · intro _ _ _ _ shape body
    cases shape
    rw [later.loopDepth]
    rw [LexicalScope.tag_after] at body
    exact visited.unlooped _ _ _ rfl rfl body

/-- The initial value of a variable is analysed when the name is declared and has no value
yet. -/
theorem initial {name : String} {expr : Expr} {isFinal : Bool} {location : Location}
    (visited : Visited program final (scope :: outer)
      (.statement (.varDecl name (some expr) isFinal location)) before after)
    (settled : scope.pending = none) :
    ∃ start stop, Visited program final ({ scope with pending := some name } :: outer)
      (.expression expr) start stop := by
  have passed : Resolve.varDecl name (some expr) isFinal location before = .ok () after :=
    visited.passed
  obtain ⟨_, _, changeable, inside⟩ := Resolve.varDecl_eq_ok passed
  obtain ⟨middle, analysed, same⟩ := inside expr rfl
  refine ⟨before.declaring name .varKind isFinal, middle, analysed, ?_, ?_, nofun, ?_⟩
  · have reflected := visited.reflected
    have flagged (static : StaticScope) : ({ static with
        names := static.names.put name ⟨false, isFinal, .varKind, none, none⟩ } :
          StaticScope).flags name = some (false, isFinal) := by
      simp [StaticScope.flags]
    unfold Analysis.flags at changeable
    unfold Analysis.declaring Analysis.modifyInnermost
    dsimp only
    generalize before.scopes = statics at reflected changeable ⊢
    cases reflected with
    | cons reflects around =>
        refine .cons (reflects.pending settled (fun other apart => ?_) ⟨rfl, rfl, rfl⟩
          (flagged _) changeable) around
        simp [StaticScope.flags, Table.find?_put_of_ne _ _ (Ne.symm apart)]
  · exact List.forall_mem_cons.mpr (List.forall_mem_cons.mp visited.deep)
  · exact same.trans visited.precedes

/-- A condition is analysed before the body of its loop, which may have run before. -/
theorem condition {statement body : Statement} {expr : Expr}
    (visited : Visited program final (scope :: outer) (.statement statement) before after)
    (looped : statement.loop? = some (expr, body))
    (loose : ∀ entry ∈ body.binds, scope.tag.LooselyBinds program entry) :
    ∃ stop, Visited program final (scope.loosen body.binds :: outer) (.expression expr)
      before stop := by
  have passed := visited.passed
  rw [Code.resolve, Resolve.statement_of_loop looped] at passed
  obtain ⟨_, middle, analysed, remaining⟩ := bind_eq_ok.mp passed
  have rest := Resolve.Steps.inLoop (Resolve.Steps.statement body) _ _ _ remaining
  refine ⟨middle, analysed, ?_, ?_, nofun, rest.precedes.trans visited.precedes⟩
  · have reflected := visited.reflected
    generalize before.scopes = statics at reflected ⊢
    cases reflected with
    | cons reflects around => exact .cons (reflects.loosen loose) around
  · exact List.forall_mem_cons.mpr (List.forall_mem_cons.mp visited.deep)

private theorem loopBody {statement body : Statement} {expr : Expr}
    (visited : Visited program final (scope :: outer) (.statement statement) before after)
    (looped : statement.loop? = some (expr, body))
    (loose : ∀ entry ∈ body.binds, scope.tag.LooselyBinds program entry) :
    ∃ start stop, Visited program final (scope.loosen body.binds :: outer) (.statement body)
      start stop := by
  have passed := visited.passed
  rw [Code.resolve, Resolve.statement_of_loop looped] at passed
  obtain ⟨_, middle, analysed, remaining⟩ := bind_eq_ok.mp passed
  obtain ⟨inside, analysedBody, rfl⟩ := Resolve.inLoop_eq_ok.mp remaining
  have later := Resolve.Steps.expression expr _ _ _ analysed
  have reflected : Reflected program middle.functionDepth (scope.loosen body.binds :: outer)
      middle.scopes := visited.reflected.later later fun _ _ _ _ reflects becomes =>
    (reflects.quiet becomes).loosen loose
  have deep : ∀ other ∈ scope.loosen body.binds :: outer, other.deferred = true →
      0 < middle.functionDepth := by
    rw [later.functionDepth]
    exact List.forall_mem_cons.mpr (List.forall_mem_cons.mp visited.deep)
  exact ⟨_, inside, analysedBody, reflected, deep, nofun,
    ⟨visited.precedes.visits, visited.precedes.walk⟩⟩

/-- Statements inside of another one are analysed in a scope of their own, those of a test
outside of all loops. -/
theorem opened {statement : Statement} {tag : ScopeTag} {inside : List Statement}
    (visited : Visited program final scopes (.statement statement) before after)
    (opens : statement.opens? = some (tag, inside)) :
    ∃ start stop, Visited program final (.opened tag :: scopes) (.statements inside)
      start stop := by
  have passed := visited.passed
  have deep : ∀ scope ∈ LexicalScope.opened tag :: scopes, scope.deferred = true →
      0 < before.functionDepth := List.forall_mem_cons.mpr ⟨nofun, visited.deep⟩
  cases statement with
  | block body location =>
      cases opens
      obtain ⟨inner, analysed, rfl⟩ := Resolve.inScope_hoist_eq_ok.mp passed
      have nested : ScopeTag.block inside location ≠ .globals := nofun
      refine ⟨_, inner, analysed, visited.reflected.enter nested rfl inside, deep, ?_,
        ⟨visited.precedes.visits, visited.precedes.walk⟩⟩
      intro _ _ _ _ shape body
      cases shape
      cases body
  | test name body location =>
      cases opens
      obtain ⟨called, entered, rfl⟩ := Resolve.inBody_eq_ok.mp passed
      obtain ⟨inner, analysed, rfl⟩ := Resolve.inScope_hoist_eq_ok.mp entered
      have nested : ScopeTag.test inside location ≠ .globals := nofun
      have reflected : Reflected program before.functionDepth scopes before.scopes :=
        visited.reflected
      exact ⟨_, inner, analysed, reflected.enter nested rfl inside, deep, fun _ _ _ _ _ _ => rfl,
        ⟨visited.precedes.visits, visited.precedes.walk⟩⟩
  | _ => cases opens

/-- The name of a function has its value before the body is analysed. -/
theorem function {decl : FunctionDecl}
    (visited : Visited program final (scope :: outer) (.statement (.function decl)) before after)
    (settled : Stands.Settled (scope :: outer)) :
    ∃ start stop, Visited program final
      (.opened (.body decl) :: (scope.bind decl.name decl.isFinal :: outer).map (·.defer))
      (.statements decl.body) start stop := by
  obtain ⟨middle, later, flagged, analysed⟩ := Resolve.introduce_eq_ok visited.passed
  have reflected := visited.reflected.later later fun _ _ _ last reflects becomes =>
    reflects.bind becomes ((last decl.name) ▸ flagged visited.nonempty)
  obtain ⟨inner, around⟩ := List.forall_mem_cons.mp settled
  exact visited_function analysed (reflected.defer (.cons inner around) 0) visited.precedes

/-- The name of a class has its value before the inside is analysed: the fields, then the
methods. -/
theorem classDecl {decl : ClassDecl}
    (visited : Visited program final (scope :: outer) (.statement (.classDecl decl)) before after)
    (settled : Stands.Settled (scope :: outer)) :
    ∃ start stop, (Resolve.fieldInitials decl.fields >>= fun _ => Resolve.methods decl.methods)
        start = .ok () stop ∧ stop.Precedes final ∧ 0 < start.functionDepth ∧
      Reflected program start.functionDepth (.opened (.thisOf decl) :: (classClosureScopes decl
        (scope.bind decl.name decl.isFinal :: outer)).map (·.defer)) start.scopes := by
  have passed := visited.passed
  rw [Code.resolve, Resolve.statement, Resolve.classDecl_eq] at passed
  obtain ⟨facts, middle, head, rest⟩ := bind_eq_ok.mp passed
  obtain ⟨declared, known, built, first, flagged, looked, _, last⟩ := Resolve.classHead_eq_ok head
  obtain ⟨inClass, entered, rfl⟩ := Resolve.inClass_eq_ok.mp rest
  obtain ⟨deferred, nested, rfl⟩ := Resolve.deferred_eq_ok.mp entered
  have second : declared.Later _ [] built := Resolve.Steps.declaredSuperclass decl _ _ _ looked
  have reflected := visited.reflected.later first fun _ _ _ last reflects becomes =>
    reflects.bind becomes ((last decl.name) ▸ flagged visited.nonempty)
  obtain ⟨inner, around⟩ := List.forall_mem_cons.mp settled
  have outside := ((reflected.quiet second).quiet last).defer (.cons inner around)
    (middle.functionDepth + 1)
  obtain ⟨start, stop, stepped, precedes, depth, inside⟩ := reflected_classScopes nested outside
  refine ⟨start, stop, stepped,
    precedes.trans ⟨visited.precedes.visits, visited.precedes.walk⟩, ?_, inside⟩
  rw [depth]
  exact Nat.succ_pos _

private theorem field {decl : ClassDecl} {field : FieldDecl} {expr : Expr}
    (visited : Visited program final (scope :: outer) (.statement (.classDecl decl)) before after)
    (settled : Stands.Settled (scope :: outer)) (member : field ∈ decl.fields)
    (initial : field.initial = some expr) :
    ∃ start stop, Visited program final
      (.opened (.thisOf decl) :: (classClosureScopes decl
        (scope.bind decl.name decl.isFinal :: outer)).map (·.defer)) (.expression expr)
      start stop := by
  obtain ⟨inside, last, passed, precedes, deep, reflected⟩ := visited.classDecl settled
  have covers : Resolve.Covers [] (Resolve.fieldInitials decl.fields >>= fun _ =>
      Resolve.methods decl.methods) (Resolve.expression expr) :=
    .first (.fieldInitials member initial) fun _ => .methods decl.methods
  obtain ⟨nodes, start, stop, later, analysed, earlier⟩ := covers _ _ _ passed
  refine ⟨start, stop, analysed, reflected.quiet later, fun _ _ _ => ?_, nofun,
    earlier.trans precedes⟩
  rw [later.functionDepth]
  exact deep

private theorem method {decl : ClassDecl} {method : FunctionDecl}
    (visited : Visited program final (scope :: outer) (.statement (.classDecl decl)) before after)
    (settled : Stands.Settled (scope :: outer)) (member : method ∈ decl.methods) :
    ∃ start stop, Visited program final
      (.opened (.body method) :: (.opened (.thisOf decl) :: classClosureScopes decl
        (scope.bind decl.name decl.isFinal :: outer)).map (·.defer)) (.statements method.body)
      start stop := by
  obtain ⟨inside, last, passed, precedes, deep, reflected⟩ := visited.classDecl settled
  have covers : Resolve.Covers [] (Resolve.fieldInitials decl.fields >>= fun _ =>
      Resolve.methods decl.methods) (Resolve.function (Resolve.methodContext method.kind) method) :=
    .second (.fieldInitials decl.fields) fun _ => .methods member
  obtain ⟨nodes, start, stop, later, analysed, earlier⟩ := covers _ _ _ passed
  have deferred := (reflected.quiet later).defer (.cons rfl (.defer _)) 0
  rw [List.map_cons, List.map_map] at deferred
  exact visited_function analysed deferred (earlier.trans precedes)

private theorem extension {id : NodeId} {className : String} {decl : FunctionDecl}
    {location : Location}
    (visited : Visited program final scopes (.statement (.extension id className decl location))
      before after) (settled : Stands.Settled scopes) :
    ∃ start stop, Visited program final
      (.opened (.body decl) :: (.opened (.extensionThis id decl) :: scopes).map (·.defer))
      (.statements decl.body) start stop := by
  obtain ⟨_, middle, headed, inside⟩ := bind_eq_ok.mp visited.passed
  obtain ⟨inner, received, rfl⟩ := Resolve.inClass_eq_ok.mp inside
  obtain ⟨stop, analysed, rfl⟩ := Resolve.inScope_implicit_eq_ok.mp received
  have later : before.Later _ [] middle :=
    Resolve.Steps.extensionHead id className decl location _ _ _ headed
  have nested : ScopeTag.extensionThis id decl ≠ .globals := nofun
  have held := (visited.reflected.quiet later).holding nested rfl
  exact visited_function analysed (held.defer (.cons rfl settled) 0)
    ⟨visited.precedes.visits, visited.precedes.walk⟩

end Visited

/-- Every piece of code of a program that passes the analysis has passed it, in scopes that
reflect those it stands in. -/
theorem visited_of_stands {program : Program} {final : Analysis} {done : Unit}
    (accepted : Resolve.program program .start = .ok done final) {scopes : List LexicalScope}
    {code : Code} (stands : Stands program scopes code) :
    ∃ before after, Visited program final scopes code before after := by
  -- By the way the code stands in the program: each step of it is a step of the walk.
  induction stands with
  | program =>
      obtain ⟨start, visited⟩ := Visited.globals accepted
      exact ⟨start, final, visited⟩
  | first _ ih =>
      obtain ⟨before, after, visited⟩ := ih
      obtain ⟨middle, head⟩ := visited.first
      exact ⟨before, middle, head⟩
  | rest stands ih =>
      obtain ⟨before, after, visited⟩ := ih
      obtain ⟨middle, remaining⟩ := visited.rest (Stands.first stands).placed
      exact ⟨middle, after, remaining⟩
  | @value scopes statement expr stands member ih =>
      obtain ⟨before, after, visited⟩ := ih
      obtain ⟨scope, outer, rfl⟩ := List.exists_cons_of_ne_nil stands.ne_nil
      have covers : Resolve.Covers [] (Code.statement statement).resolve
          (Code.expression expr).resolve := .values member
      exact visited.covered covers nofun nofun
  | @initial scope outer name expr isFinal location stands ih =>
      obtain ⟨before, after, visited⟩ := ih
      exact visited.initial (stands.settled.2 nofun scope (List.mem_cons_self ..))
  | @branch scopes statement branch stands member ih =>
      obtain ⟨before, after, visited⟩ := ih
      obtain ⟨scope, outer, rfl⟩ := List.exists_cons_of_ne_nil stands.ne_nil
      have covers : Resolve.Covers statement.binds (Code.statement statement).resolve
          (Code.statement branch).resolve := .branches member
      have loose := stands.placed.loose (Statement.declares?_of_mem_branches member)
      exact visited.covered covers loose nofun
  | condition stands looped ih =>
      obtain ⟨before, after, visited⟩ := ih
      obtain ⟨stop, tested⟩ := visited.condition looped (stands.loose_of_loop looped)
      exact ⟨before, stop, tested⟩
  | loopBody stands looped ih =>
      obtain ⟨before, after, visited⟩ := ih
      exact visited.loopBody looped (stands.loose_of_loop looped)
  | opened _ opens ih =>
      obtain ⟨before, after, visited⟩ := ih
      exact visited.opened opens
  | function stands ih =>
      obtain ⟨before, after, visited⟩ := ih
      exact visited.function (stands.settled.2 nofun)
  | field stands member initial ih =>
      obtain ⟨before, after, visited⟩ := ih
      exact visited.field (stands.settled.2 nofun) member initial
  | method stands member ih =>
      obtain ⟨before, after, visited⟩ := ih
      exact visited.method (stands.settled.2 nofun) member
  | extension stands ih =>
      obtain ⟨before, after, visited⟩ := ih
      exact visited.extension (stands.settled.2 nofun)
  | @part scopes expr inner stands member ih =>
      obtain ⟨before, after, visited⟩ := ih
      obtain ⟨scope, outer, rfl⟩ := List.exists_cons_of_ne_nil stands.ne_nil
      have covers : Resolve.Covers [] (Code.expression expr).resolve
          (Code.expression inner).resolve := .parts member
      exact visited.covered covers nofun nofun

end Scriptlet
