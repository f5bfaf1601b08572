import Scriptlet.Proofs.Lexical.Soundness
import Scriptlet.Proofs.Resolution.Visiting

/-!
# Visits of names

Every name that code of an accepted program mentions was looked up in scopes that show what is said
of the scopes the code stands in (`Shown`, `visit_of_mention`). If no two nodes have the same
number, the recorded distance of a node is the one its visit found
(`Analysis.recorded_of_accepted`).
-/

namespace Scriptlet

namespace Analysis

/-- Where a local name is found: the distance leads to the nearest scope that declares it,
and that is not the outermost one. -/
theorem lookupFrom_eq_some {name : String} {start distance : Nat} {declared : Declared}
    {scopes : List StaticScope}
    (found : lookupFrom name start scopes = some (some distance, declared)) :
    start ≤ distance ∧ distance - start + 1 < scopes.length ∧
      (∃ static, scopes[distance - start]? = some static ∧
        static.names.find? name = some declared) ∧
      ∀ nearer static, nearer < distance - start → scopes[nearer]? = some static →
        static.names.find? name = none := by
  induction scopes generalizing start with
  | nil => cases found
  | cons scope outer ih =>
      unfold lookupFrom at found
      cases here : scope.names.find? name with
      | some entry =>
          rw [here] at found
          cases outer with
          | nil => cases found
          | cons around rest =>
              cases found
              simp [here]
      | none =>
          rw [here] at found
          obtain ⟨beyond, inside, ⟨static, listed, declares⟩, nearest⟩ := ih found
          have step : distance - start = distance - (start + 1) + 1 := by omega
          refine ⟨by omega, by rw [step]; simpa using inside, ⟨static, ?_, declares⟩, ?_⟩
          · rw [step]
            simpa using listed
          · intro nearer other closer other_listed
            cases nearer with
            | zero =>
                cases other_listed
                exact here
            | succ nearer =>
                exact nearest nearer other (by omega) (by simpa using other_listed)

/-- What is recorded for an accepted program, and that each node was visited once. -/
theorem recorded_of_accepted {program : Program} {final : Analysis} {done : Unit}
    (accepted : Resolve.program program .start = .ok done final) (numbered : program.Numbered) :
    final.Recorded ∧ (final.visits.map (·.id)).Nodup := by
  obtain ⟨_, begun, hoisted, analysed⟩ := bind_eq_ok.mp accepted
  cases hoisted
  have later := Resolve.Steps.statements program _ _ _ analysed
  have distinct : (final.visits.map (·.id)).Nodup := by
    rw [later.nodes]
    have none : (Analysis.start.visits.map (·.id) : List NodeId) = [] := rfl
    change ((Statement.nodesAll program).reverse ++ Analysis.start.visits.map (·.id)).Nodup
    rw [none, List.append_nil]
    exact (List.reverse_perm _).nodup_iff.mpr numbered
  refine ⟨later.recorded distinct ⟨nofun, fun id _ => ?_⟩, distinct⟩
  exact Resolutions.distance?_empty id

/-- A recorded distance leads to the nearest scope that declares the name, as the visit of the
node found it, and that is not the globals. -/
theorem declared_of_recorded {final : Analysis} (recorded : final.Recorded) {visit : Visit}
    (visited : visit ∈ final.visits) {distance : Nat}
    (found : final.resolutions.distance? visit.id = some distance) :
    distance + 1 < visit.scopes.length ∧ ∃ static declared,
      visit.scopes[distance]? = some static ∧ static.names.find? visit.name = some declared ∧
      lookupFrom visit.name 0 visit.scopes = some (some distance, declared) ∧
      ∀ nearer other, nearer < distance → visit.scopes[nearer]? = some other →
        other.names.find? visit.name = none := by
  rw [recorded.visited visit visited] at found
  obtain ⟨⟨_, declared⟩, looked, rfl⟩ := Option.bind_eq_some_iff.mp found
  obtain ⟨_, inside, ⟨static, listed, declares⟩, nearest⟩ := lookupFrom_eq_some looked
  exact ⟨inside, static, declared, listed, declares, looked, nearest⟩

end Analysis

/-- What is related scope by scope is related at each distance. -/
theorem getElem?_of_forall₂ {relation : LexicalScope → StaticScope → Prop}
    {scopes : List LexicalScope} {statics : List StaticScope} {static : StaticScope}
      {distance : Nat}
    (related : List.Forall₂ relation scopes statics) (listed : statics[distance]? = some static) :
    ∃ scope, scopes[distance]? = some scope ∧ relation scope static := by
  induction related generalizing distance with
  | nil => cases listed
  | cons head _ ih =>
      cases distance with
      | zero =>
          cases listed
          exact ⟨_, rfl, head⟩
      | succ distance => exact ih listed

/-- What the analysis shows of one name in a scope. -/
structure LexicalScope.Shows (program : Program) (name : String) (scope : LexicalScope)
    (static : StaticScope) : Prop where
  tag : static.tag = scope.tag
  defined : ∀ isFinal, static.flags name = some (true, isFinal) →
    name ∈ scope.bound ∨ scope.tag.Loose program name
  undefined : ∀ isFinal, static.flags name = some (false, isFinal) → scope.pending = some name

/-- Scopes of the analysis that show a name as it is said of scopes of the text. -/
abbrev Shown (program : Program) (name : String) : List LexicalScope → List StaticScope → Prop :=
  List.Forall₂ (·.Shows program name ·)

namespace Shown

variable {program : Program} {name : String} {depth : Nat} {scope : LexicalScope}
  {scopes outer : List LexicalScope} {statics : List StaticScope}

/-- Scopes of the analysis that reflect those of the text show every name. -/
theorem of_reflected (reflected : Reflected program depth scopes statics) :
    Shown program name scopes statics :=
  List.Forall₂.imp (fun _ _ reflects =>
    ⟨reflects.tag, reflects.defined name, reflects.undefined name⟩) reflected

/-- The declaration of another name does not matter. -/
theorem of_bind {other : String} {isFinal : Bool}
    (reflected : Reflected program depth (scope.bind other isFinal :: outer) statics)
    (apart : name ≠ other) : Shown program name (scope :: outer) statics := by
  cases reflected with
  | cons reflects rest =>
      refine .cons ⟨reflects.tag, fun final known => ?_, reflects.undefined name⟩
        (of_reflected rest)
      refine (reflects.defined name final known).imp (fun member => ?_) id
      exact (List.mem_cons.mp member).resolve_left apart

/-- Scopes that show a name are scopes of the same constructs. -/
theorem map_tag (shown : Shown program name scopes statics) :
    statics.map (·.tag) = scopes.map (·.tag) := by
  induction shown with
  | nil => rfl
  | cons shows _ ih => rw [List.map_cons, List.map_cons, shows.tag, ih]

end Shown

namespace Resolve

variable {name : String} {location : Location} {before after : Analysis} {done : Unit}

/-- A name that may be used is not used before its declaration. -/
theorem checkDeclared_eq_ok (checked : checkDeclared name location before = .ok done after) :
    after = before ∧ Analysis.usedEarlyIn name before.functionDepth before.scopes = false := by
  change (if Analysis.usedEarlyIn name before.functionDepth before.scopes then
    fail (.useBeforeDeclaration name) location else pure () : Resolve Unit) before = _ at checked
  split at checked
  · cases checked
  · rename_i timely
    cases checked
    exact ⟨rfl, by simpa using timely⟩

/-- A local name that may be read has its value, if the innermost scope declares it. -/
theorem readName_eq_ok {id : NodeId} (passed : readName id name location before = .ok done after) :
    resolveName id name before = .ok () after ∧
      ∀ inner around rest, before.scopes = inner :: around :: rest →
        ∀ isFinal, inner.flags name ≠ some (false, isFinal) := by
  have looked (checked : (checkDeclared name location >>= fun _ => resolveName id name) before =
      .ok () after) : resolveName id name before = .ok () after := by
    obtain ⟨_, middle, declared, resolved⟩ := bind_eq_ok.mp checked
    obtain ⟨rfl, _⟩ := checkDeclared_eq_ok declared
    exact resolved
  obtain ⟨_, _, same, inspected⟩ := bind_eq_ok.mp passed
  cases same
  generalize listed : before.scopes = statics at inspected
  generalize known : before.innermost? name = entry at inspected
  split at inspected
  · cases inspected
  · rename_i defined
    refine ⟨looked inspected, fun inner around rest shape isFinal flagged => ?_⟩
    obtain ⟨⟨_, fixed, kind, facts, instanceOf⟩, found, same⟩ := Option.map_eq_some_iff.mp flagged
    obtain ⟨rfl, _⟩ := Prod.mk.inj same
    refine defined inner around rest fixed kind facts instanceOf shape ?_
    rw [← known, Analysis.innermost?, listed, shape]
    exact found

/-- A class that is built on has another name and is looked up. What is known of it then is
what is known of the superclass. -/
theorem superclass_eq_ok {className : String} {reference : SuperclassRef}
    {facts : Option ClassFacts}
    (passed : superclass className reference before = .ok facts after) :
    reference.name ≠ className ∧ facts = before.classOf? reference.name ∧ ∃ middle,
      resolveName reference.id reference.name before = .ok () middle ∧
        middle.visits <:+ after.visits := by
  unfold superclass at passed
  split at passed
  · cases passed
  · rename_i apart
    obtain ⟨_, checked, declared, resolved⟩ := bind_eq_ok.mp passed
    obtain ⟨rfl, _⟩ := checkDeclared_eq_ok declared
    obtain ⟨_, middle, looked, remaining⟩ := bind_eq_ok.mp resolved
    have known : middle.classOf? reference.name = checked.classOf? reference.name := by
      cases looked
      rfl
    obtain ⟨_, _, same, inspected⟩ := bind_eq_ok.mp remaining
    cases same
    rw [known] at inspected
    generalize checked.classOf? reference.name = known at inspected ⊢
    cases known with
    | none =>
        cases inspected
        exact ⟨apart, rfl, _, looked, List.suffix_refl _⟩
    | some found =>
        dsimp only at inspected
        split at inspected
        · cases inspected
        · cases inspected
          exact ⟨apart, rfl, _, looked, List.suffix_refl _⟩

/-- An extension overrides no method that its class is known to mark final. -/
theorem extensionHead_eq_ok {id : NodeId} {method : FunctionDecl}
    (passed : extensionHead id name method location before = .ok done after) :
    (∀ facts ∈ before.classOf? name, facts.hasFinalMethod method.name = false) ∧
      ∃ middle, resolveName id name before = .ok () middle ∧ middle.visits <:+ after.visits := by
  obtain ⟨_, checked, declared, resolved⟩ := bind_eq_ok.mp passed
  obtain ⟨rfl, _⟩ := checkDeclared_eq_ok declared
  obtain ⟨_, middle, looked, remaining⟩ := bind_eq_ok.mp resolved
  have known : middle.classOf? name = checked.classOf? name := by
    cases looked
    rfl
  obtain ⟨_, _, same, inspected⟩ := bind_eq_ok.mp remaining
  cases same
  rw [known] at inspected
  generalize checked.classOf? name = known at inspected ⊢
  cases known with
  | none =>
      cases inspected
      exact ⟨nofun, _, looked, List.suffix_refl _⟩
  | some facts =>
      dsimp only at inspected
      split at inspected
      · cases inspected
      · have steps : Steps [] [] (checkOverride facts name method) := .checkOverride _ _ _
        refine ⟨fun other member => ?_, _, looked, (steps _ _ _ inspected).precedes.visits⟩
        cases member
        exact checkOverride_eq_ok inspected

end Resolve

variable {program : Program} {final before after : Analysis} {done : Unit}
  {scopes : List LexicalScope} {id : NodeId} {name : String}

/-- A name that was looked up in the current scopes has its visit in the end. -/
private theorem mem_visits_of_resolveName
    (looked : Resolve.resolveName id name before = .ok done after)
    (visits : after.visits <:+ final.visits) : ⟨id, name, before.scopes⟩ ∈ final.visits := by
  cases looked
  exact visits.subset (List.mem_cons_self ..)

/-- An assignment is looked up after its value, when it does not come too early and changes
nothing that is known to be final. -/
theorem visit_of_assign {value : Expr} {location : Location}
    (visited : Visited program final scopes (.expression (.assign id name value location))
      before after) :
    ∃ reached nodes, before.Later nodes [] reached ∧ ⟨id, name, reached.scopes⟩ ∈ final.visits ∧
      Analysis.usedEarlyIn name reached.functionDepth reached.scopes = false ∧
      Resolve.finalTarget? reached name = none := by
  obtain ⟨_, noted, noting, inside⟩ := bind_eq_ok.mp visited.passed
  obtain ⟨_, middle, analysed, assigned⟩ := bind_eq_ok.mp inside
  have later := (Resolve.Steps.noteExpr _ _ _ _ noting).trans
    (Resolve.Steps.expression value _ _ _ analysed)
  obtain ⟨_, checked, early, rest⟩ := bind_eq_ok.mp assigned
  obtain ⟨rfl, timely⟩ := Resolve.checkDeclared_eq_ok early
  obtain ⟨_, _, same, targeted⟩ := bind_eq_ok.mp rest
  cases same
  cases target : Resolve.finalTarget? checked name with
  | some kind =>
      rw [target] at targeted
      cases targeted
  | none =>
      rw [target] at targeted
      obtain ⟨_, recorded, looked, forgotten⟩ := bind_eq_ok.mp targeted
      cases forgotten
      exact ⟨checked, _, later, mem_visits_of_resolveName looked visited.precedes.visits,
        timely, target⟩

/-- A name that an expression mentions was looked up in the scopes of the expression. A
variable of the innermost scope that is read has its value. -/
theorem visit_of_expression {expr : Expr}
    (visited : Visited program final scopes (.expression expr) before after)
    (mentioned : (id, name) ∈ expr.mentions) :
    ∃ reached nodes, before.Later nodes [] reached ∧ ⟨id, name, reached.scopes⟩ ∈ final.visits ∧
      ∀ location, expr = .var id name location → ∀ inner around rest,
        reached.scopes = inner :: around :: rest →
        ∀ isFinal, inner.flags name ≠ some (false, isFinal) := by
  have begun {noted middle : Analysis} {done : Unit} (noting : Resolve.noteExpr expr before =
      .ok done noted) (looked : Resolve.resolveName id name noted = .ok () middle)
      (precedes : middle.Precedes final) : ∃ nodes, before.Later nodes [] noted ∧
        ⟨id, name, noted.scopes⟩ ∈ final.visits :=
    ⟨[], Resolve.Steps.noteExpr _ _ _ _ noting, mem_visits_of_resolveName looked precedes.visits⟩
  cases expr with
  | var node read location =>
      cases List.mem_singleton.mp mentioned
      obtain ⟨_, noted, noting, passed⟩ := bind_eq_ok.mp visited.passed
      obtain ⟨looked, defined⟩ := Resolve.readName_eq_ok passed
      obtain ⟨nodes, later, visit⟩ := begun noting looked visited.precedes
      exact ⟨noted, nodes, later, visit, fun _ _ => defined⟩
  | assign node target value location =>
      cases List.mem_singleton.mp mentioned
      obtain ⟨reached, nodes, later, visit, _⟩ := visit_of_assign visited
      exact ⟨reached, nodes, later, visit, nofun⟩
  | prefixCall node operator operand location =>
      cases List.mem_singleton.mp mentioned
      obtain ⟨_, noted, noting, passed⟩ := bind_eq_ok.mp visited.passed
      obtain ⟨_, middle, looked, rest⟩ := bind_eq_ok.mp passed
      have inside := (Resolve.Steps.expression operand _ _ _ rest).precedes
      obtain ⟨nodes, later, visit⟩ := begun noting looked (inside.trans visited.precedes)
      exact ⟨noted, nodes, later, visit, nofun⟩
  | infixCall node operator left right location =>
      cases List.mem_singleton.mp mentioned
      obtain ⟨_, noted, noting, passed⟩ := bind_eq_ok.mp visited.passed
      obtain ⟨_, middle, looked, rest⟩ := bind_eq_ok.mp passed
      have operands := Resolve.Steps.bind (Resolve.Steps.expression left) fun _ =>
        Resolve.Steps.expression right
      have inside := (operands _ _ _ rest).precedes
      obtain ⟨nodes, later, visit⟩ := begun noting looked (inside.trans visited.precedes)
      exact ⟨noted, nodes, later, visit, nofun⟩
  | thisRef node location =>
      cases List.mem_singleton.mp mentioned
      obtain ⟨_, noted, noting, passed⟩ := bind_eq_ok.mp visited.passed
      have looked : Resolve.resolveName id "this" noted = .ok () after := by
        change (if noted.classContext = .none then Resolve.fail .thisOutsideClass location
          else Resolve.resolveName id "this" : Resolve Unit) noted = .ok () after at passed
        split at passed
        · cases passed
        · exact passed
      obtain ⟨nodes, later, visit⟩ := begun noting looked visited.precedes
      exact ⟨noted, nodes, later, visit, nofun⟩
  | superRef node method location =>
      cases List.mem_singleton.mp mentioned
      obtain ⟨_, noted, noting, passed⟩ := bind_eq_ok.mp visited.passed
      have looked : Resolve.resolveName id "super" noted = .ok () after := by
        change (if noted.classContext = .derived then Resolve.resolveName id "super"
          else Resolve.fail .superOutsideSubclass location : Resolve Unit) noted =
            .ok () after at passed
        split at passed
        · exact passed
        · cases passed
      obtain ⟨nodes, later, visit⟩ := begun noting looked visited.precedes
      exact ⟨noted, nodes, later, visit, nofun⟩
  | _ => cases mentioned

/-- What is known of the class that a visit found. -/
def Visit.classFacts? (visit : Visit) : Option ClassFacts :=
  match Analysis.lookupFrom visit.name 0 visit.scopes with
  | some (_, declared) => declared.classFacts
  | none => none

/-- For all that is known of the class that a visit found, a method may be overridden. -/
def Visit.Permits (visit : Visit) (method : String) : Prop :=
  ∀ facts ∈ visit.classFacts?, facts.hasFinalMethod method = false

/-- The class that a class declaration builds on is looked up when the declared name has its
value already, but it is another name. The methods of the declaration may be overridden for all
that is known of it. -/
theorem visit_of_superclass {scope : LexicalScope} {outer : List LexicalScope} {decl : ClassDecl}
    (visited : Visited program final (scope :: outer) (.statement (.classDecl decl)) before after)
    (mentioned : (id, name) ∈ (Statement.classDecl decl).mentions) :
    ∃ statics, ⟨id, name, statics⟩ ∈ final.visits ∧
      Shown program name (scope :: outer) statics ∧
      ∀ method ∈ decl.methods, Visit.Permits ⟨id, name, statics⟩ method.name := by
  obtain ⟨reference, listed, same⟩ := List.mem_map.mp mentioned
  cases same
  have passed := visited.passed
  rw [Code.resolve, Resolve.statement, Resolve.classDecl_eq] at passed
  obtain ⟨facts, middle, head, rest⟩ := bind_eq_ok.mp passed
  have inside := Resolve.Steps.inClass (if decl.superclass.isSome then .derived else .root)
    (some facts) (.deferred (.classScopes decl
      (.bind (.fieldInitials decl.fields) fun _ => .methods decl.methods)))
  obtain ⟨declared, known, built, first, flagged, looked, allowed, last⟩ :=
    Resolve.classHead_eq_ok head
  unfold Resolve.declaredSuperclass at looked
  rw [Option.mem_toList.mp listed] at looked
  obtain ⟨apart, rfl, found, resolved, earlier⟩ := Resolve.superclass_eq_ok looked
  have visits := (earlier.trans last.precedes.visits).trans
    ((inside _ _ _ rest).precedes.trans visited.precedes).visits
  have reflected := visited.reflected.later first fun _ _ _ last reflects becomes =>
    reflects.bind becomes ((last decl.name) ▸ flagged visited.nonempty)
  exact ⟨declared.scopes, mem_visits_of_resolveName resolved visits, .of_bind reflected apart,
    fun method member facts known => allowed facts known method member⟩

/-- The class of an extension is looked up in the scopes of the extension. The added method may
be overridden for all that is known of it. -/
theorem visit_of_extension {decl : FunctionDecl} {location : Location}
    (visited : Visited program final scopes (.statement (.extension id name decl location))
      before after) :
    ⟨id, name, before.scopes⟩ ∈ final.visits ∧
      Visit.Permits ⟨id, name, before.scopes⟩ decl.name := by
  obtain ⟨_, middle, headed, inside⟩ := bind_eq_ok.mp visited.passed
  obtain ⟨allowed, found, looked, earlier⟩ := Resolve.extensionHead_eq_ok headed
  have body := Resolve.Steps.inClass .root none (.inScope (.extensionThis id decl)
    (.after (.declareImplicit "this") fun _ => .quiet (.function .method decl)))
  have visits := earlier.trans ((body _ _ _ inside).precedes.trans visited.precedes).visits
  exact ⟨mem_visits_of_resolveName looked visits, allowed⟩

/-- Every name that code of an accepted program mentions was looked up, in scopes that show
what is said of the scopes the code stands in. -/
theorem visit_of_mention (accepted : Resolve.program program .start = .ok done final) {code : Code}
    (stands : Stands program scopes code) (mentioned : (id, name) ∈ code.mentions) :
    ∃ statics, ⟨id, name, statics⟩ ∈ final.visits ∧ Shown program name scopes statics ∧
      ∀ location, code = .expression (.var id name location) → ∀ inner around rest,
        statics = inner :: around :: rest → ∀ isFinal, inner.flags name ≠ some
          (false, isFinal) := by
  obtain ⟨before, after, visited⟩ := visited_of_stands accepted stands
  cases code with
  | expression expr =>
      obtain ⟨reached, nodes, later, visit, defined⟩ := visit_of_expression visited mentioned
      refine ⟨reached.scopes, visit, .of_reflected (visited.reflected.quiet later), ?_⟩
      intro location same
      cases same
      exact defined location rfl
  | statement statement =>
      cases statement with
      | classDecl decl =>
          obtain ⟨scope, outer, rfl⟩ := List.exists_cons_of_ne_nil stands.ne_nil
          obtain ⟨statics, visit, shown, _⟩ := visit_of_superclass visited mentioned
          exact ⟨statics, visit, shown, nofun⟩
      | extension node className decl location =>
          cases List.mem_singleton.mp mentioned
          exact ⟨before.scopes, (visit_of_extension visited).1,
            .of_reflected visited.reflected, nofun⟩
      | _ => cases mentioned
  | statements listed => cases mentioned

end Scriptlet
