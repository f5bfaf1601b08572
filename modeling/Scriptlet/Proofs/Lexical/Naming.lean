import Scriptlet.Proofs.Lexical.Standing

/-!
# Receivers in the text

In a program that declares no name like the one of a receiver (`Program.SparesReceivers`), or of a
superclass, the scopes that hold such a name are those of classes and of extensions. The scope of a
superclass stands just outside of the receiver's, and nowhere else (`Paired`).
-/

namespace Scriptlet

/-- The name that the scope of a receiver or of a superclass is for. -/
def ScopeTag.held? : ScopeTag → Option String
  | .thisOf _ | .extensionThis _ _ => some "this"
  | .superOf _ => some "super"
  | .globals | .block _ _ | .test _ _ | .body _ => none

/-- A scope that is for the name of a receiver or of a superclass is sealed. -/
theorem ScopeTag.isSealed_of_held? {tag : ScopeTag} {name : String}
    (held : tag.held? = some name) : tag.isSealed = true := by
  cases tag <;> first | rfl | cases held

mutual

/-- The names that a statement declares, for the scope it stands in and inside of it. -/
def Statement.names : Statement → List String
  | .varDecl name _ _ _ | .moduleDecl name _ | .nativeFunction _ name _ _ => [name]
  | .block body _ | .test _ body _ => Statement.namesAll body
  | .ifElse _ thenBranch none _ => thenBranch.names
  | .ifElse _ thenBranch (some elseBranch) _ => thenBranch.names ++ elseBranch.names
  | .whileLoop _ body _ | .doWhile body _ _ | .repeatLoop _ body _ => body.names
  | .function decl => decl.name :: decl.names
  | .classDecl decl => decl.names
  | .extension _ _ decl _ => decl.names
  | .expression _ _ | .print _ _ | .returning _ _ | .breaking _ | .continuing _ => []

/-- The names that some statements declare. -/
def Statement.namesAll : List Statement → List String
  | [] => []
  | first :: rest => first.names ++ Statement.namesAll rest

/-- The names that a function declares: its parameters, and those of its body. -/
def FunctionDecl.names : FunctionDecl → List String
  | ⟨_, _, params, body, _, _⟩ => params.map (·.name) ++ Statement.namesAll body

/-- The names that some methods declare. -/
def FunctionDecl.namesAll : List FunctionDecl → List String
  | [] => []
  | first :: rest => first.names ++ FunctionDecl.namesAll rest

/-- The names that a class declares: its own, and those of its methods. -/
def ClassDecl.names : ClassDecl → List String
  | ⟨name, _, _, methods, _, _⟩ => name :: FunctionDecl.namesAll methods

end

/-- The names that a piece of code declares. -/
def Code.names : Code → List String
  | .expression _ => []
  | .statement one => one.names
  | .statements listed => Statement.namesAll listed

/-- No name of a receiver or of a superclass is declared anywhere in a program. -/
def Program.SparesReceivers (program : Program) : Prop :=
  "this" ∉ Statement.namesAll program ∧ "super" ∉ Statement.namesAll program

instance (program : Program) : Decidable program.SparesReceivers :=
  inferInstanceAs (Decidable (_ ∧ _))

section Names

variable {name : String}

private theorem Statement.names_subset_of_mem {listed : List Statement} {statement : Statement}
    (member : statement ∈ listed) : statement.names ⊆ Statement.namesAll listed := by
  induction listed with
  | nil => cases member
  | cons head rest ih =>
      rcases List.mem_cons.mp member with rfl | later
      · exact List.subset_append_left _ _
      · exact List.Subset.trans (ih later) (List.subset_append_right _ _)

private theorem FunctionDecl.names_subset_of_mem {methods : List FunctionDecl} {decl : FunctionDecl}
    (member : decl ∈ methods) : decl.names ⊆ FunctionDecl.namesAll methods := by
  induction methods with
  | nil => cases member
  | cons head rest ih =>
      rcases List.mem_cons.mp member with rfl | later
      · exact List.subset_append_left _ _
      · exact List.Subset.trans (ih later) (List.subset_append_right _ _)

/-- What a statement binds in its own scope it declares. -/
theorem Statement.mem_names_of_binds : (statement : Statement) → {entry : String × Bool} →
    entry ∈ statement.binds → entry.1 ∈ statement.names
  | .ifElse _ thenBranch none _, _, bound => thenBranch.mem_names_of_binds bound
  | .ifElse _ thenBranch (some elseBranch) _, _, bound => by
    rcases List.mem_append.mp bound with first | second
    · exact List.mem_append_left _ (thenBranch.mem_names_of_binds first)
    · exact List.mem_append_right _ (elseBranch.mem_names_of_binds second)
  | .whileLoop _ body _, _, bound | .doWhile body _ _, _, bound
  | .repeatLoop _ body _, _, bound => body.mem_names_of_binds bound
  | .varDecl _ _ _ _, _, bound | .moduleDecl _ _, _, bound
  | .nativeFunction _ _ _ _, _, bound => by
    cases List.mem_singleton.mp bound
    exact List.mem_singleton.mpr rfl
  | .function _, _, bound => by
    cases List.mem_singleton.mp bound
    exact List.mem_cons_self ..
  | .classDecl ⟨_, _, _, _, _, _⟩, _, bound => by
    cases List.mem_singleton.mp bound
    exact List.mem_cons_self ..

/-- Statements that do not declare a name have no part that does. -/
theorem ScopeTag.not_loose {program : Program} {tag : ScopeTag}
    (spare : name ∉ Statement.namesAll (tag.statements program)) : ¬ tag.Loose program name := by
  rintro ⟨isFinal, statement, member, _, bound⟩
  exact spare (Statement.names_subset_of_mem member (statement.mem_names_of_binds bound))

end Names

/-- A scope binds a name only if it is for the name. -/
structure LexicalScope.Spares (program : Program) (name : String) (scope : LexicalScope) :
    Prop where
  bound : name ∈ scope.bound → scope.tag.held? = some name
  pending : scope.pending ≠ some name
  loose : ¬ scope.tag.Loose program name

namespace LexicalScope.Spares

variable {program : Program} {name : String} {scope : LexicalScope}

private theorem defer (spares : scope.Spares program name) : scope.defer.Spares program name :=
  ⟨spares.bound, nofun, spares.loose⟩

private theorem bind (spares : scope.Spares program name) {other : String} (apart : name ≠ other)
    (isFinal : Bool) : (scope.bind other isFinal).Spares program name :=
  ⟨fun member => spares.bound ((List.mem_cons.mp member).resolve_left apart), spares.pending,
    spares.loose⟩

private theorem after (spares : scope.Spares program name) {statement : Statement}
    (spare : name ∉ statement.names) : (scope.after statement).Spares program name := by
  suffices settled : (scope.settle statement).Spares program name from
    ⟨settled.bound, settled.pending, settled.loose⟩
  unfold LexicalScope.settle
  split
  · rename_i declared hoisted found
    refine spares.bind (fun same => spare ?_) hoisted.isFinal
    have bound : (declared, hoisted.isFinal) ∈ statement.binds := by
      rw [Statement.binds_of_declares found]
      exact List.mem_singleton.mpr rfl
    exact same ▸ statement.mem_names_of_binds bound
  · exact ⟨spares.bound, spares.pending, spares.loose⟩

/-- The scope of a receiver or of a superclass. -/
theorem sealed {tag : ScopeTag} (isSealed : tag.isSealed = true) :
    (LexicalScope.opened tag).Spares program name := by
  refine ⟨fun member => ?_, nofun, ?_⟩
  · cases tag <;> simp_all [LexicalScope.opened, LexicalScope.bound, ScopeTag.implicit,
      ScopeTag.held?, ScopeTag.isSealed]
  · cases tag <;> simp_all [LexicalScope.opened, ScopeTag.Loose, ScopeTag.LooselyBinds,
      ScopeTag.statements, ScopeTag.isSealed]

end LexicalScope.Spares

/-- Each scope of some scopes spares a name. -/
abbrev ScopesSpare (program : Program) (name : String) (scopes : List LexicalScope) : Prop :=
  ∀ scope ∈ scopes, scope.Spares program name

namespace ScopesSpare

variable {program : Program} {name : String} {scope : LexicalScope} {scopes : List LexicalScope}

private theorem defer (spare : ScopesSpare program name scopes) :
    ScopesSpare program name (scopes.map (·.defer)) := by
  intro scope member
  obtain ⟨inner, listed, rfl⟩ := List.mem_map.mp member
  exact (spare inner listed).defer

private theorem cons (inner : scope.Spares program name) (outer : ScopesSpare program name scopes) :
    ScopesSpare program name (scope :: scopes) :=
  List.forall_mem_cons.mpr ⟨inner, outer⟩

private theorem body {decl : FunctionDecl} (spare : name ∉ decl.names)
    (outer : ScopesSpare program name scopes) :
    ScopesSpare program name (.opened (.body decl) :: scopes) ∧
      name ∉ Statement.namesAll decl.body := by
  obtain ⟨_, _, params, body, _, _⟩ := decl
  obtain ⟨noParam, inside⟩ := not_or.mp (mt List.mem_append.mpr spare)
  refine ⟨.cons ⟨fun member => absurd ?_ noParam, nofun, ScopeTag.not_loose inside⟩ outer, inside⟩
  simpa [LexicalScope.opened, LexicalScope.bound, ScopeTag.implicit] using member

private theorem classClosure {decl : ClassDecl} (outer : ScopesSpare program name scopes) :
    ScopesSpare program name (classClosureScopes decl scopes) := by
  unfold classClosureScopes
  split
  · exact .cons (.sealed rfl) outer
  · exact outer

end ScopesSpare

/-- Code of a program that does not declare a name stands in scopes that spare it. -/
theorem Stands.spares {program : Program} {name : String} {scopes : List LexicalScope}
    {code : Code} (stands : Stands program scopes code)
    (spare : name ∉ Statement.namesAll program) :
    ScopesSpare program name scopes ∧ name ∉ code.names := by
  induction stands with
  | program => exact ⟨.cons ⟨nofun, nofun, ScopeTag.not_loose spare⟩ nofun, spare⟩
  | first _ ih => exact ⟨ih.1, fun member => ih.2 (List.mem_append_left _ member)⟩
  | rest _ ih =>
      obtain ⟨inner, outer⟩ := List.forall_mem_cons.mp ih.1
      exact ⟨.cons (inner.after fun member => ih.2 (List.mem_append_left _ member)) outer,
        fun member => ih.2 (List.mem_append_right _ member)⟩
  | value _ _ ih | part _ _ ih => exact ⟨ih.1, nofun⟩
  | initial _ ih =>
      obtain ⟨inner, outer⟩ := List.forall_mem_cons.mp ih.1
      refine ⟨.cons ⟨inner.bound, fun same => ih.2 ?_, inner.loose⟩ outer, nofun⟩
      cases same
      exact List.mem_singleton.mpr rfl
  | @branch scopes statement branch _ member ih =>
      refine ⟨ih.1, fun listed => ih.2 ?_⟩
      cases statement with
      | ifElse condition thenBranch elseBranch location =>
          cases elseBranch with
          | none =>
              cases List.mem_singleton.mp member
              exact listed
          | some elseBranch =>
              rcases List.mem_cons.mp member with rfl | last
              · exact List.mem_append_left _ listed
              · cases List.mem_singleton.mp last
                exact List.mem_append_right _ listed
      | _ => cases member
  | condition _ _ ih =>
      obtain ⟨inner, outer⟩ := List.forall_mem_cons.mp ih.1
      exact ⟨.cons ⟨inner.bound, inner.pending, inner.loose⟩ outer, nofun⟩
  | @loopBody scope outer statement body expr _ looped ih =>
      obtain ⟨inner, outer⟩ := List.forall_mem_cons.mp ih.1
      refine ⟨.cons ⟨inner.bound, inner.pending, inner.loose⟩ outer, fun listed => ih.2 ?_⟩
      cases statement <;> cases looped <;> exact listed
  | @opened scopes statement tag inside _ opens ih =>
      cases statement with
      | block body location | test label body location =>
          cases opens
          exact ⟨.cons ⟨nofun, nofun, ScopeTag.not_loose ih.2⟩ ih.1, ih.2⟩
      | _ => cases opens
  | function _ ih =>
      obtain ⟨inner, outer⟩ := List.forall_mem_cons.mp ih.1
      obtain ⟨apart, inside⟩ := List.ne_and_not_mem_of_not_mem_cons ih.2
      exact ScopesSpare.body inside (ScopesSpare.defer (.cons (inner.bind apart _) outer))
  | @field scope outer decl _ _ _ _ _ ih =>
      obtain ⟨inner, outer⟩ := List.forall_mem_cons.mp ih.1
      obtain ⟨_, _, _, _, _, _⟩ := decl
      obtain ⟨apart, _⟩ := List.ne_and_not_mem_of_not_mem_cons ih.2
      exact ⟨.cons (.sealed rfl) (.defer (.classClosure (.cons (inner.bind apart _) outer))), nofun⟩
  | @method scope outer decl method _ member ih =>
      obtain ⟨inner, outer⟩ := List.forall_mem_cons.mp ih.1
      obtain ⟨_, _, _, _, _, _⟩ := decl
      obtain ⟨apart, inside⟩ := List.ne_and_not_mem_of_not_mem_cons ih.2
      refine ScopesSpare.body (fun listed =>
        inside (FunctionDecl.names_subset_of_mem member listed))
        (.defer (.cons (.sealed rfl) (.classClosure (.cons (inner.bind apart _) outer))))
  | extension _ ih => exact ScopesSpare.body ih.2 (.defer (.cons (.sealed rfl) ih.1))

/-- The constructs around code, innermost first. The scope of a superclass stands just outside
of the receiver's of its class and nowhere else, and the globals are outermost. -/
inductive Paired : List ScopeTag → Prop where
  | globals : Paired [.globals]
  | derived {decl : ClassDecl} {outer : List ScopeTag} : decl.superclass.isSome = true →
      Paired outer → Paired (.thisOf decl :: .superOf decl :: outer)
  | root {decl : ClassDecl} {outer : List ScopeTag} : decl.superclass.isSome = false →
      Paired outer → Paired (.thisOf decl :: outer)
  | extension {id : NodeId} {decl : FunctionDecl} {outer : List ScopeTag} : Paired outer →
      Paired (.extensionThis id decl :: outer)
  | plain {tag : ScopeTag} {outer : List ScopeTag} : tag.held? = none → Paired outer →
      Paired (tag :: outer)

namespace Paired

/-- The scopes inside of a class. -/
theorem inClass {decl : ClassDecl} {scopes : List LexicalScope}
    (paired : Paired (scopes.map (·.tag))) :
    Paired (.thisOf decl :: (classClosureScopes decl scopes).map (·.tag)) := by
  unfold classClosureScopes
  split
  · rename_i derived
    exact .derived derived paired
  · rename_i root
    exact .root (by simpa using root) paired

end Paired

/-- Scopes around code that runs later are scopes of the same constructs. -/
theorem LexicalScope.map_tag_defer (scopes : List LexicalScope) :
    (scopes.map (·.defer)).map (·.tag) = scopes.map (·.tag) := by
  rw [List.map_map]
  rfl

/-- The scopes that code stands in. -/
theorem Stands.paired {program : Program} {scopes : List LexicalScope} {code : Code}
    (stands : Stands program scopes code) : Paired (scopes.map (·.tag)) := by
  induction stands with
  | program => exact .globals
  | first _ ih | value _ _ ih | initial _ ih | branch _ _ ih | condition _ _ ih | loopBody _ _ ih
  | part _ _ ih => exact ih
  | rest _ ih =>
      rw [List.map_cons, LexicalScope.tag_after]
      exact ih
  | @opened scopes statement tag inside _ opens ih =>
      cases statement with
      | block body location | test label body location =>
          cases opens
          exact .plain rfl ih
      | _ => cases opens
  | function _ ih =>
      rw [List.map_cons, LexicalScope.map_tag_defer]
      exact .plain rfl ih
  | field _ _ _ ih =>
      rw [List.map_cons, LexicalScope.map_tag_defer]
      exact .inClass ih
  | method _ _ ih =>
      rw [List.map_cons, LexicalScope.map_tag_defer, List.map_cons]
      exact .plain rfl (.inClass ih)
  | extension _ ih =>
      rw [List.map_cons, LexicalScope.map_tag_defer, List.map_cons]
      exact .plain rfl (.extension ih)

/-- The scope of the innermost receiver: so many scopes out, and opened by which construct. -/
structure InnermostReceiver (tags : List ScopeTag) (distance : Nat) (tag : ScopeTag) : Prop where
  listed : tags[distance]? = some tag
  receives : tag.held? = some "this"
  nearer : ∀ steps other, steps < distance → tags[steps]? = some other → other.held? = none

namespace InnermostReceiver

variable {tags : List ScopeTag} {tag : ScopeTag}

private theorem here (receives : tag.held? = some "this") : InnermostReceiver (tag :: tags) 0 tag :=
  ⟨rfl, receives, fun steps _ closer => absurd closer (Nat.not_lt_zero steps)⟩

private theorem around {distance : Nat} (innermost : InnermostReceiver tags distance tag)
    {other : ScopeTag}
    (nothing : other.held? = none) : InnermostReceiver (other :: tags) (distance + 1) tag := by
  refine ⟨innermost.listed, innermost.receives, ?_⟩
  intro steps between closer listed
  cases steps with
  | zero =>
      cases listed
      exact nothing
  | succ steps => exact innermost.nearer steps between (Nat.lt_of_succ_lt_succ closer) listed

end InnermostReceiver

namespace Paired

variable {tags : List ScopeTag}

private theorem ne_nil (paired : Paired tags) : tags ≠ [] := by
  cases paired <;> exact List.cons_ne_nil _ _

/-- The globals are outermost. -/
theorem getLast? (paired : Paired tags) : tags.getLast? = some .globals := by
  induction paired with
  | globals => rfl
  | derived _ paired ih =>
      rw [List.getLast?_cons_of_ne_nil (List.cons_ne_nil _ _),
        List.getLast?_cons_of_ne_nil paired.ne_nil, ih]
  | root _ paired ih | extension paired ih | plain _ paired ih =>
      rw [List.getLast?_cons_of_ne_nil paired.ne_nil, ih]

/-- A scope for a name is not the outermost one. -/
theorem inside_of_held (paired : Paired tags) {distance : Nat} {tag : ScopeTag} {name : String}
    (listed : tags[distance]? = some tag) (held : tag.held? = some name) :
    distance + 1 < tags.length := by
  obtain ⟨bound, _⟩ := List.getElem?_eq_some_iff.mp listed
  refine Nat.lt_of_le_of_ne bound fun last => ?_
  have outermost := paired.getLast?
  rw [List.getLast?_eq_getElem?, ← last, Nat.add_sub_cancel, listed] at outermost
  cases outermost
  cases held

/-- The scope of a superclass stands just outside of the scope of a receiver. -/
theorem inside_superOf (paired : Paired tags) {distance : Nat} {decl : ClassDecl}
    (listed : tags[distance]? = some (.superOf decl)) :
    ∃ nearer, distance = nearer + 1 ∧ tags[nearer]? = some (.thisOf decl) ∧
      decl.superclass.isSome = true := by
  induction paired generalizing distance with
  | globals =>
      cases distance with
      | zero => cases listed
      | succ distance => cases listed
  | @derived other outer derived _ ih =>
      match distance with
      | 0 => cases listed
      | 1 =>
          cases listed
          exact ⟨0, rfl, rfl, derived⟩
      | distance + 2 =>
          obtain ⟨nearer, rfl, inside, builds⟩ := ih listed
          exact ⟨nearer + 2, rfl, inside, builds⟩
  | root _ _ ih | extension _ ih =>
      cases distance with
      | zero => cases listed
      | succ distance =>
          obtain ⟨nearer, rfl, inside, builds⟩ := ih listed
          exact ⟨nearer + 1, rfl, inside, builds⟩
  | plain nothing _ ih =>
      cases distance with
      | zero =>
          cases listed
          cases nothing
      | succ distance =>
          obtain ⟨nearer, rfl, inside, builds⟩ := ih listed
          exact ⟨nearer + 1, rfl, inside, builds⟩

/-- Code of a class, or of an extension, is inside the scope of a receiver, and code of a class
that builds on another one finds the superclass in the scope just outside. -/
theorem innermost (paired : Paired tags) (within : contextAround tags ≠ .none) :
    ∃ distance tag, InnermostReceiver tags distance tag ∧
      (contextAround tags = .derived → ∃ decl, tag = .thisOf decl ∧
        decl.superclass.isSome = true ∧ tags[distance + 1]? = some (.superOf decl)) := by
  induction paired with
  | globals => exact absurd rfl within
  | @derived decl outer derived _ _ =>
      exact ⟨0, .thisOf decl, .here rfl, fun _ => ⟨decl, rfl, derived, rfl⟩⟩
  | @root decl outer root _ _ =>
      refine ⟨0, .thisOf decl, .here rfl, fun kind => ?_⟩
      simp [contextAround, root] at kind
  | @extension id decl outer _ _ => exact ⟨0, .extensionThis id decl, .here rfl, nofun⟩
  | @plain tag outer nothing _ ih =>
      have same : contextAround (tag :: outer) = contextAround outer := by
        cases tag <;> simp_all [ScopeTag.held?, contextAround]
      rw [same] at within
      obtain ⟨distance, tag, innermost, superclass⟩ := ih within
      refine ⟨distance + 1, tag, innermost.around nothing, fun derived => ?_⟩
      exact superclass (same.symm.trans derived)

end Paired

end Scriptlet
