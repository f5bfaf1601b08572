import Scriptlet.Proofs.Lexical.Relabel
import Scriptlet.Proofs.Mirroring
import Scriptlet.Proofs.Rerun.Overlay
import Scriptlet.Resolution.Statement

/-!
# Facts about trees with other numbers

The numbers of the nodes of a tree are names for its nodes and no more: what the static analysis
knows of a tree is known of the tree with other numbers (`StaticScope.renumber`).
-/

namespace Scriptlet

section Renumber

variable (onId : NodeId → NodeId)

/-- An expression with other numbers. -/
abbrev Expr.renumber (expr : Expr) : Expr := expr.relabel onId id

/-- Expressions with other numbers. -/
abbrev Expr.renumberAll (items : List Expr) : List Expr := Expr.relabelAll onId id items

/-- A statement with other numbers. -/
abbrev Statement.renumber (statement : Statement) : Statement := statement.relabel onId id

/-- Statements with other numbers. -/
abbrev Statement.renumberAll (statements : List Statement) : List Statement :=
  Statement.relabelAll onId id statements

/-- A function with other numbers. -/
abbrev FunctionDecl.renumber (decl : FunctionDecl) : FunctionDecl := decl.relabel onId id

/-- A class with other numbers. -/
abbrev ClassDecl.renumber (decl : ClassDecl) : ClassDecl := decl.relabel onId id

/-- The construct that opened a scope, with other numbers. -/
def ScopeTag.renumber : ScopeTag → ScopeTag
  | .globals => .globals
  | .block inside place => .block (Statement.renumberAll onId inside) place
  | .test inside place => .test (Statement.renumberAll onId inside) place
  | .body decl => .body (decl.renumber onId)
  | .superOf decl => .superOf (decl.renumber onId)
  | .thisOf decl => .thisOf (decl.renumber onId)
  | .extensionThis id decl => .extensionThis (onId id) (decl.renumber onId)

/-- What is known of a class, with other numbers of nodes. -/
def ClassLayer.renumber (layer : ClassLayer) : ClassLayer :=
  ⟨layer.number, layer.decl.renumber onId⟩

@[inherit_doc ClassLayer.renumber]
def ClassFacts.renumber (facts : ClassFacts) : ClassFacts :=
  ⟨facts.own.renumber onId, facts.inherited.map (ClassLayer.renumber onId)⟩

/-- What is known of a name, with other numbers of nodes. -/
def Declared.renumber (declared : Declared) : Declared :=
  { declared with
    classFacts := declared.classFacts.map (ClassFacts.renumber onId)
    instanceOf := declared.instanceOf.map (ClassFacts.renumber onId) }

/-- A scope of the text, with other numbers of nodes. -/
def StaticScope.renumber (scope : StaticScope) : StaticScope :=
  ⟨scope.names.mapEntries (Declared.renumber onId), scope.upcoming, scope.level,
    scope.tag.renumber onId⟩

end Renumber

variable {onId : NodeId → NodeId}

/-! ### Trees -/

/-- Functions get other numbers one by one. -/
theorem FunctionDecl.relabelAll_eq_map (onPlace : Location → Location) (decls : List FunctionDecl) :
    FunctionDecl.relabelAll onId onPlace decls =
      decls.map (FunctionDecl.relabel onId onPlace) := by
  induction decls with
  | nil => rfl
  | cons first rest ih => rw [FunctionDecl.relabelAll, ih, List.map_cons]

/-- Statements get other numbers one by one. -/
theorem Statement.relabelAll_eq_map (onPlace : Location → Location) (statements : List Statement) :
    Statement.relabelAll onId onPlace statements =
      statements.map (Statement.relabel onId onPlace) := by
  induction statements with
  | nil => rfl
  | cons first rest ih => rw [Statement.relabelAll, ih, List.map_cons]

/-- A statement with other numbers declares the same name. -/
theorem Statement.declares?_renumber (statement : Statement) :
    (statement.renumber onId).declares? = statement.declares? := by
  cases statement with
  | function decl | classDecl decl => obtain ⟨⟩ := decl; rfl
  | ifElse _ _ elseBranch => cases elseBranch <;> rfl
  | _ => rfl

/-- A statement with other numbers stands where it stood. -/
theorem Statement.location_renumber (statement : Statement) :
    (statement.renumber onId).location = statement.location := by
  cases statement with
  | function decl | classDecl decl => obtain ⟨⟩ := decl; rfl
  | ifElse _ _ elseBranch => cases elseBranch <;> rfl
  | _ => rfl

/-- A function with other numbers has the same name. -/
theorem FunctionDecl.name_renumber (decl : FunctionDecl) :
    (decl.renumber onId).name = decl.name := by
  obtain ⟨⟩ := decl
  rfl

/-- A function with other numbers is final if it was. -/
theorem FunctionDecl.isFinal_renumber (decl : FunctionDecl) :
    (decl.renumber onId).isFinal = decl.isFinal := by
  obtain ⟨⟩ := decl
  rfl

/-! ### Classes -/

namespace ClassLayer

variable (layer : ClassLayer)

/-- A class with other numbers has the same name. -/
theorem name_renumber : (layer.renumber onId).name = layer.name := by
  obtain ⟨number, ⟨⟩⟩ := layer
  rfl

/-- A class with other numbers is final if it was. -/
theorem isFinal_renumber : (layer.renumber onId).isFinal = layer.isFinal := by
  obtain ⟨number, ⟨⟩⟩ := layer
  rfl

private theorem finalMethods_renumber :
    (layer.renumber onId).finalMethods = layer.finalMethods := by
  obtain ⟨number, ⟨name, superclass, fields, methods, isFinal, place⟩⟩ := layer
  unfold finalMethods renumber
  simp only [ClassDecl.relabel, FunctionDecl.relabelAll_eq_map, List.filter_map, List.map_map]
  congr 1
  · funext decl
    exact decl.name_renumber
  · exact congrArg (List.filter · methods) (funext fun decl => decl.isFinal_renumber)

private theorem fields_renumber : (layer.renumber onId).fields = layer.fields := by
  obtain ⟨number, ⟨name, superclass, fields, methods, isFinal, place⟩⟩ := layer
  unfold ClassLayer.fields renumber
  simp only [ClassDecl.relabel, List.foldl_map, FieldDecl.relabel, Option.isSome_map]

end ClassLayer

namespace ClassFacts

variable (facts : ClassFacts)

private theorem layers_renumber :
    (facts.renumber onId).layers = facts.layers.map (ClassLayer.renumber onId) := rfl

/-- A class with other numbers has the same final methods. -/
theorem hasFinalMethod_renumber (name : String) :
    (facts.renumber onId).hasFinalMethod name = facts.hasFinalMethod name := by
  unfold hasFinalMethod
  rw [layers_renumber, List.any_map]
  congr 1
  funext layer
  exact congrArg (List.contains · name) layer.finalMethods_renumber

/-- A class with other numbers has the same fields, of the classes with other numbers. -/
theorem field?_renumber (name : String) :
    (facts.renumber onId).field? name =
      (facts.field? name).map (Prod.map (ClassLayer.renumber onId) id) := by
  unfold field?
  rw [layers_renumber]
  induction facts.layers with
  | nil => rfl
  | cons first rest ih =>
      rw [List.map_cons, List.findSome?_cons, List.findSome?_cons, first.fields_renumber, ih]
      cases first.fields.find? name <;> rfl

/-- What is known of a declaration with other numbers is what is known of it, with other numbers. -/
theorem ofDecl_renumber (decl : ClassDecl) (number : Nat) (superclass : Option ClassFacts) :
    ofDecl (decl.renumber onId) number (superclass.map (ClassFacts.renumber onId)) =
      (ofDecl decl number superclass).renumber onId := by
  cases superclass <;> rfl

end ClassFacts

/-! ### Scopes -/

/-- Changing what is known of a name goes the same with other numbers. -/
theorem StaticScope.adjust_renumber (scope : StaticScope) (name : String)
    {change changeImage : Declared → Declared}
    (same : ∀ declared, changeImage (declared.renumber onId) = (change declared).renumber onId) :
    (scope.renumber onId).adjust name changeImage = (scope.adjust name change).renumber onId := by
  unfold adjust renumber
  simp only [Table.find?_mapEntries]
  cases scope.names.find? name with
  | none => rfl
  | some declared => simp [Table.mapEntries_put, same]

namespace Analysis

/-- A name is found as far out with other numbers. -/
theorem lookupFrom_renumber (name : String) (distance : Nat) (scopes : List StaticScope) :
    lookupFrom name distance (scopes.map (StaticScope.renumber onId)) =
      (lookupFrom name distance scopes).map (Prod.map id (Declared.renumber onId)) := by
  induction scopes generalizing distance with
  | nil => rfl
  | cons scope outer ih =>
      rw [List.map_cons, lookupFrom, lookupFrom, ih]
      unfold StaticScope.renumber
      simp only [Table.find?_mapEntries]
      cases scope.names.find? name with
      | none => rfl
      | some declared => cases outer <;> rfl

/-- A name is used early with other numbers just if it is without. -/
theorem usedEarlyIn_renumber (name : String) (level : Nat) (scopes : List StaticScope) :
    usedEarlyIn name level (scopes.map (StaticScope.renumber onId)) =
      usedEarlyIn name level scopes := by
  induction scopes with
  | nil => rfl
  | cons scope outer ih =>
      rw [List.map_cons, usedEarlyIn, usedEarlyIn, ih]
      unfold StaticScope.renumber
      simp only [Table.contains_mapEntries]

/-- Forgetting the class of a variable goes the same with other numbers. -/
theorem forgetInstanceIn_renumber (name : String) (scopes : List StaticScope) :
    forgetInstanceIn name (scopes.map (StaticScope.renumber onId)) =
      (forgetInstanceIn name scopes).map (StaticScope.renumber onId) := by
  induction scopes with
  | nil => rfl
  | cons scope outer ih =>
      rw [List.map_cons, forgetInstanceIn, forgetInstanceIn, ih]
      unfold StaticScope.renumber
      simp only [Table.find?_mapEntries]
      cases scope.names.find? name with
      | none => rfl
      | some declared => simp [Table.mapEntries_put, Declared.renumber]

end Analysis

end Scriptlet
