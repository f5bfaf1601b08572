import Scriptlet.Table
import Scriptlet.Tree.Statement

/-!
# What is known of a class before a run

The facts of a class declaration, together with those of the classes it is known
to build on.
-/

namespace Scriptlet

/-- What is known of a field. -/
structure FieldFacts where
  visibility : Visibility
  isFinal : Bool
  initialized : Bool
  deriving DecidableEq, Repr

/-- One class declaration. Declarations are told apart by number. -/
structure ClassLayer where
  number : Nat
  decl : ClassDecl

namespace ClassLayer

def name (layer : ClassLayer) : String :=
  layer.decl.name

def isFinal (layer : ClassLayer) : Bool :=
  layer.decl.isFinal

/-- The methods a class marks final itself. -/
def finalMethods (layer : ClassLayer) : List String :=
  (layer.decl.methods.filter (·.isFinal)).map (·.name)

/-- The fields a class declares itself. Of two fields of one name the later counts. -/
def fields (layer : ClassLayer) : Table FieldFacts :=
  layer.decl.fields.foldl
    (fun fields field =>
      fields.put field.name ⟨field.visibility, field.isFinal, field.initial.isSome⟩) []

end ClassLayer

/-- A class and the known classes it builds on, nearest first. -/
structure ClassFacts where
  own : ClassLayer
  inherited : List ClassLayer

namespace ClassFacts

/-- The class and what it builds on. -/
def layers (facts : ClassFacts) : List ClassLayer :=
  facts.own :: facts.inherited

/-- The facts of a declaration. -/
def ofDecl (decl : ClassDecl) (number : Nat) (superclass : Option ClassFacts) : ClassFacts where
  own := ⟨number, decl⟩
  inherited :=
    match superclass with
    | some superclass => superclass.layers
    | none => []

/-- The nearest class that declares a field, with what is known of the field. -/
def field? (facts : ClassFacts) (name : String) : Option (ClassLayer × FieldFacts) :=
  facts.layers.findSome? fun layer => (layer.fields.find? name).map (layer, ·)

/-- Whether the class, or one it builds on, marks a method final. -/
def hasFinalMethod (facts : ClassFacts) (name : String) : Bool :=
  facts.layers.any fun layer => layer.finalMethods.contains name

end ClassFacts

end Scriptlet
