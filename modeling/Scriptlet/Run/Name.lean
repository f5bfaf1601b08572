import Scriptlet.Run.Machine

/-!
# Names at run time

A name with a recorded distance is looked up in exactly the scope that many steps
out; any other name is a global.
-/

namespace Scriptlet.Run

/-- Notes that a node uses a name in the current scope. -/
def noteUse (id : NodeId) (name : String) : Run Use :=
  modifyGet fun machine =>
    let use : Use := ⟨id, name, machine.env⟩
    (use, { machine with uses := use :: machine.uses })

/-- The value of a name where it is used. -/
def valueOf? (setting : Setting) (use : Use) (store : Store) : Option Value :=
  match setting.resolutions.distance? use.id with
  | some distance => store.valueAt? use.env distance use.name
  | none => store.value? setting.globals use.name

/-- The value of a name. -/
def lookup (setting : Setting) (id : NodeId) (name : String) (location : Location) :
    Run Value := do
  let use ← noteUse id name
  match ← inspect (valueOf? setting use) with
  | some value => return value
  | none => fail (.undefinedVariable name) location

/-- The scope an assignment to a name changes. -/
def assignTarget (setting : Setting) (use : Use) (store : Store) :
    Except BindingFault ScopeRef :=
  match setting.resolutions.distance? use.id with
  | some distance => store.assignTargetAt use.env distance use.name
  | none => store.assignTarget setting.globals use.name

/-- The fault of a name that cannot be assigned to. -/
def assignFault (name : String) : BindingFault → RuntimeFault
  | .undefined => .undefinedVariable name
  | .final => .finalReassignment name

/-- Assigns to a name. -/
def assign (setting : Setting) (id : NodeId) (name : String) (value : Value)
    (location : Location) : Run Unit := do
  let use ← noteUse id name
  match ← inspect (assignTarget setting use) with
  | .ok scope => change (·.define scope name value false)
  | .error fault => fail (assignFault name fault) location

end Scriptlet.Run
