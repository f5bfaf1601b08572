import Scriptlet.Table
import Scriptlet.Value.Basic

/-!
# Native modules

A native module offers functions of the host under names, each with overloads
told apart by the types of their parameters. A call takes the overload that fits
its arguments best.
-/

namespace Scriptlet

/-- What a parameter of a native function accepts. -/
inductive ParamType where
  | any | number | string | char | bool | array | object | callable | nil
  deriving DecidableEq, Repr

/-- The name of a parameter type. -/
def ParamType.name : ParamType → String
  | any => "Any"
  | number => "Number"
  | string => "Str"
  | char => "Char"
  | bool => "Bool"
  | array => "Array"
  | object => "Instance"
  | callable => "Callable"
  | nil => "Nil"

/-- Every parameter type. -/
def ParamType.all : List ParamType :=
  [any, number, string, char, bool, array, object, callable, nil]

/-- What a native function does with its arguments. -/
inductive HostAction where
  /-- Joins the texts of the arguments with bars. -/
  | joinTexts
  /-- Joins the type names of the arguments with commas. -/
  | joinTypes
  /-- Makes an array of the arguments. -/
  | collect
  /-- Counts its own calls. -/
  | countCalls
  /-- Adds the second argument to the end of the first. -/
  | append
  /-- Answers a value. -/
  | answer (value : Value)
  /-- Answers one of the arguments. -/
  | argument (index : Nat)
  /-- Answers a field of its first argument, whoever may see it. -/
  | field (name : String)
  /-- Fails. -/
  | fail (message : String)

/-- One overload of a native function, and how often it was called. -/
structure Overload where
  params : List ParamType
  action : HostAction
  calls : Nat

/-- A native module. -/
structure NativeModule where
  name : String
  functions : Table (List Overload)

/-- Why no overload is chosen. -/
inductive OverloadFault where
  | unknownFunction
  | noMatch
  | ambiguous (candidates : Nat)
  deriving DecidableEq, Repr

/-- How well a value fits a parameter: two points for its own type, one for a
parameter that takes anything. -/
def ParamType.score : ParamType → Value → Option Nat
  | any, _ => some 1
  | number, .number _ => some 2
  | string, .string _ => some 2
  | char, .char _ => some 2
  | bool, .bool _ => some 2
  | array, .array _ => some 2
  | object, .object _ => some 2
  | callable, .function _ => some 2
  | callable, .native _ => some 2
  | callable, .classValue _ => some 2
  | nil, .nil => some 2
  | _, _ => none

/-- How well arguments fit parameters of the same number. -/
def scoreAll : List ParamType → List Value → Option Nat
  | [], [] => some 0
  | param :: params, argument :: arguments =>
    match param.score argument, scoreAll params arguments with
    | some first, some rest => some (first + rest)
    | _, _ => none
  | _, _ => none

/-- How well arguments fit an overload. -/
def Overload.score (overload : Overload) (arguments : List Value) : Option Nat :=
  scoreAll overload.params arguments

/-- The best overload of a pass over a list: its score, its place in the list, and
how many overloads share the score. -/
structure Selection where
  score : Nat
  place : Nat
  ties : Nat
  deriving DecidableEq, Repr

/-- Takes one more overload into account: a better one replaces the best, an equal
one ties with it. -/
def Selection.consider (best : Option Selection) (place : Nat) (score : Option Nat) :
    Option Selection :=
  match score, best with
  | none, _ => best
  | some score, none => some ⟨score, place, 1⟩
  | some score, some old =>
    if score < old.score then best
    else if score = old.score then some { old with ties := old.ties + 1 }
    else some ⟨score, place, 1⟩

/-- Passes over overloads from the given place on. -/
def selectFrom (arguments : List Value) (place : Nat) (best : Option Selection) :
    List Overload → Option Selection
  | [] => best
  | overload :: rest =>
    selectFrom arguments (place + 1)
      (Selection.consider best place (overload.score arguments)) rest

namespace NativeModule

/-- The module with no function. -/
def ofName (name : String) : NativeModule := ⟨name, []⟩

/-- Adds an overload behind those a function has. -/
def addOverload (native : NativeModule) (name : String) (params : List ParamType)
    (action : HostAction) : NativeModule :=
  let overloads := (native.functions.find? name).getD []
  { native with functions := native.functions.put name (overloads ++ [⟨params, action, 0⟩]) }

/-- Whether the module has a function of this name. -/
def hasFunction (native : NativeModule) (name : String) : Bool :=
  native.functions.contains name

/-- The place of the overload a call takes. Of several that fit equally well the
first is taken if that is permitted. -/
def select (native : NativeModule) (name : String) (arguments : List Value)
    (permitAmbiguous : Bool) : Except OverloadFault Selection :=
  match native.functions.find? name with
  | none => .error .unknownFunction
  | some overloads =>
    match selectFrom arguments 0 none overloads with
    | none => .error .noMatch
    | some best =>
      if 1 < best.ties && !permitAmbiguous then .error (.ambiguous best.ties) else .ok best

/-- The overload at a place. -/
def overload? (native : NativeModule) (name : String) (place : Nat) : Option Overload :=
  match native.functions.find? name with
  | some overloads => overloads[place]?
  | none => none

/-- Counts a call of the overload at a place. -/
def countCall (native : NativeModule) (name : String) (place : Nat) : NativeModule :=
  match native.functions.find? name with
  | some overloads =>
    { native with
      functions := native.functions.put name
        (overloads.modify place fun overload => { overload with calls := overload.calls + 1 }) }
  | none => native

end NativeModule

end Scriptlet
