import Scriptlet.Diagnostic
import Scriptlet.Grammar.Fault
import Scriptlet.Resolution.Fault
import Scriptlet.Run.Fault
import Scriptlet.Token.Basic

/-!
# Faults of a script

The first phases report all their faults together, the later ones stop at the
first.
-/

namespace Scriptlet

/-- Why a script fails. -/
inductive ScriptFault where
  | lex (faults : List (Located LexFault))
  | parse (faults : List (Located ParseFault))
  | resolve (fault : Located ResolveFault)
  | runtime (fault : Located RuntimeFault)
  | hook (phase : Phase) (message : String)
  | unfinished

namespace ScriptFault

/-- The phase a fault belongs to. -/
def phase : ScriptFault → Phase
  | lex _ => .tokenizing
  | parse _ => .parsing
  | resolve _ => .resolving
  | runtime _ => .interpreting
  | hook phase _ => phase
  | unfinished => .interpreting

/-- The short name of a fault. -/
def name : ScriptFault → String
  | lex _ => "Lex"
  | parse _ => "Parse"
  | resolve _ => "Resolve"
  | runtime _ => "Runtime"
  | hook _ _ => "Customizer"
  | unfinished => "Unfinished"

/-- The wording of a fault as a whole. -/
def message : ScriptFault → String
  | lex faults => "tokenizing failed with " ++ toString faults.length ++ " error(s)"
  | parse faults => "parsing failed with " ++ toString faults.length ++ " error(s)"
  | resolve fault => fault.cause.message
  | runtime fault => fault.cause.message
  | hook phase message => phase.name ++ " customizer failed: " ++ message
  | unfinished => "the run was cut off"

/-- What the single faults tell, in order. -/
def details : ScriptFault → List Detail
  | lex faults => faults.map fun fault => ⟨fault.cause.name, fault.cause.message, fault.location⟩
  | parse faults => faults.map fun fault => ⟨fault.cause.name, fault.cause.message, fault.location⟩
  | resolve fault => [⟨fault.cause.name, fault.cause.message, fault.location⟩]
  | runtime fault => [⟨fault.cause.name, fault.cause.message, fault.location⟩]
  | hook _ _ | unfinished => []

/-- The diagnostics of a fault, in order. A fault a hook raised points nowhere. -/
def render (source : String) (fault : ScriptFault) : List String :=
  match fault with
  | hook phase message => [phase.name ++ " error: " ++ message]
  | fault => fault.details.map fun detail =>
    Diagnostic.render source fault.phase detail.message detail.location

end ScriptFault

end Scriptlet
