/-!
# Phases

A script is tokenized, parsed, resolved and interpreted, in this order.
-/

namespace Scriptlet

/-- The phases of a script. -/
inductive Phase where
  | tokenizing | parsing | resolving | interpreting
  deriving DecidableEq, Repr

/-- The name of a phase in messages. -/
def Phase.name : Phase → String
  | tokenizing => "Tokenizing"
  | parsing => "Parsing"
  | resolving => "Resolving"
  | interpreting => "Interpreting"

/-- All phases, in order. -/
def Phase.all : List Phase := [tokenizing, parsing, resolving, interpreting]

end Scriptlet
