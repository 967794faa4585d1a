import ShapeFlow.ValueInfo

/-! What a run tells on its way: one record for each operator inferred, two around each fused graph,
    the dump of a result that was asked for, and a warning for a setting that makes no sense. -/

namespace ShapeFlow

/-- How loud a record is. -/
inductive Level where | debug | info | warn
  deriving DecidableEq, Repr

/-- The name of a level. -/
def Level.name : Level → String
  | .debug => "debug"
  | .info => "info"
  | .warn => "warn"

/-- A record of a run. The depth of a graph that is entered counts the fused nodes around it. -/
inductive Event where
  | inferred (op : String) (inputs outputs : List ValueInfo)
  | entered (op : String) (depth nodes : Nat)
  | left (op : String)
  | dumped (text : String)
  | badFlag (text : String)
  deriving DecidableEq, Repr

namespace Event

/-- The level of a record. -/
def level : Event → Level
  | dumped _ => .info
  | badFlag _ => .warn
  | _ => .debug

/-- The text of a record. -/
def message : Event → String
  | inferred op inputs outputs =>
    op ++ " (" ++ ValueInfo.listText inputs ++ ") -> (" ++ ValueInfo.listText outputs ++ ")"
  | entered op depth nodes =>
    "Entering subgraph of " ++ op ++ " at depth " ++ toString depth ++ " with "
      ++ toString nodes ++ " nodes"
  | left op => "Leaving subgraph of " ++ op
  | dumped text => "Inferred shapes:\n" ++ text
  | badFlag text => "Unrecognized boolean value \"" ++ text ++ "\""

end Event

end ShapeFlow
