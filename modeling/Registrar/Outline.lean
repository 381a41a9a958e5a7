import Registrar.Visibility

/-!
Contract: the graph as text.

Owns: the outline of a graph, a line a node, indented by depth, with what is
decided for the node.

Does not own: the decisions.
-/

set_option autoImplicit false

namespace Registrar.Outline

inductive Stage where
  /-- All nodes. -/
  | visibility
  /-- Those that are emitted, below others that are. -/
  | pruned
  deriving DecidableEq

namespace Stage

def ofName? : String → Option Stage
  | "visibility" => some visibility
  | "pruned" => some pruned
  | _ => none

/-- What a reader is told about a name that is none of a stage. -/
def unknownMessage (name : String) : String :=
  "unknown graph stage '" ++ name ++ "' (expected 'visibility' or 'pruned')"

end Stage

def decisionWord (visibility : Visibility) (id : Nat) : String :=
  if visibility.isEmitted id then "visible"
  else if visibility.isPruned id then "pruned"
  else "hidden"

/-- The line of a node at a depth, without its end. -/
def lineOf (visibility : Visibility) (depth : Nat) (node : Node) : String :=
  let name := if node.name.isEmpty then "<n" ++ toString node.id ++ ">" else node.name
  let exposed := visibility.exposedName node.id
  let renamed := !exposed.isEmpty && exposed != node.name
  String.ofList (List.replicate (2 * depth) ' ') ++ node.kind.name ++ " " ++ name ++ " ["
    ++ decisionWord visibility node.id ++ "]" ++ (if renamed then " as " ++ exposed else "")

/-- The lines of a node and those below it, from a depth on, so many levels. -/
def linesFrom (graph : Graph) (visibility : Visibility) (stage : Stage) (depth : Nat) :
    Nat → Node → List String
  | 0, _ => []
  | levels + 1, node =>
      if stage == .pruned && !visibility.isEmitted node.id then []
      else
        lineOf visibility depth node
          :: (graph.childrenOf node).flatMap
            (linesFrom graph visibility stage (depth + 1) levels)

def lines (graph : Graph) (visibility : Visibility) (stage : Stage) : List String :=
  (graph.nodesOf [Graph.root]).flatMap (linesFrom graph visibility stage 0 graph.size)

/-- The outline, each line with its end. -/
def text (graph : Graph) (visibility : Visibility) (stage : Stage) : String :=
  String.join ((lines graph visibility stage).map fun line => line ++ "\n")

end Registrar.Outline
