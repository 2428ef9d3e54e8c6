import DeclTree.Source.Blank
import DeclTree.Walk.Basic

/-!
# Traces of walks

A recorder writes down every event it is shown, and then fails where it has
been told to.
-/

namespace DeclTree

/-- An order to fail: at which events, and with what message wrapped in which
contexts, innermost first.  Kind and name of the node count only where they are
given. -/
structure PlannedFault where
  event : String
  kind : Option String := none
  name : Option String := none
  message : String
  contexts : List String := []

namespace PlannedFault

/-- Whether a fault is planned for an event at a node. -/
def applies (fault : PlannedFault) (event : VisitEvent) (node : Node) : Bool :=
  fault.event == event.text &&
    fault.kind.all (· == node.kind.text) &&
    fault.name.all (· == node.kind.name?.getD "")

/-- The failure that a fault leads to. -/
def failure (fault : PlannedFault) : Failure :=
  ⟨fault.contexts.reverse ++ [fault.message]⟩

end PlannedFault

def trimEnd (text : String) : String :=
  String.ofList (text.toList.reverse.dropWhile isWhiteSpace).reverse

def traceLine (event : VisitEvent) (id : NodeId) (node : Node) : String :=
  trimEnd (event.text ++ " " ++ toString id.index ++ " " ++ node.kind.text ++ " " ++
    node.kind.name?.getD "")

def Visitor.recorder (faults : List PlannedFault) : Visitor (List String) where
  visit event id node lines :=
    ((faults.find? fun fault => fault.applies event node).map PlannedFault.failure,
      lines ++ [traceLine event id node])

end DeclTree
