import DeclTree.Diagnostic
import DeclTree.Node.Tree

/-!
# Walking a tree

A walk shows the nodes of a tree to a visitor in document order: a scope is
entered, then comes what is inside it, then it is left; a leaf is shown once.
A visitor may fail at any node.  The failure becomes a diagnostic, and the walk
goes on; depending on the policy it passes over the inside of a scope that could
not be entered, but leaves that scope all the same.
-/

namespace DeclTree

/-- How a node is shown to a visitor. -/
inductive VisitEvent
  | enter
  | exit
  | accept
  deriving DecidableEq

namespace VisitEvent

def text : VisitEvent → String
  | .enter => "enter"
  | .exit => "exit"
  | .accept => "accept"

/-- What an event asks of a node. -/
def operation : VisitEvent → NodeOperation
  | .enter => .enterScope
  | .exit => .exitScope
  | .accept => .accept

/-- Whether a kind of node has an event: scopes are entered and left, all others
are accepted. -/
def applies (event : VisitEvent) (kind : NodeKind) : Bool :=
  match event with
  | .enter | .exit => kind.isScope
  | .accept => !kind.isScope

end VisitEvent

/-- Why a visitor failed: what went wrong, behind the contexts in which it did,
outermost first. -/
structure Failure where
  reasons : List String
  deriving DecidableEq

def Failure.text (failure : Failure) : String :=
  ": ".intercalate failure.reasons

/-- Something that is shown nodes, keeps a state and may fail. -/
structure Visitor (σ : Type) where
  visit : VisitEvent → NodeId → Node → σ → Option Failure × σ

namespace Visitor

def silent : Visitor Unit where
  visit _ _ _ state := (none, state)

/-- Show a node to a visitor; an event that the node does not have is a failure
of its own. -/
def deliver {σ : Type} (visitor : Visitor σ) (event : VisitEvent) (id : NodeId) (node : Node)
    (state : σ) : Option Failure × σ :=
  if event.applies node.kind then visitor.visit event id node state
  else (some ⟨[(node.unsupported event.operation).message]⟩, state)

end Visitor

/-- What happens when a scope cannot be entered. -/
inductive FaultPolicy
  | carryOn
  | skipSubtree
  deriving DecidableEq

/-- What happened on a walk: how many scopes were entered and left, how many
leaves accepted, how many nodes passed over, and the failures. -/
structure WalkReport where
  entered : Nat := 0
  exited : Nat := 0
  accepted : Nat := 0
  skipped : Nat := 0
  diagnostics : List Diagnostic := []
  deriving DecidableEq

namespace WalkReport

def hasFaults (report : WalkReport) : Bool :=
  Diagnostic.hasErrors report.diagnostics

def count (report : WalkReport) : VisitEvent → WalkReport
  | .enter => { report with entered := report.entered + 1 }
  | .exit => { report with exited := report.exited + 1 }
  | .accept => { report with accepted := report.accepted + 1 }

def addDiagnostic (report : WalkReport) (diagnostic : Diagnostic) : WalkReport :=
  { report with diagnostics := report.diagnostics ++ [diagnostic] }

/-- Count nodes that were passed over. -/
def addSkipped (report : WalkReport) (count : Nat) : WalkReport :=
  { report with skipped := report.skipped + count }

end WalkReport

/-- A walk under way: the visitor's state and what happened so far. -/
structure Walk (σ : Type) where
  state : σ
  report : WalkReport := {}

namespace Walk

def failureDiagnostic (tree : Tree) (event : VisitEvent) (id : NodeId) (node : Node)
    (failure : Failure) : Diagnostic :=
  let message := event.text ++ " " ++ node.kind.text ++ " failed: " ++ failure.text
  Diagnostic.locate { severity := .error, message := message } (tree.ref id)
    node.range.startLine

/-- Show one node to the visitor, and say whether it failed. -/
def deliver {σ : Type} (tree : Tree) (visitor : Visitor σ) (event : VisitEvent) (id : NodeId)
    (node : Node) (walk : Walk σ) : Bool × Walk σ :=
  let (failure, state) := visitor.deliver event id node walk.state
  let report := walk.report.count event
  match failure with
  | none => (false, ⟨state, report⟩)
  | some failure =>
      (true, ⟨state, report.addDiagnostic (failureDiagnostic tree event id node failure)⟩)

/-- The number of nodes inside a node, at most `bound` levels deep. -/
def countInside (tree : Tree) : Nat → NodeId → Nat
  | 0, _ => 0
  | bound + 1, id => ((tree.children id).map fun child => 1 + countInside tree bound child).sum

/-- Walk over a node and what is inside it, at most `bound` levels deep. -/
def visit {σ : Type} (tree : Tree) (visitor : Visitor σ) (policy : FaultPolicy) :
    Nat → NodeId → Walk σ → Walk σ
  | 0, _, walk => walk
  | bound + 1, id, walk =>
      match tree.get? id with
      | none => walk
      | some node =>
          if node.kind.isScope then
            let (failed, entered) := walk.deliver tree visitor .enter id node
            let inside :=
              if failed && policy == .skipSubtree then
                { entered with report := entered.report.addSkipped (countInside tree tree.size id) }
              else
                node.children.foldl (fun walk child => visit tree visitor policy bound child walk)
                  entered
            (inside.deliver tree visitor .exit id node).2
          else
            (walk.deliver tree visitor .accept id node).2

end Walk

def Tree.walk {σ : Type} (tree : Tree) (visitor : Visitor σ) (policy : FaultPolicy)
    (state : σ) : Walk σ :=
  Walk.visit tree visitor policy tree.size Tree.root { state := state }

end DeclTree
