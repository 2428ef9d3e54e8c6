import DeclTree.Handle

/-!
# Diagnostics

A diagnostic reports a problem that did not stop the operation that met it: a
visitor that failed at a node, or a template factory left unbalanced.
-/

namespace DeclTree

/-- How serious a diagnostic is. -/
inductive Severity
  | info
  | warning
  | error
  deriving DecidableEq

namespace Severity

def text : Severity → String
  | .info => "info"
  | .warning => "warning"
  | .error => "error"

def rank : Severity → Nat
  | .info => 0
  | .warning => 1
  | .error => 2

end Severity

/-- A problem met on the way.  The node at which it surfaced and the line of
that node are known only for some; an unknown line is zero. -/
structure Diagnostic where
  severity : Severity
  message : String
  node : Option NodeRef := none
  line : Nat := 0
  deriving DecidableEq

namespace Diagnostic

/-- Attach the node at which a problem surfaced, and its line. -/
def locate (diagnostic : Diagnostic) (node : NodeRef) (line : Nat) : Diagnostic :=
  { diagnostic with node := some node, line := line }

/-- A diagnostic on one line, its source line first where it is known. -/
def text (diagnostic : Diagnostic) : String :=
  let report := diagnostic.severity.text ++ ": " ++ diagnostic.message
  if diagnostic.line = 0 then report else toString diagnostic.line ++ ": " ++ report

def listText (diagnostics : List Diagnostic) : String :=
  "\n".intercalate (diagnostics.map text)

/-- The diagnostics of a severity or a higher one. -/
def atLeast (severity : Severity) (diagnostics : List Diagnostic) : List Diagnostic :=
  diagnostics.filter fun diagnostic => severity.rank ≤ diagnostic.severity.rank

def hasErrors (diagnostics : List Diagnostic) : Bool :=
  diagnostics.any fun diagnostic => diagnostic.severity == .error

end Diagnostic

end DeclTree
