import DeclTree.Node.Tree
import DeclTree.Parse.Complaint
import DeclTree.Parse.Cursor
import DeclTree.Parse.Scope

/-!
# The state of a parse

A parse reads tokens, grows the tree of the unit and the symbol table, keeps
the scopes it is inside and collects errors.  It stops at an error, keeping
everything done so far, and is taken up again by `attempt`.  A parse that would
pass the end of the source or refer to a token, symbol or node that is not there
is `stuck`, and so is one that would go on without reading anything; loops and
nested declarations carry a bound for this, taken from the reading left to do.
-/

namespace DeclTree

/-- What a parse works on. -/
structure ParseState where
  cursor : Cursor
  errors : Array ParseError := #[]
  tree : Tree
  table : SymbolTable
  scopes : ScopeStack
  depthLimit : Nat

/-- Why a parse stops early. -/
inductive Halt
  | refused (error : ParseError)
  | stuck

/-- A parse that yields a value or stops early. -/
abbrev ParseM := EStateM Halt ParseState

namespace ParseM

/-- Stop with an error. -/
def refuse {α : Type} (complaint : Complaint) (span : Span) : ParseM α :=
  throw (.refused (complaint.locate span))

/-- Report an error and go on. -/
def report (error : ParseError) : ParseM Unit :=
  modify fun state => { state with errors := state.errors.push error }

/-- Report a complaint and go on. -/
def complain (complaint : Complaint) (span : Span) : ParseM Unit :=
  report (complaint.locate span)

/-- Take up a parse that stopped with an error, keeping all it did. -/
def attempt {α : Type} (parse : ParseM α) : ParseM (Except ParseError α) := fun state =>
  match parse state with
  | .ok value next => .ok (.ok value) next
  | .error (.refused error) next => .ok (.error error) next
  | .error .stuck next => .error .stuck next

/-- Stop with an error caught earlier, or yield its value. -/
def resume {α : Type} : Except ParseError α → ParseM α
  | .ok value => pure value
  | .error error => throw (.refused error)

/-- Whether a loop goes round again or ends. -/
inductive Step (α β : Type)
  | again (state : α)
  | done (result : β)

/-- Go round at most `bound` times. -/
def loop {α β : Type} (step : α → ParseM (Step α β)) : Nat → α → ParseM β
  | 0, _ => throw .stuck
  | bound + 1, current => do
      match ← step current with
      | .done result => return result
      | .again next => loop step bound next

/-- Go round until the step is done.  Every round has to read something. -/
def iterate {α β : Type} (step : α → ParseM (Step α β)) (start : α) : ParseM β := do
  let state ← get
  loop step (state.cursor.weight + 1) start

end ParseM

end DeclTree
