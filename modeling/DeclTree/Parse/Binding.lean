import DeclTree.Parse.Reading
import DeclTree.Symbol.Lookup

/-!
# Scopes, symbols and nodes of a parse

What a parse changes besides its cursor: the scopes it is inside, the symbols
it declares and the nodes it grows.
-/

namespace DeclTree

namespace ParseM

def frame : ParseM ScopeFrame :=
  return (← get).scopes.inner

/-- The scope in which names are looked up first. -/
def lookupScope : ParseM SymbolId :=
  return (← frame).symbol

def unit : ParseM UnitId :=
  return (← get).tree.unit

def table : ParseM SymbolTable :=
  return (← get).table

def setTable (table : SymbolTable) : ParseM Unit :=
  modify fun state => { state with table := table }

/-- The name of the class whose body is being read. -/
def className? : ParseM (Option String) :=
  return (← get).scopes.className?

/-- Stop if one more scope would be too many. -/
def checkNesting (span : Span) : ParseM Unit := do
  let state ← get
  if state.depthLimit ≤ state.scopes.depth then
    refuse (.tooDeep state.depthLimit) span

def pushScope (frame : ScopeFrame) : ParseM Unit :=
  modify fun state => { state with scopes := state.scopes.push frame }

def popScope : ParseM Unit :=
  modify fun state => { state with scopes := state.scopes.pop }

/-- Change the symbol table, or stop if it refuses. -/
def changeTable {α : Type} (span : Span)
    (change : SymbolTable → Except SymbolError (α × SymbolTable)) : ParseM α := do
  match change (← table) with
  | .ok (value, changed) =>
      setTable changed
      return value
  | .error error => refuse (.symbol error) span

/-- Enter a symbol where the innermost scope declares, or in the scope that a
qualifier names. -/
def declare (request : SymbolRequest) (qualifier : Option SymbolId) (span : Span) :
    ParseM SymbolId := do
  let request := { request with unit := some (← unit) }
  let frame ← frame
  match frame.target with
  | .container =>
      changeTable span fun table => table.declare (qualifier.getD frame.symbol) request
  | .template factory container =>
      let (outcome, changed) :=
        (← table).declareTemplated factory (qualifier.getD container) request
      setTable changed
      match outcome with
      | .ok symbol =>
          modify fun state => { state with scopes := state.scopes.consume }
          return symbol
      | .error error => refuse (.symbol error) span
  | .consumed => refuse .secondEntity span

/-- The scope that the segments of a qualifier name. -/
def resolveScope (segments : List String) (isGlobal : Bool) (span : Span) :
    ParseM SymbolId := do
  let table ← table
  match table.lookupQualified segments (← lookupScope) isGlobal with
  | .error error => refuse (.symbol error) span
  | .ok named =>
      match table.scopeOf named with
      | some scope => return scope
      | none => refuse (.symbol (.notAContainer (table.qualifiedName named))) span

/-! ## Nodes -/

/-- Record a node as the origin of a symbol that has none yet. -/
def recordOrigin (node : NodeRef) (symbol : Symbol) : Symbol :=
  if symbol.origin.isNone then { symbol with origin := some node } else symbol

/-- Start a node inside another one, without which the parse is stuck.  The first
node of a symbol is its origin. -/
def addNodeUnder (parent : NodeId) (kind : NodeKind) (start : Span) : ParseM NodeId := do
  let state ← get
  if parent.index < state.tree.size then
    let (node, tree) := state.tree.add kind parent start
    let table :=
      match kind.symbol? with
      | some symbol => state.table.update symbol (recordOrigin (tree.ref node))
      | none => state.table
    set { state with tree := tree, table := table }
    return node
  else
    throw .stuck

def addNode (kind : NodeKind) (start : Span) : ParseM NodeId := do
  addNodeUnder (← frame).node kind start

/-- Finish a node at the end of a span. -/
def finishNodeAt (node : NodeId) (last : Span) : ParseM Unit :=
  modify fun state => { state with tree := state.tree.finish node last }

/-- Finish a node at the last token read. -/
def finishNode (node : NodeId) : ParseM Unit := do
  finishNodeAt node (← previousSpan)

end ParseM

end DeclTree
