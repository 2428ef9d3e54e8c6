import DeclTree.Parse.Unit
import DeclTree.Walk.Basic

/-!
# Sessions

A session parses several units against one symbol table, so that names declared
by a unit are visible in the units after it.  Finishing a session seals all
template declarations and reports factories with open frames.
-/

namespace DeclTree

/-- Several units and their common symbol table. -/
structure Session where
  options : ParseOptions := {}
  table : SymbolTable := .empty
  units : Array Tree := #[]

namespace Session

/-- Parse a source as the next unit.  The unit is kept in any case. -/
def parse (session : Session) (source : String) : UnitId × List ParseError × Session :=
  let unit : UnitId := ⟨session.units.size⟩
  let parsed := parseUnit session.options session.table unit source
  (unit, parsed.errors,
    { session with table := parsed.table, units := session.units.push parsed.tree })

/-- Parse a source that has to be free of errors as the next unit.  The unit is
kept in any case. -/
def parseStrict (session : Session) (source : String) :
    Except (List ParseError) UnitId × Session :=
  let (unit, errors, parsed) := session.parse source
  (if errors.isEmpty then .ok unit else .error errors, parsed)

def unit? (session : Session) (unit : UnitId) : Option Tree :=
  session.units[unit.index]?

def unit (session : Session) (unit : UnitId) : Except TreeError Tree :=
  match session.unit? unit with
  | some tree => .ok tree
  | none => .error .notFound

def resolve? (session : Session) (reference : NodeRef) : Option Node :=
  session.unit? reference.unit >>= fun tree => tree.resolve? reference

/-- The node of the declaration that a template declaration owns. -/
def ownedDeclaration (session : Session) (reference : NodeRef) :
    Except TreeError (Option NodeRef) := do
  (← session.unit reference.unit).ownedDeclaration session.table reference.node

def walk {σ : Type} (session : Session) (unit : UnitId) (visitor : Visitor σ)
    (policy : FaultPolicy) (state : σ) : Except TreeError (Walk σ) := do
  return (← session.unit unit).walk visitor policy state

/-- The diagnostic of a factory with open frames. -/
def unbalancedDiagnostic (factory : FactoryId) (pending : Nat) : Diagnostic where
  severity := .error
  message := "template factory " ++ factory.text ++ " has " ++ toString pending ++
    " unclosed template frame(s)"

/-- Seal all template declarations and report factories with open frames. -/
def finish (session : Session) : List Diagnostic × Session :=
  (session.table.unbalanced.map fun (factory, pending) => unbalancedDiagnostic factory pending,
    { session with units := session.units.map Tree.finalizeTemplates })

end Session

end DeclTree
