import DeclTree.Symbol.Declare

/-!
# Template symbols

A template prefix creates a symbol without a name and opens a frame for it in
the factory of the scope.  When the declaration behind the prefixes is
recognised it closes all frames of that factory: every template takes its name
and wraps the one inside it, the innermost wraps the declaration itself, and
the outermost becomes a member of the scope the declaration belongs to.
-/

namespace DeclTree

namespace SymbolTable

/-- The factory of a scope in which a template was seen. -/
def factoryOf (table : SymbolTable) (container : SymbolId) : Option FactoryId :=
  table.get? container >>= Symbol.factory

/-- The factory of a scope, created on first use. -/
def factoryFor (table : SymbolTable) (container : SymbolId) :
    Except SymbolError (FactoryId × SymbolTable) := do
  table.checkContainer container
  match table.factoryOf container with
  | some existing => return (existing, table)
  | none =>
      let id : FactoryId := ⟨table.factories.size⟩
      let extended : SymbolTable :=
        { table with factories := table.factories.push { container := container } }
      return (id, extended.update container fun symbol => { symbol with factory := some id })

/-- Create a template symbol and open a frame for it.  It belongs to the
innermost open template of the factory, or to the factory's scope. -/
def openTemplate (table : SymbolTable) (factory : FactoryId) (unit : Option UnitId) :
    Except SymbolError (SymbolId × SymbolTable) :=
  match table.factory? factory with
  | none => .error (.notFound factory.text)
  | some frames =>
      let parent := frames.current?.getD frames.container
      let (template, extended) :=
        table.attach parent { name := "", kind := .template {}, unit := unit }
      .ok (template, extended.updateFactory factory (TemplateFactory.push · template))

def isTemplate (table : SymbolTable) (id : SymbolId) : Bool :=
  (table.get? id).any Symbol.isTemplate

def addParameter (table : SymbolTable) (template : SymbolId) (request : SymbolRequest) :
    Except SymbolError (SymbolId × SymbolTable) := do
  if !table.isTemplate template then
    throw (.notAContainer (table.qualifiedName template))
  let (parameter, extended) ← table.declare template request
  return (parameter, extended.update template fun symbol =>
    { symbol with
      kind := symbol.kind.mapTemplate fun info =>
        { info with parameters := info.parameters ++ [parameter] } })

def templateParameters (table : SymbolTable) (template : SymbolId) : List SymbolId :=
  ((table.get? template >>= fun symbol => symbol.kind.templateInfo?).map
    TemplateInfo.parameters).getD []

def templated? (table : SymbolTable) (template : SymbolId) : Option SymbolId :=
  table.get? template >>= fun symbol =>
    symbol.kind.templateInfo? >>= TemplateInfo.templated

/-- Make a symbol a member of a scope under a name: entered if it is owned by
the scope already, and moved there otherwise. -/
def adopt (table : SymbolTable) (name : String) (id scope : SymbolId) :
    Except SymbolError SymbolTable :=
  if table.owner id = some scope then
    .ok (table.updateMembers scope (Members.register · name id))
  else
    table.move id scope

/-- Give a template the name and flags of its declaration, and what it
wraps. -/
def bindTemplate (table : SymbolTable) (request : SymbolRequest) (template inner : SymbolId) :
    SymbolTable :=
  table.update template fun symbol =>
    { symbol with
      name := request.name
      defined := request.defined
      specialization := request.specialization
      kind := symbol.kind.mapTemplate fun info => { info with templated := some inner } }

/-- Close the frames of a factory, innermost first, and make the outermost
template a member of the target.  A frame that cannot adopt what it wraps stops
the work there, and the table stays as it is then. -/
def closeFrames (factory : FactoryId) (target : SymbolId) (request : SymbolRequest) :
    SymbolTable → SymbolId → List SymbolId → Except SymbolError Unit × SymbolTable
  | table, outermost, [] =>
      match table.adopt request.name outermost target with
      | .error error => (.error error, table)
      | .ok adopted => (.ok (), adopted)
  | table, inner, template :: outer =>
      let bound :=
        (table.updateFactory factory TemplateFactory.popped).bindTemplate request template inner
      match bound.adopt request.name inner template with
      | .error error => (.error error, bound)
      | .ok adopted => closeFrames factory target request adopted template outer

/-- What is checked before a declaration may close the frames of a factory: it
yields the open templates, innermost first. -/
def openFrames (table : SymbolTable) (factory : FactoryId) (target : SymbolId)
    (request : SymbolRequest) : Except SymbolError (SymbolId × List SymbolId) := do
  match table.factory? factory with
  | none => throw (.notFound factory.text)
  | some frames =>
      match frames.stack with
      | [] => throw .emptyFactoryStack
      | innermost :: outer =>
          table.checkContainer target
          table.checkConflict target request.name (.ofRequest request true)
          return (innermost, innermost :: outer)

/-- Declare what the open templates of a factory introduce. -/
def declareTemplated (table : SymbolTable) (factory : FactoryId) (target : SymbolId)
    (request : SymbolRequest) : Except SymbolError SymbolId × SymbolTable :=
  match table.openFrames factory target request with
  | .error error => (.error error, table)
  | .ok (innermost, frames) =>
      let (declared, extended) := table.attach innermost request
      let (outcome, closed) := closeFrames factory target request extended declared frames
      (outcome.map fun _ => declared, closed)

/-- Give up a template and the frames opened after it. -/
def discardTemplate (table : SymbolTable) (factory : FactoryId) (template : SymbolId) :
    SymbolTable :=
  table.updateFactory factory (TemplateFactory.discard · template)

/-- Check that a factory has no open frame. -/
def releaseFactory (table : SymbolTable) (factory : FactoryId) : Except SymbolError Unit :=
  match table.factory? factory with
  | none => .error (.notFound factory.text)
  | some frames => frames.release

/-- The factories with open frames, and how many each has. -/
def unbalanced (table : SymbolTable) : List (FactoryId × Nat) :=
  table.factories.toList.zipIdx.filterMap fun (factory, index) =>
    if factory.depth = 0 then none else some (⟨index⟩, factory.depth)

end SymbolTable

end DeclTree
