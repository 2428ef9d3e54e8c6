import DeclTree.Parse.Declarator

/-!
# Template declarations

A template prefix opens a frame in the factory of the scope around it and a
scope that leads the next declaration through that factory.  Prefixes one
behind the other share a factory, and the declaration behind them closes all
their frames.
-/

namespace DeclTree

namespace ParseM

/-- A pack mark and a name, either of which may be missing. -/
def parameterName : ParseM (Option String × Bool) := do
  let isVariadic ← eat (.punct .ellipsis)
  let token ← peek
  if ← eat .identifier then
    return (some token.lexeme, isVariadic)
  else
    return (none, isVariadic)

/-- What a template parameter is: its kind, name and type, and whether it is a
pack. -/
structure ParameterHead where
  kind : ParameterKind
  name : Option String
  type : Option TypeRef
  isVariadic : Bool

def typeParameter : ParseM ParameterHead := do
  skip 1
  let (name, isVariadic) ← parameterName
  return ⟨.type, name, none, isVariadic⟩

def templateTemplateParameter : ParseM ParameterHead := do
  skip 1
  skipTemplateArguments
  let found ← peek
  if found.kind = .keyword .classKw ∨ found.kind = .keyword .typenameKw then
    skip 1
    let (name, isVariadic) ← parameterName
    return ⟨.template, name, none, isVariadic⟩
  else
    refuse (.missingClassWord found.kind) found.span

def valueParameter (rules : Rules) (token : Token) : ParseM ParameterHead := do
  let specs ← specifiers rules .parameter
  if !specs.hasType then
    refuse (.missingTemplateParameter token.kind) token.span
  let declarator ← declarator rules .parameter
  return ⟨.nonType, declarator.id.map DeclaratorId.name, some (specs.typeRef declarator),
    declarator.isPack⟩

/-- Whether the word ahead introduces a type that depends on a parameter. -/
def dependentTypeAhead : ParseM Bool := do
  return (← checkAhead 1 .identifier) && (← checkAhead 2 (.punct .colonColon))

/-- The start of a template parameter. -/
def parameterHead (rules : Rules) : ParseM ParameterHead := do
  let token ← peek
  match token.kind with
  | .keyword .typenameKw | .keyword .classKw =>
      if ← dependentTypeAhead then valueParameter rules token else typeParameter
  | .keyword .templateKw => templateTemplateParameter
  | _ => valueParameter rules token

def templateParameter (rules : Rules) (node : NodeId) (template : SymbolId) :
    ParseM Unit := do
  let start := (← peek).span
  let head ← parameterHead rules
  let hasDefault ← eat (.punct .equal)
  if hasDefault then skipParameterDefault
  let unit ← unit
  let symbol ← changeTable start fun table =>
    table.addParameter template
      { name := head.name.getD "", kind := .templateParameter head.kind, unit := some unit }
  let parameter ← addNodeUnder node
    (.templateParameter ⟨head.name, head.kind, head.type, some symbol, hasDefault,
      head.isVariadic⟩) start
  finishNode parameter
  modify fun state =>
    { state with tree := state.tree.updateTemplate node (TemplateDecl.addParameter · parameter) }

def templateParameterItem (rules : Rules) (node : NodeId) (template : SymbolId) (_ : Unit) :
    ParseM (Step Unit Unit) := do
  templateParameter rules node template
  if ← eat (.punct .comma) then return .again () else return .done ()

/-- The parameter list of a template, which may be empty. -/
def templateParameters (rules : Rules) (node : NodeId) (template : SymbolId) :
    ParseM Unit := do
  let _ ← expect (.punct .less)
  if (← check (.punct .greater)) || (← check (.punct .greaterGreater)) then
    expectClosingAngle
  else
    iterate (templateParameterItem rules node template) ()
    expectClosingAngle

/-- One operand of a constraint and the operator behind it. -/
def constraintOperand (_ : Unit) : ParseM (Step Unit Unit) := do
  let token ← peek
  if token.kind = .punct .leftParen then
    skipGroup
  else if token.kind.isLiteral then
    skip 1
  else
    let _ ← namePath
  if ← eat (.punct .ampAmp) then
    return .again ()
  else if ← eat (.punct .pipePipe) then
    return .again ()
  else
    return .done ()

/-- A constraint in front of the declaration of a template. -/
def skipConstraint : ParseM Unit := do
  if ← checkWord "requires" then
    skip 1
    iterate constraintOperand ()

/-- What follows the parameters of a template, and whether it should have closed
the template's frame. -/
def templatedDeclaration (rules : Rules) : ParseM Bool := do
  skipConstraint
  let token ← peek
  if token.kind = .keyword .templateKw then
    rules.templateDeclaration token.span false
    return false
  else if token.kind = .keyword .friendKw ∨
      (token.kind = .identifier ∧ token.lexeme = "concept") then
    synchronize
    return false
  else
    rules.declaration
    return true

/-- The factory in which a template prefix opens a frame, and the scope that the
declaration belongs to.  A prefix behind another one shares its factory. -/
def prefixFactory (span : Span) : ParseM (FactoryId × SymbolId) := do
  let frame ← frame
  match frame.target with
  | .template factory container => return (factory, container)
  | _ =>
      let factory ← changeTable span fun table => table.factoryFor frame.symbol
      return (factory, frame.symbol)

/-- Give up a template whose frame is still open behind its declaration; it is
an error if the declaration was read. -/
def discardPending (factory : FactoryId) (template : SymbolId) (start : Span)
    (parsed : Except ParseError Bool) : ParseM Unit := do
  let table ← table
  if (table.factory? factory).any (TemplateFactory.isPending · template) then
    setTable (table.discardTemplate factory template)
    match parsed with
    | .ok true => complain .nothingDeclared start
    | _ => return ()

/-- The symbol of the last node in a template that is no parameter. -/
def ownedSymbol? (tree : Tree) (node : NodeId) : Option SymbolId :=
  let inside := (tree.children node).reverse.filterMap tree.get?
  match inside.find? fun child => !child.kind.isTemplateParameter with
  | some child => child.kind.symbol?
  | none => none

/-- Attach the declaration that a template owns. -/
def bindOwned (node : NodeId) : ParseM Unit := do
  let state ← get
  match ownedSymbol? state.tree node with
  | none => return ()
  | some owned =>
      match (state.tree.get? node).bind fun found => found.kind.templateDecl? with
      | none => return ()
      | some declaration =>
          match declaration.bind owned with
          | .ok bound => set { state with tree := state.tree.updateTemplate node fun _ => bound }
          | .error error => complain (.tree error) state.cursor.previousSpan

def templateContent (rules : Rules) (node : NodeId) (template : SymbolId) : ParseM Bool := do
  templateParameters rules node template
  templatedDeclaration rules

/-- A template from behind its introducing word. -/
def openedTemplate (rules : Rules) (start : Span) (exported : Bool) : ParseM Unit := do
  checkNesting start
  let (factory, container) ← prefixFactory start
  let unit ← unit
  let template ← changeTable start fun table => table.openTemplate factory (some unit)
  let scopeNode := (← frame).node
  let node ← addNode (.template (.start template scopeNode factory exported)) start
  pushScope ⟨node, template, .template factory container, .template⟩
  let parsed ← attempt (templateContent rules node template)
  popScope
  discardPending factory template start parsed
  bindOwned node
  finishNode node
  let _ ← resume parsed

/-- A template declaration.  Without a parameter list it is an explicit
instantiation, which is passed over. -/
def templateDeclaration (rules : Rules) (start : Span) (exported : Bool) : ParseM Unit := do
  let _ ← expect (.keyword .templateKw)
  if ← check (.punct .less) then openedTemplate rules start exported else synchronize

end ParseM

end DeclTree
