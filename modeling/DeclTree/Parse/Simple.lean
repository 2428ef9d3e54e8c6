import DeclTree.Parse.Function

/-!
# Simple declarations

Specifiers and a list of declarators with initialisers: functions, variables
and names for types.  Without a declarator, a class or enum that is named only
is declared without being defined.
-/

namespace DeclTree

namespace ParseM

/-- Declare a class or enum that is named without a body. -/
def declareForward (forward : ForwardTag) : ParseM Unit := do
  let path := forward.path
  let scope ← pathScope path
  let _ ← declare
    { name := path.name
      kind := forward.kind.symbolKind
      defined := false
      specialization := path.hasArguments } scope path.span

def typedefDeclarator (specs : DeclSpecs) (declarator : Declarator) (id : DeclaratorId)
    (start : Span) : ParseM InitDeclarator := do
  let symbol ← declare { name := id.name, kind := .typedef } none id.span
  let node ← addNode (.typedef ⟨id.name, specs.typeRef declarator, symbol⟩) start
  return ⟨some node, false⟩

def initializer (declarator : Declarator) : ParseM Bool := do
  if declarator.isDirectInit then
    return true
  else if ← eat (.punct .equal) then
    skipExpression [.punct .comma]
    return true
  else if ← check (.punct .leftBrace) then
    skipGroup
    return true
  else
    return false

/-- Whether a variable without an initialiser is declared only: an external one,
or a static one in a class body. -/
def isDeclarationOnly (specs : DeclSpecs) (id : DeclaratorId) (hasInitializer : Bool) :
    ParseM Bool := do
  let inClass := (← className?).isSome
  return !hasInitializer &&
    (specs.specifiers.contains .external ||
      (inClass && specs.specifiers.contains .static && id.qualifier.isNone))

def variableDeclarator (specs : DeclSpecs) (declarator : Declarator) (id : DeclaratorId)
    (start : Span) : ParseM InitDeclarator := do
  if ← eat (.punct .colon) then
    skipExpression [.punct .comma, .punct .equal, .punct .leftBrace]
  let hasInitializer ← initializer declarator
  let scope ← qualifierScope id
  let declarationOnly ← isDeclarationOnly specs id hasInitializer
  let symbol ← declare
    { name := id.name
      kind := .var
      defined := !declarationOnly
      specialization := id.hasArguments } scope id.span
  let node ← addNode
    (.var ⟨id.name, id.qualifier.map Qualifier.text, specs.typeRef declarator, specs.specifiers,
      symbol, hasInitializer⟩) start
  return ⟨some node, false⟩

/-- A declarator without parameters, or one that names a type. -/
def dataDeclarator (specs : DeclSpecs) (declarator : Declarator) (id : DeclaratorId)
    (start : Span) : ParseM InitDeclarator := do
  if !specs.hasType then
    refuse (.missingType id.name) id.span
  else if specs.isTypedef then
    typedefDeclarator specs declarator id start
  else
    variableDeclarator specs declarator id start

/-- A declarator and what follows it. -/
def initDeclarator (rules : Rules) (specs : DeclSpecs) (start : Span) :
    ParseM InitDeclarator := do
  let declarator ← declarator rules .named
  match declarator.id with
  | none => refuseName
  | some id =>
      match declarator.parameters with
      | some parameters =>
          if specs.isTypedef then dataDeclarator specs declarator id start
          else functionRest rules specs declarator id parameters start
      | none => dataDeclarator specs declarator id start

/-- Finish the node of a declarator that waits for it. -/
def finishDeclarator (declared : InitDeclarator) : ParseM Unit := do
  match declared.node with
  | some node => finishNode node
  | none => return ()

/-- One declarator of a declaration, which starts at its specifiers or at
itself. -/
def declaratorItem (rules : Rules) (specs : DeclSpecs) (start : Span) :
    ParseM (Step Span Unit) := do
  let declared ← initDeclarator rules specs start
  if declared.hasBody then
    return .done ()
  else if ← check (.punct .comma) then
    finishDeclarator declared
    skip 1
    return .again (← peek).span
  else
    let terminated ← attempt (expect (.punct .semicolon))
    finishDeclarator declared
    let _ ← resume terminated
    return .done ()

def simpleDeclaration (rules : Rules) (start : Span) : ParseM Unit := do
  let specs ← specifiers rules .declaration
  if specs.specifiers.contains .friend then
    synchronize
  else if ← eat (.punct .semicolon) then
    match specs.forward with
    | some forward => declareForward forward
    | none => return ()
  else
    iterate (declaratorItem rules specs) start

end ParseM

end DeclTree
