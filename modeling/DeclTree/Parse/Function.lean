import DeclTree.Parse.Declarator

/-!
# Functions

What follows the parameter list of a function: qualifiers, a return type, a
mark that it is pure, defaulted or deleted, and a body, which is passed over.
-/

namespace DeclTree

/-- The outcome of one declarator with its initialiser: the node that still
waits for the end of the declaration, and whether a function body has ended it
already. -/
structure InitDeclarator where
  node : Option NodeId
  hasBody : Bool

/-- What has been read behind a parameter list. -/
structure FunctionTail where
  specifiers : Specifiers
  trailingType : Option TypeRef := none

namespace ParseM

/-- The scope that the qualifier of a declared name names. -/
def qualifierScope (id : DeclaratorId) : ParseM (Option SymbolId) := do
  match id.qualifier with
  | none => return none
  | some qualifier =>
      if qualifier.segments.isEmpty then
        return some SymbolTable.root
      else
        return some (← resolveScope qualifier.segments qualifier.isGlobal id.span)

def trailingType (rules : Rules) : ParseM TypeRef := do
  skip 1
  let specs ← rules.specifiers .typeOnly
  let declarator ← rules.declarator .abstract
  return specs.typeRef declarator

/-- A name behind a parameter list that has a meaning there. -/
def functionWord (tail : FunctionTail) (token : Token) :
    ParseM (Step FunctionTail FunctionTail) := do
  if token.lexeme = "override" then
    skip 1
    return .again { tail with specifiers := tail.specifiers.insert .overriding }
  else if token.lexeme = "final" then
    skip 1
    return .again { tail with specifiers := tail.specifiers.insert .final }
  else if token.lexeme = "requires" then
    skip 1
    skipExpression [.punct .leftBrace, .punct .equal, .punct .comma]
    return .again tail
  else if Stretch.isVendorAttribute token then
    skipAttributes
    return .again tail
  else
    return .done tail

def functionItem (rules : Rules) (tail : FunctionTail) :
    ParseM (Step FunctionTail FunctionTail) := do
  let token ← peek
  match token.kind with
  | .punct .amp | .punct .ampAmp =>
      skip 1
      return .again tail
  | .keyword .noexceptKw | .keyword .throwKw =>
      skip 1
      skipGroupIf .leftParen
      return .again tail
  | .keyword word =>
      if word.isQualifier then
        skip 1
        return .again tail
      else
        return .done tail
  | .identifier => functionWord tail token
  | .punct .arrow => return .again { tail with trailingType := some (← trailingType rules) }
  | .punct .leftBracket =>
      if ← checkAhead 1 (.punct .leftBracket) then
        skipAttributes
        return .again tail
      else
        return .done tail
  | _ => return .done tail

/-- The mark that a function is pure, defaulted or deleted, and whether it
defines the function. -/
def functionMark : ParseM (Option (Specifier × Bool)) := do
  if ← check (.punct .equal) then
    let value ← ahead 1
    match value.kind with
    | .literal .integer =>
        if value.lexeme = "0" then
          skip 2
          return some (.pure, false)
        else
          refuse (.badFunctionValue value.kind) value.span
    | .keyword .defaultKw =>
        skip 2
        return some (.defaulted, true)
    | .keyword .deleteKw =>
        skip 2
        return some (.deleted, true)
    | _ => refuse (.badFunctionValue value.kind) value.span
  else
    return none

def bodyAhead : ParseM Bool := do
  match (← peek).kind with
  | .punct .leftBrace | .punct .colon | .keyword .tryKw => return true
  | _ => return false

def skipBraces : ParseM Unit := do
  if ← check (.punct .leftBrace) then
    skipGroup
  else
    let _ ← expect (.punct .leftBrace)

def initializerSegment (_ : Unit) : ParseM (Step Unit Unit) := do
  let _ ← expectIdentifier
  jumpClosedArguments
  if ← eat (.punct .colonColon) then return .again () else return .done ()

def constructorInitializer (_ : Unit) : ParseM (Step Unit Unit) := do
  let _ ← eat (.punct .colonColon)
  iterate initializerSegment ()
  if !((← check (.punct .leftParen)) || (← check (.punct .leftBrace))) then
    let _ ← expect (.punct .leftParen)
  skipGroup
  let _ ← eat (.punct .ellipsis)
  if ← eat (.punct .comma) then return .again () else return .done ()

def exceptionHandler (_ : Unit) : ParseM (Step Unit Unit) := do
  if ← eat (.keyword .catchKw) then
    skipGroupIf .leftParen
    skipBraces
    return .again ()
  else
    return .done ()

/-- A function body with constructor initialisers and exception handlers. -/
def skipBody : ParseM Unit := do
  let catches ← eat (.keyword .tryKw)
  if ← eat (.punct .colon) then iterate constructorInitializer ()
  skipBraces
  if catches then iterate exceptionHandler ()

/-- Declare a parameter in its function.  One that clashes is reported and has
a node without a symbol. -/
def parameterSymbol (function : SymbolId) (parameter : ParsedParameter) :
    ParseM (Option SymbolId) := do
  match parameter.name with
  | none => return none
  | some name =>
      let unit ← unit
      let declared ← attempt <| changeTable parameter.start fun table =>
        table.declare function { name := name, kind := .parameter, unit := some unit }
      match declared with
      | .ok symbol => return some symbol
      | .error error =>
          report error
          return none

def addParameter (functionNode : NodeId) (function : SymbolId) (parameter : ParsedParameter) :
    ParseM Unit := do
  let symbol ← parameterSymbol function parameter
  let node ← addNodeUnder functionNode
    (.parameter ⟨parameter.name, parameter.type, symbol, parameter.hasDefault,
      parameter.isVariadic⟩) parameter.start
  finishNodeAt node parameter.last

def addParameters (functionNode : NodeId) (function : SymbolId) :
    List ParsedParameter → ParseM Unit
  | [] => return ()
  | parameter :: rest => do
      addParameter functionNode function parameter
      addParameters functionNode function rest

/-- The body of a function whose node is known; it ends the node. -/
def functionBody (node : NodeId) : ParseM InitDeclarator := do
  let skipped ← attempt skipBody
  finishNode node
  resume skipped
  return ⟨none, true⟩

def functionRest (rules : Rules) (specs : DeclSpecs) (declarator : Declarator)
    (id : DeclaratorId) (parameters : List ParsedParameter) (start : Span) :
    ParseM InitDeclarator := do
  let tail ← iterate (functionItem rules) { specifiers := specs.specifiers }
  let given ← functionMark
  let specifiers := (given.map fun (mark, _) => tail.specifiers.insert mark).getD tail.specifiers
  let hasBody ← bodyAhead
  let isDefinition := hasBody || given.any (·.2)
  let returnType :=
    match tail.trailingType with
    | some type => some type
    | none => if specs.hasType then some (specs.typeRef declarator) else none
  let scope ← qualifierScope id
  let symbol ← declare
    { name := id.name
      kind := .function
      defined := isDefinition
      specialization := id.hasArguments } scope id.span
  let node ← addNode
    (.function ⟨id.name, id.qualifier.map Qualifier.text, returnType, specifiers, symbol,
      isDefinition⟩) start
  addParameters node symbol parameters
  if hasBody then functionBody node else return ⟨some node, false⟩

end ParseM

end DeclTree
