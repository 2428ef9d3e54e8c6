import DeclTree.Parse.Rules

/-!
# Classes and enums

A class or enum specifier either has a body, and then declares a scope with its
members, or only names a type.
-/

namespace DeclTree

namespace ParseM

def classKeyOf (kind : TokenKind) : ClassKey :=
  match kind with
  | .keyword .structKw => .structKey
  | .keyword .unionKw => .unionKey
  | _ => .classKey

/-- The name of a class or enum, if one is ahead. -/
def tagPath? : ParseM (Option NamePath) := do
  if (← check .identifier) || (← check (.punct .colonColon)) then
    return some (← namePath)
  else
    return none

/-- Words in front of a base class. -/
def isBaseWord : TokenKind → Bool
  | .keyword .virtualKw | .keyword .publicKw | .keyword .protectedKw
  | .keyword .privateKw => true
  | _ => false

def baseClass (bases : List TypeRef) : ParseM (Step (List TypeRef) (List TypeRef)) := do
  skipAttributes
  skip ((← unread).takeWhile fun token => isBaseWord token.kind).length
  let path ← namePath
  let bases := bases ++ [{ text := path.text, symbol := ← resolve? path }]
  let _ ← eat (.punct .ellipsis)
  if ← eat (.punct .comma) then return .again bases else return .done bases

def baseClause : ParseM (List TypeRef) := do
  if ← eat (.punct .colon) then iterate baseClass [] else return []

/-- A class or enum without a body, which has to have a name. -/
def forwardTag (specs : DeclSpecs) (path : Option NamePath) (kind : TagKind) :
    ParseM DeclSpecs := do
  match path with
  | none => refuseName
  | some path =>
      return { specs with
        typeSymbol := ← resolve? path
        forward := some ⟨path, kind⟩ }

/-- The scope, name and place under which a class or enum is declared. -/
def tagPlace (path : Option NamePath) (key : Token) :
    ParseM (Option SymbolId × String × Span) := do
  match path with
  | some path => return (← pathScope path, path.name, path.span)
  | none => return (none, "", key.span)

/-- The body of a class whose symbol and node are known. -/
def classBody (rules : Rules) (name : String) (symbol : SymbolId) (node : NodeId) :
    ParseM Unit := do
  match ← attempt (expect (.punct .leftBrace)) with
  | .error error =>
      finishNode node
      resume (.error error)
  | .ok _ =>
      pushScope ⟨node, symbol, .container, .classBody name⟩
      rules.declarations true
      popScope
      let _ ← eat (.punct .rightBrace)
      finishNode node

def classDefinition (rules : Rules) (specs : DeclSpecs) (key : Token)
    (path : Option NamePath) (isFinal : Bool) : ParseM DeclSpecs := do
  let bases ← baseClause
  checkNesting key.span
  let (scope, name, span) ← tagPlace path key
  let specialization := path.any NamePath.hasArguments
  let introducer := classKeyOf key.kind
  let symbol ← declare
    { name := name, kind := .classType introducer, specialization := specialization } scope span
  let node ← addNode
    (.classType ⟨name, introducer, bases, symbol, specialization, isFinal⟩) key.span
  classBody rules name symbol node
  return { specs with typeSymbol := some symbol }

def classSpecifier (rules : Rules) (specs : DeclSpecs) (allowBody : Bool) :
    ParseM DeclSpecs := do
  let key ← advance
  skipAttributes
  let path ← tagPath?
  let isFinal ← checkWord "final"
  if isFinal then skip 1
  let pathTokens := (path.map NamePath.tokens).getD []
  let specs := { specs with hasType := true, tokens := specs.tokens ++ key :: pathTokens }
  if allowBody && ((← check (.punct .leftBrace)) || (← check (.punct .colon))) then
    classDefinition rules specs key path isFinal
  else
    forwardTag specs path (.classTag (classKeyOf key.kind))

def enumerator (parent : NodeId) (scope : SymbolId) : ParseM Unit := do
  let name ← expectIdentifier
  skipAttributes
  let hasValue ← eat (.punct .equal)
  if hasValue then skipExpression [.punct .comma]
  let unit ← unit
  let symbol ← changeTable name.span fun table =>
    table.declare scope { name := name.lexeme, kind := .enumerator, unit := some unit }
  let node ← addNodeUnder parent (.enumerator ⟨name.lexeme, symbol, hasValue⟩) name.span
  finishNode node

/-- An enumerator and the comma behind it.  One that cannot be read is passed
over. -/
def enumeratorItem (parent : NodeId) (scope : SymbolId) (_ : Unit) :
    ParseM (Step Unit Unit) := do
  let kind := (← peek).kind
  if kind = .punct .rightBrace ∨ kind = .eof then
    return .done ()
  else
    match ← attempt (enumerator parent scope) with
    | .ok () => pure ()
    | .error error =>
        report error
        pass (Stretch.upTo [.punct .comma, .punct .rightBrace, .punct .semicolon, .eof]
          (← unread))
    if ← eat (.punct .comma) then return .again () else return .done ()

/-- The enumerators of an enum and its closing brace. -/
def enumerators (parent : NodeId) (scope : SymbolId) : ParseM Unit := do
  iterate (enumeratorItem parent scope) ()
  let _ ← expect (.punct .rightBrace)

def underlyingType (rules : Rules) (allowed : Bool) : ParseM (Option TypeRef) := do
  if allowed then
    if ← eat (.punct .colon) then
      let base ← rules.specifiers .typeOnly
      return some { text := spell base.tokens, symbol := base.typeSymbol }
    else
      return none
  else
    return none

/-- The body of an enum whose symbol and node are known. -/
def enumBody (symbol : SymbolId) (node : NodeId) : ParseM Unit := do
  match ← attempt (expect (.punct .leftBrace)) with
  | .error error =>
      finishNode node
      resume (.error error)
  | .ok _ =>
      let closed ← attempt (enumerators node symbol)
      finishNode node
      resume closed

def enumDefinition (specs : DeclSpecs) (key : Token) (path : Option NamePath)
    (isScoped : Bool) (underlying : Option TypeRef) : ParseM DeclSpecs := do
  checkNesting key.span
  let (scope, name, span) ← tagPlace path key
  let symbol ← declare { name := name, kind := .enumType isScoped } scope span
  let node ← addNode (.enumType ⟨name, isScoped, underlying, symbol⟩) key.span
  enumBody symbol node
  return { specs with typeSymbol := some symbol }

/-- The word that makes an enum scoped, if it is ahead. -/
def scopedWord : ParseM (List Token) := do
  if (← check (.keyword .classKw)) || (← check (.keyword .structKw)) then
    return [← advance]
  else
    return []

def enumSpecifier (rules : Rules) (specs : DeclSpecs) (allowBody : Bool) :
    ParseM DeclSpecs := do
  let key ← advance
  let scopedTokens ← scopedWord
  let isScoped := !scopedTokens.isEmpty
  skipAttributes
  let path ← tagPath?
  let pathTokens := (path.map NamePath.tokens).getD []
  let specs :=
    { specs with hasType := true, tokens := specs.tokens ++ key :: scopedTokens ++ pathTokens }
  let underlying ← underlyingType rules allowBody
  if allowBody && (← check (.punct .leftBrace)) then
    enumDefinition specs key path isScoped underlying
  else
    forwardTag specs path (.enumTag isScoped)

end ParseM

end DeclTree
