import DeclTree.Parse.Specifiers

/-!
# Declarators

A declarator names what is declared and adds to its type: pointers and
references in front of the name, array bounds and parameter lists behind it.
Behind a name an opening parenthesis may start a parameter list or an
initialiser; the first word inside tells which.
-/

namespace DeclTree

/-- Operators that may be overloaded under their own spelling. -/
def Punct.isOverloadable : Punct → Bool
  | .plus | .plusPlus | .plusEqual | .minus | .minusMinus | .minusEqual | .star | .starEqual
  | .slash | .slashEqual | .percent | .percentEqual | .caret | .caretEqual | .amp | .ampAmp
  | .ampEqual | .pipe | .pipePipe | .pipeEqual | .tilde | .bang | .equal | .equalEqual
  | .bangEqual | .less | .lessEqual | .lessLess | .lessLessEqual | .greater | .greaterEqual
  | .greaterGreater | .greaterGreaterEqual | .spaceship | .comma | .arrow | .arrowStar => true
  | _ => false

/-- Marks that make a pointer or reference. -/
def Punct.isPointer : Punct → Bool
  | .star | .amp | .ampAmp | .caret => true
  | _ => false

/-- Whether a symbol of this kind is a value, so that its name in parentheses
starts an initialiser and not a parameter list. -/
def SymbolKind.isValue : SymbolKind → Bool
  | .var | .function | .enumerator | .parameter | .templateParameter .nonType => true
  | _ => false

namespace ParseM

/-- A pointer to a member, if one is ahead. -/
def memberPointer (tokens : List Token) : ParseM (Step (List Token) (List Token)) := do
  match Ahead.memberPointer? (← unread) with
  | some length =>
      let start ← mark
      skip length
      return .again (tokens ++ (← since start))
  | none => return .done tokens

/-- A pointer, reference or qualifier in front of a declared name. -/
def pointerOperator (tokens : List Token) : ParseM (Step (List Token) (List Token)) := do
  let token ← peek
  match token.kind with
  | .punct mark =>
      if mark.isPointer then
        return .again (tokens ++ [← advance])
      else if mark = .leftBracket then
        if ← checkAhead 1 (.punct .leftBracket) then
          skipAttributes
          return .again tokens
        else
          return .done tokens
      else if mark = .colonColon then
        memberPointer tokens
      else
        return .done tokens
  | .keyword word =>
      if word.isQualifier then return .again (tokens ++ [← advance]) else return .done tokens
  | .identifier =>
      if token.lexeme = "__restrict" ∨ token.lexeme = "__restrict__" then
        skip 1
        return .again tokens
      else
        memberPointer tokens
  | _ => return .done tokens

/-- The pointers, references and qualifiers in front of a declared name. -/
def pointerOperators : ParseM (List Token) :=
  iterate pointerOperator []

/-- The type of a conversion function. -/
def skipConversion : ParseM Unit := do
  skip ((← unread).takeWhile fun token =>
    token.kind != .punct .leftParen && token.kind != .punct .semicolon &&
      token.kind != .punct .leftBrace && token.kind != .eof).length

def operatorName : ParseM String := do
  let start ← mark
  let word ← expect (.keyword .operatorKw)
  match (← peek).kind with
  | .punct .leftParen =>
      skip 1
      let _ ← expect (.punct .rightParen)
  | .punct .leftBracket =>
      skip 1
      let _ ← expect (.punct .rightBracket)
  | .keyword .newKw | .keyword .deleteKw =>
      skip 1
      if (← check (.punct .leftBracket)) && (← checkAhead 1 (.punct .rightBracket)) then
        skip 2
  | .literal .string =>
      skip 1
      let _ ← eat .identifier
  | .punct .semicolon | .punct .leftBrace | .eof => refuse .missingOperator word.span
  | .punct symbol => if symbol.isOverloadable then skip 1 else skipConversion
  | _ => skipConversion
  return spell (← since start)

/-- What is known of a declared name behind some of its qualifier: the segments
and how they are written. -/
structure QualifierSoFar where
  segments : List String := []
  text : String := ""

/-- The declared name behind a qualifier. -/
def declaredName (isGlobal : Bool) (qualifier : QualifierSoFar) (name : String) (span : Span)
    (hasArguments : Bool) : DeclaratorId where
  qualifier :=
    if isGlobal || !qualifier.segments.isEmpty then
      some ⟨isGlobal, qualifier.segments, qualifier.text⟩
    else none
  name := name
  span := span
  hasArguments := hasArguments

/-- Whether a segment behind which the cursor stands qualifies another one. -/
def segmentQualifies : ParseM Bool := do
  if ← check (.punct .colonColon) then
    let next := (← ahead 1).kind
    return next == .identifier || next == .punct .tilde || next == .keyword .operatorKw ||
      next == .keyword .templateKw
  else
    return false

/-- One segment of a declared name, behind those read so far. -/
def declaredSegment (start : Nat) (isGlobal : Bool) (qualifier : QualifierSoFar) :
    ParseM (Step QualifierSoFar DeclaratorId) := do
  let token ← peek
  match token.kind with
  | .punct .tilde =>
      skip 1
      let className ← expectIdentifier
      if ← check (.punct .less) then skipTemplateArguments
      return .done (declaredName isGlobal qualifier ("~" ++ className.lexeme)
        (token.span.merge className.span) false)
  | .keyword .operatorKw =>
      return .done (declaredName isGlobal qualifier (← operatorName) token.span false)
  | .identifier =>
      skip 1
      let hasArguments ← skipClosedArguments
      if ← segmentQualifies then
        let text := spell (← since start)
        skip 1
        let _ ← eat (.keyword .templateKw)
        return .again ⟨qualifier.segments ++ [token.lexeme], text⟩
      else
        return .done (declaredName isGlobal qualifier token.lexeme token.span hasArguments)
  | _ => refuseName

/-- A declared name, which may be qualified. -/
def declaratorId : ParseM DeclaratorId := do
  let start ← mark
  let isGlobal ← eat (.punct .colonColon)
  let lead := spell (← since start)
  iterate (declaredSegment start isGlobal) { text := lead }

/-- Whether the opening parenthesis ahead starts a parameter list. -/
def parametersAhead : ParseM Bool := do
  let token ← ahead 1
  match token.kind with
  | .punct .rightParen | .punct .ellipsis | .punct .colonColon => return true
  | .punct .leftBracket => checkAhead 2 (.punct .leftBracket)
  | .keyword word =>
      match word with
      | .classKw | .structKw | .unionKw | .enumKw | .typenameKw | .decltypeKw
      | .registerKw => return true
      | _ => return word.isBuiltinType || word.isQualifier
  | .identifier =>
      let table ← table
      match table.lookup token.lexeme (← lookupScope) with
      | .ok found =>
          match table.get? found with
          | some symbol => return !symbol.kind.isValue
          | none => throw .stuck
      | .error _ => return true
  | _ => return false

/-- The dots that end a parameter list. -/
def variadicParameter (span : Span) : ParsedParameter where
  name := none
  type := { text := "..." }
  hasDefault := false
  isVariadic := true
  start := span
  last := span

def typedParameter (rules : Rules) (start : Span) : ParseM ParsedParameter := do
  skipAttributes
  let specs ← specifiers rules .parameter
  if !specs.hasType then
    let found ← peek
    refuse (.missingParameterType found.kind) found.span
  let declarator ← rules.declarator .parameter
  let hasDefault ← eat (.punct .equal)
  if hasDefault then skipExpression [.punct .comma, .punct .rightParen]
  return {
    name := declarator.id.map DeclaratorId.name
    type := specs.typeRef declarator
    hasDefault := hasDefault
    isVariadic := declarator.isPack
    start := start
    last := ← previousSpan }

def nextParameter (rules : Rules) (parameters : List ParsedParameter) :
    ParseM (Step (List ParsedParameter) (List ParsedParameter)) := do
  let start := (← peek).span
  if ← eat (.punct .ellipsis) then
    return .done (parameters ++ [variadicParameter start])
  else
    let parameters := parameters ++ [← typedParameter rules start]
    if ← check (.punct .ellipsis) then
      let dots ← advance
      return .done (parameters ++ [variadicParameter dots.span])
    else if ← eat (.punct .comma) then
      return .again parameters
    else
      return .done parameters

def parameterList (rules : Rules) : ParseM (List ParsedParameter) := do
  let _ ← expect (.punct .leftParen)
  if (← check (.keyword .voidKw)) && (← checkAhead 1 (.punct .rightParen)) then skip 1
  if ← eat (.punct .rightParen) then
    return []
  else
    let parameters ← iterate (nextParameter rules) []
    let _ ← expect (.punct .rightParen)
    return parameters

/-- A group that is part of the type. -/
def typeGroup (declarator : Declarator) : ParseM Declarator := do
  let start ← mark
  skipGroup
  return { declarator with tokens := declarator.tokens ++ (← since start) }

/-- One array bound, parameter list or initialiser behind a declared name. -/
def declaratorSuffix (rules : Rules) (mode : DeclaratorMode) (declarator : Declarator) :
    ParseM (Step Declarator Declarator) := do
  match (← peek).kind with
  | .punct .leftParen =>
      if declarator.parameters.isSome then
        return .done declarator
      else if mode = .named then
        if ← parametersAhead then
          return .again { declarator with parameters := some (← parameterList rules) }
        else
          skipGroup
          return .done { declarator with isDirectInit := true }
      else
        return .again (← typeGroup declarator)
  | .punct .leftBracket =>
      if ← checkAhead 1 (.punct .leftBracket) then
        skipAttributes
        return .again declarator
      else if declarator.parameters.isSome then
        return .done declarator
      else
        return .again (← typeGroup declarator)
  | _ => return .done declarator

/-- Whether a declarator in parentheses is ahead. -/
def nestedAhead : ParseM Bool := do
  if ← check (.punct .leftParen) then
    match (← ahead 1).kind with
    | .punct mark => return mark.isPointer
    | _ => return false
  else
    return false

/-- A declarator in parentheses and the groups behind it, which belong to its
type. -/
def nestedDeclarator (rules : Rules) (mode : DeclaratorMode) (declarator : Declarator) :
    ParseM Declarator := do
  let opener ← advance
  let inner ← rules.declarator mode
  let closer ← expect (.punct .rightParen)
  let start ← mark
  pass (Stretch.suffixes (← unread))
  return { declarator with
    id := inner.id
    tokens := declarator.tokens ++ opener :: inner.tokens ++ closer :: (← since start)
    parameters := inner.parameters
    isPack := declarator.isPack || inner.isPack }

/-- The name of a declarator, where its mode asks for one. -/
def declaratorName (mode : DeclaratorMode) : ParseM (Option DeclaratorId) := do
  match mode with
  | .named => return some (← declaratorId)
  | .parameter =>
      match (← peek).kind with
      | .identifier | .keyword .operatorKw | .punct .colonColon =>
          return some (← declaratorId)
      | _ => return none
  | .abstract => return none

def declarator (rules : Rules) (mode : DeclaratorMode) : ParseM Declarator := do
  let tokens ← pointerOperators
  let isPack ← eat (.punct .ellipsis)
  let start : Declarator := { tokens := tokens, isPack := isPack }
  if ← nestedAhead then
    nestedDeclarator rules mode start
  else
    let id ← declaratorName mode
    skipAttributes
    iterate (declaratorSuffix rules mode) { start with id := id }

end ParseM

end DeclTree
