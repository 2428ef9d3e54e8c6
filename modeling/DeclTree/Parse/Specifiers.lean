import DeclTree.Parse.Class

/-!
# Declaration specifiers

The words in front of a declarator: markers such as `static`, qualifiers, and
the type, which is a keyword, a name, or a class or enum specifier.  Their order
is free, but only one type that could be a name is taken.
-/

namespace DeclTree

def Keyword.specifier? : Keyword → Option Specifier
  | .staticKw => some .static
  | .externKw => some .external
  | .inlineKw => some .inlined
  | .virtualKw => some .virtual
  | .explicitKw => some .explicit
  | .constexprKw | .constevalKw | .constinitKw => some .constexpr
  | .mutableKw => some .mutable
  | .threadLocalKw => some .threadLocal
  | .registerKw => some .register
  | .friendKw => some .friend
  | _ => none

namespace ParseM

/-- A specifier, with the condition or language that may follow it. -/
def markedSpecifier (specs : DeclSpecs) (word : Keyword) (specifier : Specifier) :
    ParseM DeclSpecs := do
  skip 1
  if word = .explicitKw then skipGroupIf .leftParen
  if word = .externKw then
    let _ ← eat (.literal .string)
  return { specs with specifiers := specs.specifiers.insert specifier }

/-- A name that is the type of a declaration. -/
def namedType (specs : DeclSpecs) : ParseM DeclSpecs := do
  let path ← namePath
  return { specs with
    tokens := specs.tokens ++ path.tokens
    typeSymbol := ← resolve? path
    hasType := true }

/-- A type given by an expression. -/
def deducedType (specs : DeclSpecs) : ParseM DeclSpecs := do
  let mark ← mark
  skip 1
  skipGroupIf .leftParen
  return { specs with tokens := specs.tokens ++ (← since mark), hasType := true }

def typeWord (specs : DeclSpecs) (isType : Bool) : ParseM DeclSpecs := do
  let token ← advance
  return { specs with tokens := specs.tokens ++ [token], hasType := specs.hasType || isType }

def keywordSpecifier (rules : Rules) (mode : SpecifierMode) (specs : DeclSpecs)
    (word : Keyword) : ParseM (Step DeclSpecs DeclSpecs) := do
  match word.specifier? with
  | some specifier => return .again (← markedSpecifier specs word specifier)
  | none =>
      if word.isQualifier then
        return .again (← typeWord specs false)
      else if word.isBuiltinType then
        return .again (← typeWord specs true)
      else
        match word with
        | .typedefKw =>
            skip 1
            return .again { specs with isTypedef := true }
        | .typenameKw =>
            skip 1
            return .again (← namedType specs)
        | .decltypeKw => return .again (← deducedType specs)
        | .classKw | .structKw | .unionKw =>
            if specs.hasType then return .done specs
            else return .again (← classSpecifier rules specs (mode = .declaration))
        | .enumKw =>
            if specs.hasType then return .done specs
            else return .again (← enumSpecifier rules specs (mode = .declaration))
        | .alignasKw =>
            skipAttributes
            return .again specs
        | _ => return .done specs

/-- A name among the specifiers: the type, unless there is one already or the
name is that of a constructor. -/
def nameSpecifier (mode : SpecifierMode) (specs : DeclSpecs) :
    ParseM (Step DeclSpecs DeclSpecs) := do
  if specs.hasType then
    return .done specs
  else if mode = .declaration && Ahead.isConstructor (← className?) (← unread) then
    return .done specs
  else
    return .again (← namedType specs)

/-- One specifier, behind those read so far. -/
def nextSpecifier (rules : Rules) (mode : SpecifierMode) (specs : DeclSpecs) :
    ParseM (Step DeclSpecs DeclSpecs) := do
  let token ← peek
  match token.kind with
  | .keyword word => keywordSpecifier rules mode specs word
  | .punct .leftBracket =>
      if ← checkAhead 1 (.punct .leftBracket) then
        skipAttributes
        return .again specs
      else
        return .done specs
  | .identifier =>
      if Stretch.isVendorAttribute token then
        skipAttributes
        return .again specs
      else
        nameSpecifier mode specs
  | .punct .colonColon => nameSpecifier mode specs
  | _ => return .done specs

def specifiers (rules : Rules) (mode : SpecifierMode) : ParseM DeclSpecs :=
  iterate (nextSpecifier rules mode) {}

end ParseM

end DeclTree
