import DeclTree.Parse.Simple
import DeclTree.Parse.Template

/-!
# Declarations

Namespaces, linkage blocks, using directives and aliases, and the choice
between all forms of declaration by their first words.
-/

namespace DeclTree

namespace ParseM

def openNamespace (start : Span) (name : String) (isInline : Bool) : ParseM NodeId := do
  checkNesting start
  let parent ← lookupScope
  let unit ← unit
  let symbol ← changeTable start fun table => table.openNamespace parent name (some unit)
  if isInline then setTable ((← table).addUsing parent symbol)
  let node ← addNode (.namespaceScope ⟨name, isInline, symbol⟩) start
  pushScope ⟨node, symbol, .container, .namespaceScope⟩
  return node

def closeNamespaces : List NodeId → ParseM Unit
  | [] => return ()
  | node :: outer => do
      popScope
      finishNode node
      closeNamespaces outer

/-- Enter namespaces one inside the other.  If one cannot be entered, those
entered before are left again.  The result lists them innermost first. -/
def openNamespaces (start : Span) (entered : List NodeId) :
    List (String × Bool) → ParseM (List NodeId)
  | [] => return entered
  | (name, isInline) :: rest => do
      match ← attempt (openNamespace start name isInline) with
      | .ok node => openNamespaces start (node :: entered) rest
      | .error error =>
          closeNamespaces entered
          resume (.error error)

def namespaceSegment (segments : List (String × Bool)) :
    ParseM (Step (List (String × Bool)) (List (String × Bool))) := do
  if ← eat (.punct .colonColon) then
    let isInline ← eat (.keyword .inlineKw)
    let name ← expectIdentifier
    return .again (segments ++ [(name.lexeme, isInline)])
  else
    return .done segments

/-- The names of the namespaces that a namespace declaration enters, each with
whether it is inline.  Without a name it enters the anonymous namespace. -/
def namespaceSegments (isInline : Bool) : ParseM (List (String × Bool)) := do
  let token ← peek
  if ← eat .identifier then
    iterate namespaceSegment [(token.lexeme, isInline)]
  else
    return [("", isInline)]

def namespaceBody (rules : Rules) (start : Span) (isInline : Bool) : ParseM Unit := do
  let segments ← namespaceSegments isInline
  skipAttributes
  if !(← check (.punct .leftBrace)) then
    let _ ← expect (.punct .leftBrace)
  let nodes ← openNamespaces start [] segments
  let _ ← expect (.punct .leftBrace)
  rules.declarations true
  let _ ← eat (.punct .rightBrace)
  closeNamespaces nodes

/-- A namespace declaration.  An alias is passed over. -/
def namespaceDeclaration (rules : Rules) (start : Span) (isInline : Bool) : ParseM Unit := do
  let _ ← expect (.keyword .namespaceKw)
  skipAttributes
  if (← check .identifier) && (← checkAhead 1 (.punct .equal)) then
    synchronize
  else
    namespaceBody rules start isInline

def trimQuotes (text : String) : String :=
  String.ofList
    (((text.toList.dropWhile (· == '"')).reverse.dropWhile (· == '"')).reverse)

/-- The content of a linkage block: braces with declarations, or one
declaration. -/
def linkageContent (rules : Rules) : ParseM Unit := do
  if ← eat (.punct .leftBrace) then
    rules.declarations true
    let _ ← eat (.punct .rightBrace)
  else
    rules.declaration

def linkageDeclaration (rules : Rules) (start : Span) : ParseM Unit := do
  let _ ← expect (.keyword .externKw)
  let literal ← expect (.literal .string)
  checkNesting start
  let symbol ← lookupScope
  let node ← addNode (.linkage (trimQuotes literal.lexeme)) start
  pushScope ⟨node, symbol, .container, .linkage⟩
  let result ← attempt (linkageContent rules)
  popScope
  finishNode node
  resume result

/-- The namespace that a name stands for, if it is one. -/
def resolveNamespace? (path : NamePath) : ParseM (Option SymbolId) := do
  match ← resolve? path with
  | none => return none
  | some target =>
      match (← table).get? target with
      | some symbol => return if symbol.kind = .namespaceScope then some target else none
      | none => throw .stuck

/-- A using directive from behind its words. -/
def usingDirective (start : Span) : ParseM Unit := do
  let path ← namePath
  let terminated ← attempt (expect (.punct .semicolon))
  let scope ← lookupScope
  let target ← resolveNamespace? path
  match target with
  | some namespaceSymbol => setTable ((← table).addUsing scope namespaceSymbol)
  | none => pure ()
  let node ← addNode (.usingDirective ⟨path.text, target⟩) start
  finishNode node
  let _ ← resume terminated

/-- A name for a type, given with an equals sign. -/
def aliasDeclaration (rules : Rules) (start : Span) : ParseM Unit := do
  let name ← expectIdentifier
  skipAttributes
  let _ ← expect (.punct .equal)
  let specs ← specifiers rules .typeOnly
  if !specs.hasType then
    let found ← peek
    refuse (.missingAliasType found.kind) found.span
  let declarator ← declarator rules .abstract
  let symbol ← declare { name := name.lexeme, kind := .typedef } none name.span
  let node ← addNode (.typedef ⟨name.lexeme, specs.typeRef declarator, symbol⟩) start
  let terminated ← attempt (expect (.punct .semicolon))
  finishNode node
  let _ ← resume terminated

/-- Whether a name for a type is ahead. -/
def aliasAhead : ParseM Bool := do
  let next := (← ahead 1).kind
  return (← check .identifier) && (next == .punct .equal || next == .punct .leftBracket)

/-- A declaration that starts with `using`.  One that only repeats a name is
passed over. -/
def usingDeclaration (rules : Rules) (start : Span) : ParseM Unit := do
  let _ ← expect (.keyword .usingKw)
  if ← eat (.keyword .namespaceKw) then
    usingDirective start
  else if ← aliasAhead then
    aliasDeclaration rules start
  else
    synchronize

/-- Exported declarations that are no template. -/
def exportedDeclarations (rules : Rules) : ParseM Unit := do
  skip 1
  if ← eat (.punct .leftBrace) then
    rules.declarations true
    let _ ← expect (.punct .rightBrace)
  else
    rules.declaration

/-- Whether a name starts a module declaration, given the kind of token behind
it. -/
def startsModule (word : String) (next : TokenKind) : Bool :=
  (word == "module" || word == "import") &&
    (next == .identifier || next == .punct .semicolon || next == .punct .less)

def keywordDeclaration (rules : Rules) (start : Span) (word : Keyword) (next : TokenKind) :
    ParseM Unit := do
  match word with
  | .namespaceKw => namespaceDeclaration rules start false
  | .inlineKw =>
      if next = .keyword .namespaceKw then
        skip 1
        namespaceDeclaration rules start true
      else
        simpleDeclaration rules start
  | .externKw =>
      if next = .literal .string then linkageDeclaration rules start
      else if next = .keyword .templateKw then synchronize
      else simpleDeclaration rules start
  | .exportKw =>
      if next = .keyword .templateKw then
        skip 1
        templateDeclaration rules start true
      else
        exportedDeclarations rules
  | .templateKw => templateDeclaration rules start false
  | .usingKw => usingDeclaration rules start
  | .staticAssertKw | .friendKw => synchronize
  | .publicKw | .protectedKw | .privateKw =>
      if next = .punct .colon then skip 2 else simpleDeclaration rules start
  | _ => simpleDeclaration rules start

def declaration (rules : Rules) : ParseM Unit := do
  skipAttributes
  let token ← peek
  let next := (← ahead 1).kind
  match token.kind with
  | .punct .semicolon => skip 1
  | .keyword word => keywordDeclaration rules token.span word next
  | .identifier =>
      if startsModule token.lexeme next then synchronize
      else simpleDeclaration rules token.span
  | _ => simpleDeclaration rules token.span

/-- One declaration of a scope, which may end with a closing brace.  A
declaration that cannot be read is reported and passed over. -/
def declarationItem (rules : Rules) (closing : Bool) (_ : Unit) : ParseM (Step Unit Unit) := do
  let token ← peek
  match token.kind with
  | .eof =>
      if closing then complain .unclosedScope token.span
      return .done ()
  | .punct .rightBrace =>
      if closing then
        return .done ()
      else
        skip 1
        complain .unmatchedBrace token.span
        return .again ()
  | _ =>
      match ← attempt (declaration rules) with
      | .ok () => return .again ()
      | .error error =>
          report error
          synchronize
          return .again ()

/-- The declarations of a scope, up to its closing brace or the end of the
source. -/
def declarations (rules : Rules) (closing : Bool) : ParseM Unit :=
  iterate (declarationItem rules closing) ()

end ParseM

namespace Rules

/-- Rules without any nesting. -/
def stuck : Rules where
  specifiers _ := throw .stuck
  declarator _ := throw .stuck
  declaration := throw .stuck
  templateDeclaration _ _ := throw .stuck
  declarations _ := throw .stuck

/-- Rules that use others for what is nested in them. -/
def nest (rules : Rules) : Rules where
  specifiers := ParseM.specifiers rules
  declarator := ParseM.declarator rules
  declaration := ParseM.declaration rules
  templateDeclaration := ParseM.templateDeclaration rules
  declarations := ParseM.declarations rules

/-- Rules for declarations nested less than a number of times. -/
def ofDepth : Nat → Rules
  | 0 => stuck
  | depth + 1 => (ofDepth depth).nest

end Rules

end DeclTree
