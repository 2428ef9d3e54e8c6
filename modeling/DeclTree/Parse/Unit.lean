import DeclTree.Parse.Declaration
import DeclTree.Token.Lexer

/-!
# Parsing a unit

The tokens of a source are read as a sequence of declarations.  Lexical errors
come first in the list of errors, and invalid tokens are left out.  Nesting is
bounded by the number of tokens, as every nested rule reads one first.
-/

namespace DeclTree

/-- How a source is parsed: its dialect, and how many scopes may be open at a
time. -/
structure ParseOptions where
  dialect : Dialect := .cpp
  maxNestingDepth : Nat := 256
  deriving DecidableEq

/-- A parsed unit: its tree, the errors met, and the symbol table with what the
unit declares. -/
structure ParsedUnit where
  tree : Tree
  errors : List ParseError
  table : SymbolTable

namespace ParseState

def startScopes : ScopeStack where
  inner := ⟨Tree.root, SymbolTable.root, .container, .translationUnit⟩

/-- The cursor in front of the tokens of a source. -/
def startCursor (stream : TokenStream) : Cursor :=
  let valid := stream.tokens.filter fun token => token.kind != .invalid
  .ofTokens (valid.filter fun token => token.kind != .eof)
    (valid.getLastD ⟨.eof, "", {}⟩)

/-- The state in front of the tokens of a source. -/
def ofStream (options : ParseOptions) (table : SymbolTable) (unit : UnitId)
    (stream : TokenStream) : ParseState where
  cursor := startCursor stream
  errors := (stream.errors.map ParseError.ofLexError).toArray
  tree := .empty unit
  table := table
  scopes := startScopes
  depthLimit := options.maxNestingDepth

def start (options : ParseOptions) (table : SymbolTable) (unit : UnitId) (source : String) :
    ParseState :=
  .ofStream options table unit (.ofSource options.dialect source)

end ParseState

def ParseM.translationUnit : ParseM Unit := do
  let state ← get
  (Rules.ofDepth (state.cursor.weight + 1)).declarations false

def ParseState.finish (state : ParseState) : ParseState :=
  match ParseM.translationUnit state with
  | .ok _ final => final
  | .error _ final => final

/-- What a parse leaves behind: the unit ends where its text does. -/
def ParseState.parsed (state : ParseState) : ParsedUnit :=
  let last := state.cursor.peek.span
  { tree := state.tree.finishRoot last.offset last.line
    errors := state.errors.toList
    table := state.table }

/-- Parse a source as a unit, going on behind errors. -/
def parseUnit (options : ParseOptions) (table : SymbolTable) (unit : UnitId)
    (source : String) : ParsedUnit :=
  (ParseState.start options table unit source).finish.parsed

/-- Parse a source that has to be free of errors.  The symbol table keeps what
was declared in any case. -/
def parseUnitStrict (options : ParseOptions) (table : SymbolTable) (unit : UnitId)
    (source : String) : Except (List ParseError) Tree × SymbolTable :=
  let parsed := parseUnit options table unit source
  (if parsed.errors.isEmpty then .ok parsed.tree else .error parsed.errors, parsed.table)

def parseSource (source : String) : ParsedUnit :=
  parseUnit {} .empty ⟨0⟩ source

end DeclTree
