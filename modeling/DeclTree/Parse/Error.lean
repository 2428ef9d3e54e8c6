import DeclTree.Source.Lines
import DeclTree.Symbol.Error
import DeclTree.Token.LexError

/-!
# Parse errors

A parse error has a kind, a place and a message.  It is shown on one line, or
together with the source line it points at.
-/

namespace DeclTree

/-- The kinds of parse errors. -/
inductive ParseErrorKind
  | expectedToken
  | unexpectedToken
  | unexpectedEof
  | expectedType
  | expectedIdentifier
  | expectedDeclaration
  | expectedTemplateParameter
  | duplicateDeclaration
  | incompleteTemplate
  | unresolvedName
  | mismatchedDelimiter
  | nestingTooDeep
  | invalidToken
  | internalError
  deriving DecidableEq

def ParseErrorKind.text : ParseErrorKind → String
  | .expectedToken => "expected token"
  | .unexpectedToken => "unexpected token"
  | .unexpectedEof => "unexpected end of file"
  | .expectedType => "expected type"
  | .expectedIdentifier => "expected identifier"
  | .expectedDeclaration => "expected declaration"
  | .expectedTemplateParameter => "expected template parameter"
  | .duplicateDeclaration => "duplicate declaration"
  | .incompleteTemplate => "incomplete template declaration"
  | .unresolvedName => "unresolved name"
  | .mismatchedDelimiter => "mismatched delimiter"
  | .nestingTooDeep => "nesting too deep"
  | .invalidToken => "invalid token"
  | .internalError => "internal error"

/-- The kind under which a parser reports a refusal of the symbol table. -/
def SymbolError.parseKind : SymbolError → ParseErrorKind
  | .duplicateDeclaration .. => .duplicateDeclaration
  | .unbalancedFactory .. => .incompleteTemplate
  | .notFound .. | .ambiguous .. | .notAContainer .. => .unresolvedName
  | .emptyFactoryStack | .cyclicScope .. => .internalError

/-- A parse error. -/
structure ParseError where
  kind : ParseErrorKind
  span : Span
  message : String
  deriving DecidableEq

namespace ParseError

/-- One thing was expected and another found. -/
def expectedToken (span : Span) (expected found : String) : ParseError :=
  ⟨.expectedToken, span, "expected " ++ expected ++ ", found " ++ found⟩

/-- The text ends too early. -/
def unexpectedEof (span : Span) : ParseError :=
  ⟨.unexpectedEof, span, "unexpected end of file"⟩

/-- A name was expected. -/
def expectedIdentifier (span : Span) (found : String) : ParseError :=
  ⟨.expectedIdentifier, span, "expected identifier, found " ++ found⟩

/-- A refusal of the symbol table at a place of the source. -/
def ofSymbolError (span : Span) (error : SymbolError) : ParseError :=
  ⟨error.parseKind, span, error.message⟩

def ofLexError (error : LexError) : ParseError :=
  ⟨.invalidToken, error.span, error.message⟩

def text (error : ParseError) : String :=
  error.kind.text ++ " at " ++ error.span.text ++ ": " ++ error.message

def lineNumber (line : Nat) : String :=
  let digits := toString line
  String.ofList (List.replicate (3 - digits.length) ' ') ++ digits

/-- The mark under the text an error points at. -/
def pointer (span : Span) : String :=
  String.ofList (List.replicate (span.column - 1) ' ' ++ '^' ::
    List.replicate (span.length - 1) '~')

/-- The error, the source line it points at and a mark below that line. -/
def withSource (error : ParseError) (source : String) : String :=
  let heading := "Error at " ++ error.span.text ++ ": " ++ error.kind.text ++ "\n"
  let detail := if error.message.isEmpty then "" else "  " ++ error.message ++ "\n"
  let excerpt :=
    match lineAt source.toList (error.span.line - 1) with
    | none => ""
    | some line =>
        "  |\n" ++ lineNumber error.span.line ++ " | " ++ String.ofList line ++ "\n" ++
          "  | " ++ pointer error.span ++ "\n"
  heading ++ detail ++ excerpt

def hasKind (kind : ParseErrorKind) (errors : List ParseError) : Bool :=
  errors.any fun error => error.kind == kind

def listText (errors : List ParseError) : String :=
  "\n".intercalate (errors.map text)

end ParseError

end DeclTree
