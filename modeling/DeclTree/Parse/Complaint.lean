import DeclTree.Node.Error
import DeclTree.Parse.Error
import DeclTree.Token.Basic

/-!
# What a parser complains about

Every error that a parser reports, as a cause.  Kind and wording of the error
follow from the cause.
-/

namespace DeclTree

/-- Why a piece of source is not accepted. -/
inductive Complaint
  /-- One kind of token was needed and another found. -/
  | expected (wanted found : TokenKind)
  /-- The source ends where more was needed. -/
  | endOfFile
  /-- A name was needed. -/
  | expectedIdentifier (found : TokenKind)
  /-- A delimiter is never closed. -/
  | unclosed (opener : TokenKind)
  /-- A template argument list is never closed. -/
  | unclosedArguments
  /-- A template parameter list is never closed. -/
  | unclosedParameters
  /-- A scope is never closed. -/
  | unclosedScope
  /-- A brace closes nothing. -/
  | unmatchedBrace
  /-- Scopes are nested too deep. -/
  | tooDeep (limit : Nat)
  /-- A template prefix is followed by more than one declaration. -/
  | secondEntity
  /-- No operator follows the word that announces one. -/
  | missingOperator
  /-- Something else than a pure, defaulted or deleted mark follows a function. -/
  | badFunctionValue (found : TokenKind)
  /-- An alias has no type. -/
  | missingAliasType (found : TokenKind)
  /-- A parameter has no type. -/
  | missingParameterType (found : TokenKind)
  /-- A variable has no type. -/
  | missingType (name : String)
  /-- A template template parameter lacks its introducing word. -/
  | missingClassWord (found : TokenKind)
  /-- A template parameter was needed. -/
  | missingTemplateParameter (found : TokenKind)
  /-- A template prefix is followed by nothing that it could declare. -/
  | nothingDeclared
  /-- The symbol table refuses. -/
  | symbol (error : SymbolError)
  /-- The tree refuses. -/
  | tree (error : TreeError)

namespace Complaint

/-- The kind of error that a complaint is reported as. -/
def kind : Complaint → ParseErrorKind
  | .expected .. => .expectedToken
  | .endOfFile => .unexpectedEof
  | .expectedIdentifier _ => .expectedIdentifier
  | .unclosed _ | .unclosedArguments | .unclosedParameters | .unclosedScope
  | .unmatchedBrace => .mismatchedDelimiter
  | .tooDeep _ => .nestingTooDeep
  | .secondEntity | .missingOperator | .badFunctionValue _ => .unexpectedToken
  | .missingAliasType _ | .missingParameterType _ | .missingType _ => .expectedType
  | .missingClassWord _ | .missingTemplateParameter _ => .expectedTemplateParameter
  | .nothingDeclared => .incompleteTemplate
  | .symbol error => error.parseKind
  | .tree _ => .internalError

def message : Complaint → String
  | .expected wanted found => "expected " ++ wanted.quoted ++ ", found " ++ found.quoted
  | .endOfFile => "unexpected end of file"
  | .expectedIdentifier found => "expected identifier, found " ++ found.quoted
  | .unclosed opener => "unclosed " ++ opener.quoted
  | .unclosedArguments => "unclosed template argument list"
  | .unclosedParameters => "unterminated template parameter list"
  | .unclosedScope => "expected '\x7d' before end of file"
  | .unmatchedBrace => "unmatched '\x7d'"
  | .tooDeep limit => "scopes nested deeper than " ++ toString limit ++ " levels"
  | .secondEntity => "a template declaration declares exactly one entity"
  | .missingOperator => "expected an operator after 'operator'"
  | .badFunctionValue found =>
      "expected '0', 'default' or 'delete', found " ++ found.quoted
  | .missingAliasType found => "expected type after '=', found " ++ found.quoted
  | .missingParameterType found => "expected parameter type, found " ++ found.quoted
  | .missingType name => "'" ++ name ++ "' is declared without a type"
  | .missingClassWord found => "expected 'class' or 'typename', found " ++ found.quoted
  | .missingTemplateParameter found =>
      "expected template parameter, found " ++ found.quoted
  | .nothingDeclared => "template declaration does not declare anything"
  | .symbol error => error.message
  | .tree error => error.message

/-- A complaint at a place of the source. -/
def locate (complaint : Complaint) (span : Span) : ParseError :=
  ⟨complaint.kind, span, complaint.message⟩

end Complaint

end DeclTree
