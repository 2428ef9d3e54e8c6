import DeclTree.Parse.Unit
import DeclTree.Token.Counted

/-!
# Parsing with counters of 32 bits

The program parses the tokens that its counters of 32 bits give it.  The end of
a token that it has read does not run over, so the only sum it takes behind the
reader that may is the column of the second half of a split token.  That column
is not kept in the tree; it is seen in errors only.
-/

namespace DeclTree

/-- A span behind the reader, whose column only may have run over. -/
def Span.shown (span : Span) : Span :=
  { span with column := wrap span.column }

/-- A unit with its errors where the program says that they are. -/
def ParsedUnit.shown (parsed : ParsedUnit) : ParsedUnit :=
  { parsed with errors := parsed.errors.map fun error =>
      { error with span := error.span.shown } }

/-- Parse a source as the program does; none where it stops. -/
def parseUnit? (options : ParseOptions) (table : SymbolTable) (unit : UnitId)
    (source : String) : Option ParsedUnit :=
  (TokenStream.ofSource? options.dialect source).map fun stream =>
    (ParseState.ofStream options table unit stream).finish.parsed.shown

end DeclTree
