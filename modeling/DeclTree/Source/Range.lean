import DeclTree.Source.Span

/-!
# Source ranges

A syntactic element covers a range of its source: the bytes from `startOffset`
up to `endOffset`, and the lines these two offsets lie on.  The end never comes
before the start: an end set before the start moves up to it, and a start set
behind the end takes the end along.  A sealed range is final.
-/

namespace DeclTree

/-- The bytes and lines covered by a syntactic element. -/
structure SourceRange where
  startOffset : Nat := 0
  endOffset : Nat := 0
  startLine : Nat := 0
  endLine : Nat := 0
  sealed : Bool := false
  deriving DecidableEq

namespace SourceRange

def setStart (range : SourceRange) (offset line : Nat) : SourceRange :=
  { range with
    startOffset := offset
    startLine := line
    endOffset := max range.endOffset offset
    endLine := max range.endLine line }

def setEnd (range : SourceRange) (offset line : Nat) : SourceRange :=
  { range with
    endOffset := max offset range.startOffset
    endLine := max line range.startLine }

def finalize (range : SourceRange) : SourceRange :=
  { range with sealed := true }

def ofSpan (span : Span) : SourceRange :=
  (({} : SourceRange).setStart span.offset span.line).setEnd span.finish span.line

def length (range : SourceRange) : Nat :=
  range.endOffset - range.startOffset

def contains (range : SourceRange) (offset : Nat) : Bool :=
  range.startOffset ≤ offset && offset < range.endOffset

end SourceRange

end DeclTree
