import DeclTree.Source.Counter

/-!
# Positions and spans

A position counts the bytes before it and names its line and column, both from
one; columns count bytes.  A span is the position where a piece of text starts
together with the length of the piece in bytes.  Here all of them count without
a bound; a counted position or span is what counters of 32 bits show of it.
-/

namespace DeclTree

/-- A place in a source text. -/
structure Position where
  offset : Nat := 0
  line : Nat := 1
  column : Nat := 1
  deriving DecidableEq

namespace Position

/-- The position behind one character.  A newline opens the next line. -/
def next (position : Position) (character : Char) : Position :=
  if character = '\n' then
    ⟨position.offset + character.utf8Size, position.line + 1, 1⟩
  else
    ⟨position.offset + character.utf8Size, position.line,
      position.column + character.utf8Size⟩

def after (position : Position) (text : List Char) : Position :=
  text.foldl next position

@[simp] theorem after_nil (position : Position) : position.after [] = position :=
  rfl

@[simp] theorem after_cons (position : Position) (character : Char)
    (text : List Char) :
    position.after (character :: text) = (position.next character).after text :=
  rfl

/-- A position as counters of 32 bits show it. -/
def counted (position : Position) : Position :=
  ⟨wrap position.offset, wrap position.line, wrap position.column⟩

theorem after_append (position : Position) (first second : List Char) :
    position.after (first ++ second) = (position.after first).after second := by
  simp [after, List.foldl_append]

end Position

/-- A piece of source text: where it starts and how many bytes it has. -/
structure Span where
  offset : Nat := 0
  line : Nat := 0
  column : Nat := 0
  length : Nat := 0
  deriving DecidableEq, Inhabited

namespace Span

def between (start finish : Position) : Span :=
  ⟨start.offset, start.line, start.column, finish.offset - start.offset⟩

/-- The span between two positions of one text, with what counters show of it. -/
def counted (start finish : Position) : Span :=
  ⟨wrap start.offset, wrap start.line, wrap start.column, wrap (finish.offset - start.offset)⟩

def point (position : Position) : Span :=
  ⟨position.offset, position.line, position.column, 0⟩

def stop (span : Span) : Nat :=
  span.offset + span.length

/-- The byte offset behind the last byte, as a counter shows it. -/
def finish (span : Span) : Nat :=
  wrap span.stop

def isEmpty (span : Span) : Bool :=
  span.length == 0

/-- The span covering two spans: it starts with the one that comes first and
ends with the one that ends last. -/
def merge (left right : Span) : Span :=
  let first := if left.offset ≤ right.offset then left else right
  { first with length := max left.stop right.stop - first.offset }

def text (span : Span) : String :=
  toString span.line ++ ":" ++ toString span.column

/-- Line, column and byte offset, as token traces show them. -/
def detailedText (span : Span) : String :=
  span.text ++ "@" ++ toString span.offset

end Span

end DeclTree
