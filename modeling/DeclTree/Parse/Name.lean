import DeclTree.Parse.Binding
import DeclTree.Parse.Spelling

/-!
# Names

Qualified names with template arguments, what they stand for, and the two
places where a name has to be read ahead to tell what it starts: a constructor
or a pointer to a member.
-/

namespace DeclTree

/-- A possibly qualified name: whether it starts at the global scope, its
segments, whether template arguments follow the last one, its tokens, and the
span of the last segment. -/
structure NamePath where
  isGlobal : Bool
  segments : List String
  hasArguments : Bool
  tokens : List Token
  span : Span

namespace NamePath

def name (path : NamePath) : String :=
  path.segments.getLastD ""

def qualifier (path : NamePath) : List String :=
  path.segments.dropLast

def text (path : NamePath) : String :=
  spell path.tokens

end NamePath

namespace Ahead

/-- The tokens behind a template argument list, or all of them where none
starts; nothing where one starts that is not closed. -/
def afterArguments? (tokens : List Token) : Option (List Token) :=
  if Stretch.startsWith (.punct .less) tokens then
    (Angle.close? tokens).map tokens.drop
  else some tokens

theorem length_afterArguments? {tokens rest : List Token}
    (found : afterArguments? tokens = some rest) : rest.length ≤ tokens.length := by
  unfold afterArguments? at found
  split at found
  · obtain ⟨count, _, rfl⟩ := Option.map_eq_some_iff.1 found
    simp
  · cases found
    exact Nat.le_refl _

/-- Whether the name ahead, of which `outer` is the segment read last, declares
a constructor or destructor: its last two segments agree, or a destructor mark
follows a segment, or it is one segment, the name of the class around it. -/
def isConstructorFrom (className : Option String) (outer : Option String)
    (tokens : List Token) : Bool :=
  match tokens with
  | [] => false
  | token :: rest =>
      if token.kind ≠ .identifier then false
      else
        match _behind : afterArguments? rest with
        | none => false
        | some [] => false
        | some (next :: following) =>
            match next.kind with
            | .punct .leftParen =>
                match outer with
                | some segment => segment == token.lexeme
                | none => className == some token.lexeme
            | .punct .colonColon =>
                if Stretch.startsWith (.punct .tilde) following then true
                else isConstructorFrom className (some token.lexeme) following
            | _ => false
termination_by tokens.length
decreasing_by
  have := length_afterArguments? _behind
  simp only [List.length_cons] at *
  omega

/-- The tokens behind a leading global scope mark. -/
def afterGlobal : List Token → List Token
  | [] => []
  | token :: rest => if token.kind = .punct .colonColon then rest else token :: rest

/-- Whether the name ahead declares a constructor or destructor rather than
naming a type. -/
def isConstructor (className : Option String) (tokens : List Token) : Bool :=
  isConstructorFrom className none (afterGlobal tokens)

/-- What follows the class name and star of a pointer to a member. -/
def afterMemberPointer? (tokens : List Token) : Option (List Token) :=
  match tokens with
  | [] => none
  | token :: rest =>
      if token.kind ≠ .identifier then none
      else
        match _behind : afterArguments? rest with
        | none => none
        | some [] => none
        | some (next :: following) =>
            if next.kind ≠ .punct .colonColon then none
            else if Stretch.startsWith (.punct .star) following then some (following.drop 1)
            else afterMemberPointer? following
termination_by tokens.length
decreasing_by
  have := length_afterArguments? _behind
  simp only [List.length_cons] at *
  omega

/-- The number of tokens in the pointer to a member that is ahead. -/
def memberPointer? (tokens : List Token) : Option Nat :=
  (afterMemberPointer? (afterGlobal tokens)).map fun rest => tokens.length - rest.length

end Ahead

namespace ParseM

def nameContinues : ParseM Bool := do
  if ← check (.punct .colonColon) then
    let next := (← ahead 1).kind
    return next == .identifier || next == .keyword .templateKw
  else
    return false

/-- One segment of a name, behind those read so far. -/
def nameSegment (mark : Nat) (isGlobal : Bool) (segments : List String) :
    ParseM (Step (List String) NamePath) := do
  let _ ← eat (.keyword .templateKw)
  let name ← expectIdentifier
  let segments := segments ++ [name.lexeme]
  let hasArguments ← skipClosedArguments
  if ← nameContinues then
    skip 1
    return .again segments
  else
    return .done ⟨isGlobal, segments, hasArguments, ← since mark, name.span⟩

def namePath : ParseM NamePath := do
  let mark ← mark
  let isGlobal ← eat (.punct .colonColon)
  iterate (nameSegment mark isGlobal) []

/-- What a name stands for, seen from the innermost scope. -/
def resolve? (path : NamePath) : ParseM (Option SymbolId) := do
  return ((← table).lookupQualified path.segments (← lookupScope) path.isGlobal).toOption

/-- The scope in which a name declares, where it is qualified. -/
def pathScope (path : NamePath) : ParseM (Option SymbolId) := do
  if 1 < path.segments.length then
    return some (← resolveScope path.qualifier path.isGlobal path.span)
  else if path.isGlobal then
    return some SymbolTable.root
  else
    return none

end ParseM

end DeclTree
