import DeclTree.Parse.State
import DeclTree.Parse.Stretch

/-!
# Reading tokens

Looking at the tokens ahead, reading those that are expected, and passing over
stretches that are not understood.
-/

namespace DeclTree

namespace ParseM

def ahead (distance : Nat) : ParseM Token :=
  return (← get).cursor.ahead distance

def peek : ParseM Token :=
  return (← get).cursor.peek

def unread : ParseM (List Token) :=
  return (← get).cursor.unread

/-- Read a number of tokens.  A single one is not read at the end of the source; a
parse that would go further than that is stuck. -/
def skip (count : Nat) : ParseM Unit := do
  let state ← get
  if count ≤ state.cursor.unread.length ∨ count = 1 then
    set { state with cursor := state.cursor.skip count }
  else
    throw .stuck

/-- Read the next token.  The end of the source is never read. -/
def advance : ParseM Token := do
  let token ← peek
  skip 1
  return token

def check (kind : TokenKind) : ParseM Bool :=
  return (← peek).kind == kind

/-- Whether the token a number of places ahead has a kind. -/
def checkAhead (distance : Nat) (kind : TokenKind) : ParseM Bool :=
  return (← ahead distance).kind == kind

def eat (kind : TokenKind) : ParseM Bool := do
  if ← check kind then
    skip 1
    return true
  else
    return false

/-- Read a token of a kind, or stop. -/
def expect (kind : TokenKind) : ParseM Token := do
  let token ← peek
  if token.kind = kind then
    advance
  else if token.kind = .eof then
    refuse .endOfFile token.span
  else
    refuse (.expected kind token.kind) token.span

/-- Stop for want of a name at the next token. -/
def refuseName {α : Type} : ParseM α := do
  let token ← peek
  refuse (.expectedIdentifier token.kind) token.span

def expectIdentifier : ParseM Token := do
  if ← check .identifier then advance else refuseName

/-- Whether the next token is a name with a special meaning here. -/
def checkWord (word : String) : ParseM Bool := do
  let token ← peek
  return token.kind == .identifier && token.lexeme == word

def mark : ParseM Nat :=
  return (← get).cursor.mark

def since (mark : Nat) : ParseM (List Token) :=
  return (← get).cursor.since mark

def previousSpan : ParseM Span :=
  return (← get).cursor.previousSpan

/-! ## Passing over tokens -/

/-- Read a stretch of tokens; one with an open group ends the parse. -/
def pass (stretch : Stretch) : ParseM Unit := do
  skip stretch.length
  match stretch.unclosed with
  | some opener => refuse (.unclosed opener.kind) opener.span
  | none => return ()

def skipGroup : ParseM Unit := do
  pass (Stretch.group (← unread))

/-- Read the group that the next token opens, if it opens one of a kind. -/
def skipGroupIf (opener : Punct) : ParseM Unit := do
  if ← check (.punct opener) then skipGroup

/-- Read an expression up to one of some kinds of token. -/
def skipExpression (stops : List TokenKind) : ParseM Unit := do
  pass (Stretch.expression stops (← unread))

def skipAttributes : ParseM Unit := do
  pass (Stretch.attributes (← unread))

/-- Read the rest of a declaration that is given up. -/
def synchronize : ParseM Unit := do
  skip (Stretch.recovery (← unread))

/-- Split the token that closes two template argument lists.  Without one the parse
is stuck. -/
def splitShift : ParseM Unit := do
  let state ← get
  if state.cursor.peek.kind = .punct .greaterGreater then
    set { state with cursor := state.cursor.splitShift }
  else
    throw .stuck

/-- Read up to the end of a template argument list. -/
def passAngle (reach : Angle.Reach) (missing : ParseM Unit) : ParseM Unit := do
  skip reach.length
  match reach.ending with
  | .closed => return ()
  | .split =>
      splitShift
      skip 1
  | .missing => missing
  | .unclosedGroup opener => refuse (.unclosed opener.kind) opener.span

def skipTemplateArguments : ParseM Unit := do
  let opener ← expect (.punct .less)
  passAngle (Angle.arguments 1 (← unread)) (refuse .unclosedArguments opener.span)

/-- Read a template argument list if one is ahead and closed. -/
def skipClosedArguments : ParseM Bool := do
  if (Angle.close? (← unread)).isSome then
    skipTemplateArguments
    return true
  else
    return false

/-- Move behind a template argument list if one is ahead and closed. -/
def jumpClosedArguments : ParseM Unit := do
  skip ((Angle.close? (← unread)).getD 0)

def skipParameterDefault : ParseM Unit := do
  passAngle (Angle.parameterDefault 0 (← unread)) do
    refuse .unclosedParameters (← peek).span

/-- Read the token that closes a template parameter list, splitting one that
closes two. -/
def expectClosingAngle : ParseM Unit := do
  if ← check (.punct .greaterGreater) then splitShift
  let _ ← expect (.punct .greater)

end ParseM

end DeclTree
