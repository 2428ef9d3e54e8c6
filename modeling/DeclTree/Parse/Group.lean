import DeclTree.Token.Basic

/-!
# Groups of tokens

Function bodies, initialisers, attributes and template arguments are passed
over without being understood.  A stretch says how many of the upcoming tokens
such a piece takes; measuring it only looks at the tokens and leaves the reading
to the caller.  The basic stretch is a group between matching delimiters.
-/

namespace DeclTree

namespace TokenKind

/-- The delimiter that closes the group a token opens. -/
def closer? : TokenKind → Option TokenKind
  | .punct .leftParen => some (.punct .rightParen)
  | .punct .leftBracket => some (.punct .rightBracket)
  | .punct .leftBrace => some (.punct .rightBrace)
  | _ => none

def opensGroup (kind : TokenKind) : Bool :=
  kind.closer?.isSome

end TokenKind

/-- The number of tokens passed over, and the opening delimiter without a
closing one, if there was such. -/
structure Stretch where
  length : Nat := 0
  unclosed : Option Token := none

namespace Stretch

/-- The same stretch with more tokens in front. -/
def shift (count : Nat) (stretch : Stretch) : Stretch :=
  { stretch with length := count + stretch.length }

/-- Behind a group opened `depth` times: the tokens through the delimiter that
closes it, and whether it is closed at all. -/
def groupTail (opener closer : TokenKind) : Nat → List Token → Nat × Bool
  | _, [] => (0, false)
  | depth, token :: rest =>
      if token.kind = opener then
        let (length, closed) := groupTail opener closer (depth + 1) rest
        (1 + length, closed)
      else if token.kind = closer then
        if depth ≤ 1 then (1, true)
        else
          let (length, closed) := groupTail opener closer (depth - 1) rest
          (1 + length, closed)
      else
        let (length, closed) := groupTail opener closer depth rest
        (1 + length, closed)

/-- The group that the first token opens; a token that opens none is passed
over alone. -/
def group : List Token → Stretch
  | [] => {}
  | token :: rest =>
      match token.kind.closer? with
      | none => { length := 1 }
      | some closer =>
          let (length, closed) := groupTail token.kind closer 1 rest
          { length := 1 + length, unclosed := if closed then none else some token }

theorem length_group_pos {tokens : List Token} (nonempty : tokens ≠ []) :
    0 < (group tokens).length := by
  cases tokens with
  | nil => contradiction
  | cons token rest =>
      simp only [group]
      split
      · exact Nat.one_pos
      · simp only
        omega

/-- Continue behind a group, if it is closed. -/
def andThen (stretch : Stretch) (continuation : Unit → Stretch) : Stretch :=
  match stretch.unclosed with
  | some _ => stretch
  | none => (continuation ()).shift stretch.length

def startsWith (kind : TokenKind) (tokens : List Token) : Bool :=
  tokens.head?.any fun token => token.kind == kind

end Stretch

end DeclTree
