import DeclTree.Parse.Angle

/-!
# Stretches of tokens

Expressions, attributes and the remains of a declaration that could not be
read, each measured in tokens.
-/

namespace DeclTree

namespace Stretch

/-- Whether an expression ends in front of a token whatever it is part of. -/
def endsExpression : TokenKind → Bool
  | .eof | .punct .semicolon | .punct .rightBrace | .punct .rightParen
  | .punct .rightBracket => true
  | _ => false

/-- An expression: up to one of the given kinds of token, or the end of what is
around it. -/
def expression (stops : List TokenKind) (tokens : List Token) : Stretch :=
  match tokens with
  | [] => {}
  | token :: rest =>
      if stops.contains token.kind || endsExpression token.kind then {}
      else if token.kind.opensGroup then
        let inner := group (token :: rest)
        inner.andThen fun _ => expression stops ((token :: rest).drop inner.length)
      else if token.kind = .identifier ∧ startsWith (.punct .less) rest then
        let arguments := (Angle.close? rest).getD 0
        (expression stops (rest.drop arguments)).shift (1 + arguments)
      else
        (expression stops rest).shift 1
termination_by tokens.length
decreasing_by
  · have := length_group_pos (List.cons_ne_nil token rest)
    simp +zetaDelta only [List.length_drop, List.length_cons]
    omega
  · simp only [List.length_drop, List.length_cons]
    omega
  · simp

/-- All tokens up to one of the given kinds, groups taken whole. -/
def upTo (stops : List TokenKind) (tokens : List Token) : Stretch :=
  match tokens with
  | [] => {}
  | token :: rest =>
      if stops.contains token.kind then {}
      else
        let inner := group (token :: rest)
        inner.andThen fun _ => upTo stops ((token :: rest).drop inner.length)
termination_by tokens.length
decreasing_by
  have := length_group_pos (List.cons_ne_nil token rest)
  simp +zetaDelta only [List.length_drop, List.length_cons]
  omega

/-- Groups in parentheses or brackets, one behind the other. -/
def suffixes (tokens : List Token) : Stretch :=
  match tokens with
  | [] => {}
  | token :: rest =>
      if token.kind = .punct .leftParen ∨ token.kind = .punct .leftBracket then
        let inner := group (token :: rest)
        inner.andThen fun _ => suffixes ((token :: rest).drop inner.length)
      else {}
termination_by tokens.length
decreasing_by
  have := length_group_pos (List.cons_ne_nil token rest)
  simp +zetaDelta only [List.length_drop, List.length_cons]
  omega

/-- Words of vendors that introduce an attribute. -/
def isVendorAttribute (token : Token) : Bool :=
  token.kind == .identifier &&
    (token.lexeme == "__attribute__" || token.lexeme == "__declspec")

/-- Attributes, one behind the other: doubled brackets, alignments, and words of
vendors with their arguments. -/
def attributes (tokens : List Token) : Stretch :=
  match tokens with
  | [] => {}
  | token :: rest =>
      if token.kind = .punct .leftBracket ∧ startsWith (.punct .leftBracket) rest then
        let inner := group (token :: rest)
        inner.andThen fun _ => attributes ((token :: rest).drop inner.length)
      else if token.kind = .keyword .alignasKw ∨ isVendorAttribute token then
        let inner : Stretch := if startsWith (.punct .leftParen) rest then group rest else {}
        (inner.andThen fun _ => attributes (rest.drop inner.length)).shift 1
      else {}
termination_by tokens.length
decreasing_by
  · have := length_group_pos (List.cons_ne_nil token rest)
    simp +zetaDelta only [List.length_drop, List.length_cons]
    omega
  · simp only [List.length_drop, List.length_cons]
    omega

/-- The rest of a declaration that could not be read: through the next
semicolon, or through a braced group and a semicolon right behind it, but never
past the brace that closes the scope around it. -/
def recovery (tokens : List Token) : Nat :=
  match tokens with
  | [] => 0
  | token :: rest =>
      match token.kind with
      | .eof | .punct .rightBrace => 0
      | .punct .semicolon => 1
      | .punct .leftBrace =>
          let inner := group (token :: rest)
          let following := (token :: rest).drop inner.length
          if inner.unclosed.isNone ∧ startsWith (.punct .semicolon) following then
            inner.length + 1
          else inner.length
      | .punct .leftParen | .punct .leftBracket =>
          let inner := group (token :: rest)
          if inner.unclosed.isNone then
            inner.length + recovery ((token :: rest).drop inner.length)
          else inner.length
      | _ => 1 + recovery rest
termination_by tokens.length
decreasing_by
  all_goals
    have := length_group_pos (List.cons_ne_nil token rest)
    simp +zetaDelta only [List.length_drop, List.length_cons]
    omega

end Stretch

end DeclTree
