import DeclTree.Parse.Group

/-!
# Template argument lists

Whether a `<` opens a template argument list can only be told by looking for
its end.  One function looks ahead without reading anything; two others measure
what is then read, an argument list or the default of a template parameter,
which may end inside a token that closes two lists at once.
-/

namespace DeclTree

namespace Angle

/-- The tokens from one that opens a template argument list through the one
that closes it, where `depth` lists and `groups` other groups are open.  A token
that closes two lists counts as closing the outermost one. -/
def closeTail : Nat → Nat → List Token → Option Nat
  | _, _, [] => none
  | depth, groups, token :: rest =>
      match token.kind with
      | .punct .less =>
          let depth := if groups = 0 then depth + 1 else depth
          (closeTail depth groups rest).map (1 + ·)
      | .punct .greater =>
          if groups = 0 then
            if depth ≤ 1 then some 1 else (closeTail (depth - 1) groups rest).map (1 + ·)
          else (closeTail depth groups rest).map (1 + ·)
      | .punct .greaterGreater =>
          if groups = 0 then
            if depth ≤ 2 then some 1 else (closeTail (depth - 2) groups rest).map (1 + ·)
          else (closeTail depth groups rest).map (1 + ·)
      | .punct .leftParen | .punct .leftBracket =>
          (closeTail depth (groups + 1) rest).map (1 + ·)
      | .punct .rightParen | .punct .rightBracket =>
          if groups = 0 then none else (closeTail depth (groups - 1) rest).map (1 + ·)
      | .punct .semicolon | .punct .leftBrace | .punct .rightBrace | .eof => none
      | _ => (closeTail depth groups rest).map (1 + ·)

/-- The number of tokens in the template argument list that the first token
opens, if there is one and it is closed. -/
def close? : List Token → Option Nat
  | [] => none
  | token :: rest =>
      if token.kind = .punct .less then (closeTail 1 0 rest).map (1 + ·) else none

/-- How a list of template arguments ends: with a token of its own, with the
first half of a token that closes two lists, not at all, or inside a group that
is not closed. -/
inductive Ending
  | closed
  | split
  | missing
  | unclosedGroup (opener : Token)

/-- The tokens read in full up to the end of a list, and how it ends. -/
structure Reach where
  length : Nat
  ending : Ending

/-- The same reach with more tokens in front. -/
def Reach.shift (count : Nat) (reach : Reach) : Reach :=
  { reach with length := count + reach.length }

/-- Template arguments with `depth` lists open, through the end of the outermost
one. -/
def arguments (depth : Nat) (tokens : List Token) : Reach :=
  match tokens with
  | [] => ⟨0, .missing⟩
  | token :: rest =>
      match token.kind with
      | .punct .less => (arguments (depth + 1) rest).shift 1
      | .punct .greater =>
          if depth ≤ 1 then ⟨1, .closed⟩ else (arguments (depth - 1) rest).shift 1
      | .punct .greaterGreater =>
          if depth ≤ 1 then ⟨0, .split⟩
          else if depth = 2 then ⟨1, .closed⟩
          else (arguments (depth - 2) rest).shift 1
      | .punct .leftParen | .punct .leftBracket | .punct .leftBrace =>
          let inner := Stretch.group (token :: rest)
          match inner.unclosed with
          | some opener => ⟨inner.length, .unclosedGroup opener⟩
          | none =>
              (arguments depth ((token :: rest).drop inner.length)).shift inner.length
      | .punct .semicolon | .punct .rightParen | .punct .rightBrace | .eof => ⟨0, .missing⟩
      | _ => (arguments depth rest).shift 1
termination_by tokens.length
decreasing_by
  all_goals
    have := Stretch.length_group_pos (List.cons_ne_nil token rest)
    simp +zetaDelta only [List.length_drop, List.length_cons]
    omega

/-- The default of a template parameter with `depth` lists open inside it, up to
the comma or closing token behind it. -/
def parameterDefault (depth : Nat) (tokens : List Token) : Reach :=
  match tokens with
  | [] => ⟨0, .missing⟩
  | token :: rest =>
      match token.kind with
      | .punct .comma =>
          if depth = 0 then ⟨0, .closed⟩ else (parameterDefault depth rest).shift 1
      | .punct .less => (parameterDefault (depth + 1) rest).shift 1
      | .punct .greater =>
          if depth = 0 then ⟨0, .closed⟩ else (parameterDefault (depth - 1) rest).shift 1
      | .punct .greaterGreater =>
          if depth = 0 then ⟨0, .closed⟩
          else if depth = 1 then ⟨0, .split⟩
          else (parameterDefault (depth - 2) rest).shift 1
      | .punct .leftParen | .punct .leftBracket =>
          let inner := Stretch.group (token :: rest)
          match inner.unclosed with
          | some opener => ⟨inner.length, .unclosedGroup opener⟩
          | none =>
              (parameterDefault depth ((token :: rest).drop inner.length)).shift inner.length
      | .punct .semicolon | .punct .leftBrace | .punct .rightBrace | .eof => ⟨0, .missing⟩
      | _ => (parameterDefault depth rest).shift 1
termination_by tokens.length
decreasing_by
  all_goals
    have := Stretch.length_group_pos (List.cons_ne_nil token rest)
    simp +zetaDelta only [List.length_drop, List.length_cons]
    omega

end Angle

end DeclTree
