import DeclTree.Proofs.BraceMatching

/-!
# Stretches go from brace to brace

What is passed over without being understood, be it a group, an expression, attributes or a list
of template arguments, never ends between a brace and the one that closes it, unless a group in it
is left open.  Only the bodies of groups hold the ends of declarations.
-/

namespace DeclTree

namespace Stretch

open Braces (Matching)

variable {many : Bool} {token : Token} {tokens rest : List Token}

theorem isPlain_of_not_opensGroup (closed : token.kind.opensGroup = false)
    (other : token.kind ≠ .punct .rightBrace) (inside : token.kind ≠ .punct .semicolon) :
    token.kind.isPlain many = true := by
  refine TokenKind.isPlain_iff.2 ⟨fun ends => absurd ends inside, ?_, other⟩
  intro opens
  simp [TokenKind.opensGroup, TokenKind.closer?, opens] at closed

theorem group_of_closer {closer : TokenKind} (opens : token.kind.closer? = some closer) :
    group (token :: rest) =
      { length := 1 + (groupTail token.kind closer 1 rest).1
        unclosed := if (groupTail token.kind closer 1 rest).2 then none else some token } := by
  simp only [group, opens]

/-- A group that is closed is a group by itself. -/
theorem group_take {closer : TokenKind} (opens : token.kind.closer? = some closer)
    (closed : (groupTail token.kind closer 1 rest).2) :
    group (token :: rest.take (groupTail token.kind closer 1 rest).1) =
      { length := 1 + (groupTail token.kind closer 1 rest).1 } := by
  rw [group_of_closer opens, Braces.groupTail_take closed]
  rfl

theorem length_groupTail_le_length (opener closer : TokenKind) (depth : Nat) :
    (rest.take (groupTail opener closer depth rest).1).length =
      (groupTail opener closer depth rest).1 :=
  List.length_take_of_le (length_groupTail_le opener closer depth rest)

/-- A group in parentheses or brackets is passed over. -/
theorem passage_group {closer : TokenKind} (closes : token.kind.closer? = some closer)
    (opens : token.kind = .punct .leftParen ∨ token.kind = .punct .leftBracket)
    (closed : (groupTail token.kind closer 1 rest).2) :
    Braces.Passage (token :: rest.take (groupTail token.kind closer 1 rest).1) := by
  have alone := group_take closes closed
  refine .group opens ?_ ?_
  · rw [alone]
  · rw [alone, List.length_cons, length_groupTail_le_length, Nat.add_comm]

/-- A group is read from brace to brace if it is closed. -/
theorem matching_opener (opens : token.kind.opensGroup)
    (whole : (group (token :: rest)).unclosed = none) :
    Matching many (token :: rest) ((token :: rest).drop (group (token :: rest)).length) := by
  obtain ⟨closer, closes⟩ := Option.isSome_iff_exists.1 opens
  have closed : (groupTail token.kind closer 1 rest).2 := by
    simpa [group_of_closer closes] using whole
  rw [group_of_closer closes, Nat.add_comm, List.drop_succ_cons]
  by_cases braced : token.kind = .punct .leftBrace
  · obtain rfl : closer = .punct .rightBrace := by
      simpa [braced, TokenKind.closer?, eq_comm] using closes
    rw [braced] at closed ⊢
    obtain ⟨last, next, ends, body, rfl⟩ := Braces.closes_groupTail closed
    exact .braces braced body ends (.done _)
  · have passed : token.kind = .punct .leftParen ∨ token.kind = .punct .leftBracket := by
      unfold TokenKind.closer? at closes
      split at closes <;> simp_all
    have alone := passage_group closes passed closed
    have read : Matching many _ (rest.drop (groupTail token.kind closer 1 rest).1) :=
      .passage alone (.done _)
    rwa [List.cons_append, List.take_append_drop] at read

/-- A group that the first of some tokens opens is read from brace to brace. -/
theorem matching_group {kind : TokenKind} (starts : startsWith kind tokens)
    (opens : kind.opensGroup) (whole : (group tokens).unclosed = none) :
    Matching many tokens (tokens.drop (group tokens).length) := by
  cases tokens with
  | nil => cases starts
  | cons token rest =>
      obtain rfl : token.kind = kind := by simpa [startsWith] using starts
      exact matching_opener opens whole

/-- The first of some tokens is read by itself if tokens of its kind are. -/
theorem isPlain_of_startsWith {kind : TokenKind} (starts : startsWith kind tokens)
    (plain : kind.isPlain many = true) (member : token ∈ tokens.take 1) :
    token.kind.isPlain many = true := by
  cases tokens with
  | nil => cases starts
  | cons first rest =>
      obtain rfl : token = first := by simpa using member
      obtain rfl : token.kind = kind := by simpa [startsWith] using starts
      exact plain

theorem matching_shift {stretch : Stretch} {count : Nat}
    (before : Matching many tokens (tokens.drop count))
    (behind : Matching many (tokens.drop count) ((tokens.drop count).drop stretch.length)) :
    Matching many tokens (tokens.drop (stretch.shift count).length) := by
  rw [List.drop_drop] at behind
  exact before.trans behind

theorem matching_andThen {stretch : Stretch} {continuation : Unit → Stretch}
    (whole : (stretch.andThen continuation).unclosed = none)
    (before : stretch.unclosed = none → Matching many tokens (tokens.drop stretch.length))
    (behind : (continuation ()).unclosed = none → Matching many (tokens.drop stretch.length)
      ((tokens.drop stretch.length).drop (continuation ()).length)) :
    Matching many tokens (tokens.drop (stretch.andThen continuation).length) := by
  unfold andThen at whole ⊢
  split at whole
  · rename_i leftOpen
    rw [leftOpen] at whole
    cases whole
  · rename_i closed
    exact matching_shift (before closed) (behind whole)

/-- A token that is read by itself is read in front of a stretch. -/
theorem matching_cons {stretch : Stretch} (plain : token.kind.isPlain many = true)
    (behind : Matching many rest (rest.drop stretch.length)) :
    Matching many (token :: rest) ((token :: rest).drop (stretch.shift 1).length) :=
  matching_shift (.plain plain (.done rest)) behind

end Stretch

namespace Angle

open Braces (Matching)

variable {many : Bool} {token : Token} {tokens rest : List Token}

/-- A list of template arguments that is found closed holds neither a brace nor the end of a
declaration. -/
theorem isPlain_closeTail {depth groups length : Nat}
    (closed : closeTail depth groups tokens = some length) :
    ∀ token ∈ tokens.take length, token.kind.isPlain many = true := by
  induction tokens generalizing depth groups length with
  | nil => simp
  | cons token rest ih =>
      have later {depth groups : Nat} (plain : token.kind.isPlain many = true)
          (found : (closeTail depth groups rest).map (1 + ·) = some length) :
          ∀ other ∈ (token :: rest).take length, other.kind.isPlain many = true := by
        obtain ⟨inner, tail, rfl⟩ := Option.map_eq_some_iff.1 found
        rw [Nat.add_comm, List.take_succ_cons]
        exact List.forall_mem_cons.2 ⟨plain, ih tail⟩
      have last (plain : token.kind.isPlain many = true) (found : some 1 = some length) :
          ∀ other ∈ (token :: rest).take length, other.kind.isPlain many = true := by
        obtain rfl := Option.some.inj found
        simpa using plain
      rw [closeTail.eq_def] at closed
      simp only at closed
      by_cases plain : token.kind.isPlain many = true
      · split at closed <;> (try split at closed) <;> (try split at closed) <;>
          first | exact later plain closed | exact last plain closed | cases closed
      · rw [TokenKind.isPlain_iff] at plain
        by_cases ends : token.kind = .punct .semicolon
        · simp [ends] at closed
        · simp only [ends, false_implies, true_and, Classical.not_and_iff_not_or_not,
            Classical.not_not] at plain
          rcases plain with brace | brace <;> simp [brace] at closed

theorem isPlain_close? {length : Nat} (closed : close? tokens = some length) :
    ∀ token ∈ tokens.take length, token.kind.isPlain many = true := by
  cases tokens with
  | nil => simp
  | cons token rest =>
      simp only [close?, Option.ite_none_right_eq_some, Option.map_eq_some_iff] at closed
      obtain ⟨opens, inner, tail, rfl⟩ := closed
      rw [Nat.add_comm, List.take_succ_cons]
      exact List.forall_mem_cons.2 ⟨by rw [opens]; rfl, isPlain_closeTail tail⟩

/-- Moving behind a closed list of template arguments passes no brace. -/
theorem matching_close? (tokens : List Token) :
    Matching many tokens (tokens.drop ((close? tokens).getD 0)) := by
  cases closed : close? tokens with
  | none => exact .done tokens
  | some length => exact Braces.matching_drop (isPlain_close? closed)

/-- Whether a list of template arguments ends without a group that is left open. -/
def Ending.isWhole : Ending → Bool
  | .unclosedGroup _ => false
  | _ => true

theorem matching_shift {reach : Reach} {count : Nat}
    (before : Matching many tokens (tokens.drop count))
    (behind : Matching many (tokens.drop count) ((tokens.drop count).drop reach.length)) :
    Matching many tokens (tokens.drop (reach.shift count).length) := by
  rw [List.drop_drop] at behind
  exact before.trans behind

theorem matching_cons {reach : Reach} (plain : token.kind.isPlain many = true)
    (behind : Matching many rest (rest.drop reach.length)) :
    Matching many (token :: rest) ((token :: rest).drop (reach.shift 1).length) :=
  matching_shift (.plain plain (.done rest)) behind

theorem matching_one (plain : token.kind.isPlain many = true) :
    Matching many (token :: rest) ((token :: rest).drop 1) :=
  .plain plain (.done rest)

theorem matching_arguments (depth : Nat) (tokens : List Token)
    (whole : (arguments depth tokens).ending.isWhole = true) :
    Matching many tokens (tokens.drop (arguments depth tokens).length) := by
  fun_induction arguments depth tokens with
  | case1 | case5 | case14 | case15 | case16 | case17 => exact .done _
  | case3 _ _ _ kind => exact matching_one (by rw [kind]; rfl)
  | case6 _ _ kind => exact matching_one (by rw [kind]; rfl)
  | case2 _ _ _ kind ih | case4 _ _ _ kind _ ih | case7 _ _ _ kind _ _ ih =>
      exact matching_cons (by rw [kind]; rfl) (ih whole)
  | case8 | case10 | case12 => cases whole
  | case9 _ _ _ kind _ closed ih | case11 _ _ _ kind _ closed ih | case13 _ _ _ kind _ closed ih =>
      exact matching_shift (Stretch.matching_opener (by rw [kind]; rfl) closed) (ih whole)
  | case18 _ _ _ _ _ _ _ _ opener semicolon _ closer _ ih =>
      exact matching_cons (TokenKind.isPlain_iff.2
        ⟨fun ends => absurd ends semicolon, opener, closer⟩)
        (ih whole)

theorem matching_parameterDefault (depth : Nat) (tokens : List Token)
    (whole : (parameterDefault depth tokens).ending.isWhole = true) :
    Matching many tokens (tokens.drop (parameterDefault depth tokens).length) := by
  fun_induction parameterDefault depth tokens with
  | case1 | case2 | case5 | case7 | case8 | case14 | case15 | case16 | case17 => exact .done _
  | case4 _ _ _ kind ih => exact matching_cons (by rw [kind]; rfl) (ih whole)
  | case3 _ _ _ kind _ ih | case6 _ _ _ kind _ ih =>
      exact matching_cons (by rw [kind]; rfl) (ih whole)
  | case9 _ _ _ kind _ _ ih => exact matching_cons (by rw [kind]; rfl) (ih whole)
  | case10 | case12 => cases whole
  | case11 _ _ _ kind _ closed ih | case13 _ _ _ kind _ closed ih =>
      exact matching_shift (Stretch.matching_opener (by rw [kind]; rfl) closed) (ih whole)
  | case18 _ _ _ _ _ _ _ _ _ semicolon opener closer _ ih =>
      exact matching_cons (TokenKind.isPlain_iff.2
        ⟨fun ends => absurd ends semicolon, opener, closer⟩)
        (ih whole)

end Angle

namespace Stretch

open Braces (Matching)

variable {many : Bool} {token : Token} {tokens rest : List Token}

theorem matching_expression (stops : List TokenKind) (tokens : List Token)
    (whole : (expression stops tokens).unclosed = none) :
    Matching many tokens (tokens.drop (expression stops tokens).length) := by
  fun_induction expression stops tokens with
  | case1 | case2 => exact .done _
  | case3 token rest _ opens inner ih => exact matching_andThen whole (matching_opener opens) ih
  | case4 token rest _ _ named arguments ih =>
      have plain : token.kind.isPlain many = true := by rw [named.1]; rfl
      have length : ((expression stops (rest.drop arguments)).shift (1 + arguments)).length =
          (((expression stops (rest.drop arguments)).shift arguments).shift 1).length :=
        Nat.add_assoc _ _ _
      rw [length]
      exact matching_cons plain (matching_shift (Angle.matching_close? rest) (ih whole))
  | case5 token rest ends closed _ ih =>
      have other {kind : TokenKind} (stop : endsExpression kind = true) : token.kind ≠ kind := by
        rintro rfl
        simp [stop] at ends
      exact matching_cons (isPlain_of_not_opensGroup (by simpa using closed) (other rfl)
        (other rfl))
        (ih whole)

theorem matching_suffixes (tokens : List Token) (whole : (suffixes tokens).unclosed = none) :
    Matching many tokens (tokens.drop (suffixes tokens).length) := by
  fun_induction suffixes tokens with
  | case1 | case3 => exact .done _
  | case2 token rest opens inner ih =>
      refine matching_andThen whole (matching_opener ?_) ih
      rcases opens with opens | opens <;> simp [opens, TokenKind.opensGroup, TokenKind.closer?]

theorem matching_attributes (tokens : List Token) (whole : (attributes tokens).unclosed = none) :
    Matching many tokens (tokens.drop (attributes tokens).length) := by
  fun_induction attributes tokens with
  | case1 | case4 => exact .done _
  | case2 token rest opens inner ih =>
      refine matching_andThen whole (matching_opener ?_) ih
      simp [opens.1, TokenKind.opensGroup, TokenKind.closer?]
  | case3 token rest _ word inner ih =>
      have plain : token.kind.isPlain many = true := by
        rcases word with word | word
        · rw [word]
          rfl
        · simp only [isVendorAttribute, Bool.and_eq_true, beq_iff_eq] at word
          rw [word.1]
          rfl
      have group (closed : inner.unclosed = none) :
          Matching many rest (rest.drop inner.length) := by
        by_cases opens : startsWith (.punct .leftParen) rest
        · simp only [inner, opens, dif_pos] at closed ⊢
          exact matching_group opens rfl closed
        · simp only [inner, opens]
          exact .done _
      exact matching_cons plain (matching_andThen whole group ih)

/-- What is passed over up to a closing brace or the end of a declaration, or something else, is
read from brace to brace. -/
theorem matching_upTo {stops : List TokenKind} (closer : .punct .rightBrace ∈ stops)
    (semicolon : .punct .semicolon ∈ stops) (tokens : List Token)
    (whole : (upTo stops tokens).unclosed = none) :
    Matching many tokens (tokens.drop (upTo stops tokens).length) := by
  fun_induction upTo stops tokens with
  | case1 | case2 => exact .done _
  | case3 token rest inside inner ih =>
      have other {kind : TokenKind} (stop : kind ∈ stops) : token.kind ≠ kind := by
        rintro rfl
        exact inside (by simpa using stop)
      refine matching_andThen whole (fun closed => ?_) ih
      cases opens : token.kind.opensGroup with
      | true => exact matching_opener opens closed
      | false =>
          have alone : inner.length = 1 := by
            have none : token.kind.closer? = none := by simpa [TokenKind.opensGroup] using opens
            simp [inner, group, none]
          rw [alone]
          exact Angle.matching_one
            (isPlain_of_not_opensGroup opens (other closer) (other semicolon))

end Stretch

end DeclTree
