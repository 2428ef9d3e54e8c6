import DeclTree.Parse.Name

/-!
# Stretches stay inside the text

Whatever is measured ahead of the cursor, be it a group, an expression, the rest
of a broken declaration or a template argument list, consists of tokens that are
there.  A token that closes two lists is split only where it stands.
-/

namespace DeclTree

namespace Stretch

theorem length_groupTail_le (opener closer : TokenKind) (depth : Nat) (tokens : List Token) :
    (groupTail opener closer depth tokens).1 ≤ tokens.length := by
  induction tokens generalizing depth with
  | nil => simp [groupTail]
  | cons token rest ih =>
      have deeper := ih (depth + 1)
      have outer := ih (depth - 1)
      have same := ih depth
      unfold groupTail
      simp only [List.length_cons]
      split
      · simp only
        omega
      · split
        · split
          · simp
          · simp only
            omega
        · simp only
          omega

theorem length_group_le (tokens : List Token) : (group tokens).length ≤ tokens.length := by
  cases tokens with
  | nil => simp [group]
  | cons token rest =>
      simp only [group, List.length_cons]
      cases token.kind.closer? with
      | none => simp
      | some closer =>
          have tail := length_groupTail_le token.kind closer 1 rest
          simp only
          omega

theorem length_andThen_le {stretch : Stretch} {continuation : Unit → Stretch} {bound : Nat}
    (first : stretch.length ≤ bound)
    (second : (continuation ()).length ≤ bound - stretch.length) :
    (stretch.andThen continuation).length ≤ bound := by
  unfold andThen
  split
  · exact first
  · simp only [shift]
    omega

/-- Going on behind a group keeps inside the tokens. -/
theorem length_group_andThen_le {tokens : List Token} {continuation : List Token → Stretch}
    (inside : (continuation (tokens.drop (group tokens).length)).length ≤
      (tokens.drop (group tokens).length).length) :
    ((group tokens).andThen fun _ =>
      continuation (tokens.drop (group tokens).length)).length ≤ tokens.length := by
  apply length_andThen_le (length_group_le tokens)
  rw [List.length_drop] at inside
  exact inside

end Stretch

namespace Angle

theorem closeTail_le {depth groups : Nat} {tokens : List Token} {length : Nat}
    (closed : closeTail depth groups tokens = some length) : length ≤ tokens.length := by
  induction tokens generalizing depth groups length with
  | nil => simp [closeTail] at closed
  | cons token rest ih =>
      have later {depth groups : Nat}
          (found : (closeTail depth groups rest).map (1 + ·) = some length) :
          length ≤ rest.length + 1 := by
        obtain ⟨inner, tail, rfl⟩ := Option.map_eq_some_iff.1 found
        have inside := ih tail
        omega
      unfold closeTail at closed
      rw [List.length_cons]
      split at closed
      · exact later closed
      · split at closed
        · split at closed
          · cases closed
            omega
          · exact later closed
        · exact later closed
      · split at closed
        · split at closed
          · cases closed
            omega
          · exact later closed
        · exact later closed
      · exact later closed
      · exact later closed
      · split at closed
        · cases closed
        · exact later closed
      · split at closed
        · cases closed
        · exact later closed
      all_goals first | exact later closed | cases closed

theorem close?_le {tokens : List Token} {length : Nat} (closed : close? tokens = some length) :
    length ≤ tokens.length := by
  cases tokens with
  | nil => simp [close?] at closed
  | cons token rest =>
      simp only [close?, Option.ite_none_right_eq_some, Option.map_eq_some_iff] at closed
      obtain ⟨_, inner, tail, rfl⟩ := closed
      have inside := closeTail_le tail
      simp only [List.length_cons]
      omega

end Angle

namespace Stretch

theorem length_expression_le (stops : List TokenKind) (tokens : List Token) :
    (expression stops tokens).length ≤ tokens.length := by
  fun_induction expression stops tokens with
  | case1 => simp
  | case2 => simp
  | case3 token rest _ _ inner ih => exact length_group_andThen_le ih
  | case4 token rest _ _ _ arguments ih =>
      have inside : arguments ≤ rest.length := by
        unfold arguments
        cases closed : Angle.close? rest with
        | none => simp
        | some length => exact Angle.close?_le closed
      simp only [List.length_drop] at ih
      simp only [shift, List.length_cons]
      omega
  | case5 token rest _ _ _ ih =>
      simp only [shift, List.length_cons]
      omega

theorem length_upTo_le (stops : List TokenKind) (tokens : List Token) :
    (upTo stops tokens).length ≤ tokens.length := by
  fun_induction upTo stops tokens with
  | case1 => simp
  | case2 => simp
  | case3 token rest _ inner ih => exact length_group_andThen_le ih

theorem length_suffixes_le (tokens : List Token) : (suffixes tokens).length ≤ tokens.length := by
  fun_induction suffixes tokens with
  | case1 => simp
  | case2 token rest _ inner ih => exact length_group_andThen_le ih
  | case3 => simp

theorem length_attributes_le (tokens : List Token) :
    (attributes tokens).length ≤ tokens.length := by
  fun_induction attributes tokens with
  | case1 => simp
  | case2 token rest _ inner ih => exact length_group_andThen_le ih
  | case3 token rest _ _ inner ih =>
      have first : inner.length ≤ rest.length := by
        unfold inner
        split
        · exact length_group_le rest
        · simp
      have both : (inner.andThen fun _ => attributes (rest.drop inner.length)).length ≤
          rest.length := length_andThen_le first (by simpa using ih)
      simp only [shift, List.length_cons]
      omega
  | case4 => simp

theorem length_andThen_ge (stretch : Stretch) (continuation : Unit → Stretch) :
    stretch.length ≤ (stretch.andThen continuation).length := by
  unfold andThen
  split
  · exact Nat.le_refl _
  · simp [shift]

/-- Where attributes start, there is something to pass over. -/
theorem length_attributes_pos {token : Token} {rest : List Token}
    (starts : (token.kind = .punct .leftBracket ∧ startsWith (.punct .leftBracket) rest) ∨
      token.kind = .keyword .alignasKw ∨ isVendorAttribute token) :
    0 < (attributes (token :: rest)).length := by
  unfold attributes
  split
  · have positive := length_group_pos (List.cons_ne_nil token rest)
    exact Nat.lt_of_lt_of_le positive (length_andThen_ge _ _)
  · rename_i other
    have vendor := starts.resolve_left other
    rw [if_pos vendor]
    simp only [shift]
    omega

theorem startsWith_ne_nil {kind : TokenKind} {tokens : List Token}
    (starts : startsWith kind tokens = true) : tokens ≠ [] := by
  rintro rfl
  simp [startsWith] at starts

theorem recovery_le (tokens : List Token) : recovery tokens ≤ tokens.length := by
  fun_induction recovery tokens with
  | case1 => simp
  | case2 => simp
  | case3 => simp
  | case4 => simp
  | case5 token rest _ inner following semicolon =>
      have more := List.length_pos_iff.2 (startsWith_ne_nil semicolon.2)
      unfold following at more
      rw [List.length_drop] at more
      omega
  | case7 token rest _ inner _ ih | case9 token rest _ inner _ ih =>
      have first := length_group_le (token :: rest)
      rw [List.length_drop] at ih
      unfold inner at ih ⊢
      omega
  | case6 token rest | case8 token rest | case10 token rest => exact length_group_le (token :: rest)
  | case11 token rest _ _ _ _ _ _ ih =>
      rw [List.length_cons]
      omega

/-- Unless the scope ends here, giving up a declaration passes over something. -/
theorem recovery_pos {token : Token} {rest : List Token} (more : token.kind ≠ .eof)
    (inside : token.kind ≠ .punct .rightBrace) : 0 < recovery (token :: rest) := by
  have positive := length_group_pos (List.cons_ne_nil token rest)
  unfold recovery
  split
  · exact absurd ‹_› more
  · exact absurd ‹_› inside
  · exact Nat.one_pos
  · simp only
    split <;> omega
  · simp only
    split <;> omega
  · simp only
    split <;> omega
  · omega

end Stretch

namespace Angle

/-- Whether a reach stays inside some tokens, and a token that is to be split
stands at its end. -/
structure Reach.Inside (tokens : List Token) (reach : Reach) : Prop where
  length_le : reach.length ≤ tokens.length
  closes : reach.ending = .split →
    Stretch.startsWith (.punct .greaterGreater) (tokens.drop reach.length) = true

theorem Reach.Inside.shift {tokens : List Token} {count : Nat} {reach : Reach}
    (inside : reach.Inside (tokens.drop count)) (within : count ≤ tokens.length) :
    (reach.shift count).Inside tokens := by
  have length := inside.length_le
  rw [List.length_drop] at length
  constructor
  · simp only [Reach.shift]
    omega
  · intro ending
    have closes := inside.closes ending
    rw [List.drop_drop] at closes
    exact closes

theorem inside_cons {token : Token} {rest : List Token} {reach : Reach}
    (inside : reach.Inside rest) : (reach.shift 1).Inside (token :: rest) :=
  Reach.Inside.shift inside (by simp)

theorem inside_zero {tokens : List Token} {ending : Ending} (other : ending ≠ .split) :
    (⟨0, ending⟩ : Reach).Inside tokens :=
  ⟨Nat.zero_le _, fun split => absurd split other⟩

theorem inside_one {token : Token} {rest : List Token} {ending : Ending}
    (other : ending ≠ .split) : (⟨1, ending⟩ : Reach).Inside (token :: rest) :=
  ⟨by simp, fun split => absurd split other⟩

theorem inside_split {token : Token} {rest : List Token}
    (closes : token.kind = .punct .greaterGreater) :
    (⟨0, .split⟩ : Reach).Inside (token :: rest) :=
  ⟨Nat.zero_le _, fun _ => by simp [Stretch.startsWith, closes]⟩

theorem inside_group {tokens : List Token} {ending : Ending} (other : ending ≠ .split) :
    (⟨(Stretch.group tokens).length, ending⟩ : Reach).Inside tokens :=
  ⟨Stretch.length_group_le tokens, fun split => absurd split other⟩

theorem inside_arguments (depth : Nat) (tokens : List Token) :
    (arguments depth tokens).Inside tokens := by
  fun_induction arguments depth tokens with
  | case1 | case14 | case15 | case16 | case17 => exact inside_zero (by simp)
  | case3 | case6 => exact inside_one (by simp)
  | case5 _ _ _ closes _ => exact inside_split closes
  | case8 | case10 | case12 => exact inside_group (by simp)
  | case2 _ _ _ _ ih => exact inside_cons ih
  | case4 _ _ _ _ _ ih => exact inside_cons ih
  | case7 _ _ _ _ _ _ ih => exact inside_cons ih
  | case9 _ _ _ _ _ _ ih | case11 _ _ _ _ _ _ ih | case13 _ _ _ _ _ _ ih =>
      exact Reach.Inside.shift ih (Stretch.length_group_le _)
  | case18 _ _ _ _ _ _ _ _ _ _ _ _ _ ih => exact inside_cons ih

theorem inside_parameterDefault (depth : Nat) (tokens : List Token) :
    (parameterDefault depth tokens).Inside tokens := by
  fun_induction parameterDefault depth tokens with
  | case1 | case2 | case5 | case7 | case14 | case15 | case16 | case17 =>
      exact inside_zero (by simp)
  | case8 _ _ closes _ => exact inside_split closes
  | case10 | case12 => exact inside_group (by simp)
  | case4 _ _ _ _ ih => exact inside_cons ih
  | case3 _ _ _ _ _ ih | case6 _ _ _ _ _ ih => exact inside_cons ih
  | case9 _ _ _ _ _ _ ih => exact inside_cons ih
  | case11 _ _ _ _ _ _ ih | case13 _ _ _ _ _ _ ih =>
      exact Reach.Inside.shift ih (Stretch.length_group_le _)
  | case18 _ _ _ _ _ _ _ _ _ _ _ _ _ ih => exact inside_cons ih

end Angle

namespace Ahead

theorem length_afterGlobal_le (tokens : List Token) :
    (afterGlobal tokens).length ≤ tokens.length := by
  cases tokens with
  | nil => simp [afterGlobal]
  | cons token rest =>
      simp only [afterGlobal]
      split <;> simp

/-- A pointer to a member has a name in front of its star. -/
theorem length_afterMemberPointer?_lt {tokens rest : List Token}
    (found : afterMemberPointer? tokens = some rest) : rest.length < tokens.length := by
  fun_induction afterMemberPointer? tokens with
  | case1 | case2 | case3 | case4 | case5 => simp at found
  | case6 token tail _ next following behind _ _ =>
      have shorter := length_afterArguments? behind
      obtain rfl := Option.some.inj found
      simp only [List.length_cons, List.length_drop] at shorter ⊢
      omega
  | case7 token tail _ next following behind _ _ ih =>
      have shorter := length_afterArguments? behind
      have inner := ih found
      simp only [List.length_cons] at shorter ⊢
      omega

theorem memberPointer?_bounds {tokens : List Token} {length : Nat}
    (found : memberPointer? tokens = some length) : 0 < length ∧ length ≤ tokens.length := by
  obtain ⟨rest, behind, rfl⟩ := Option.map_eq_some_iff.1 found
  have shorter := length_afterMemberPointer?_lt behind
  have inside := length_afterGlobal_le tokens
  omega

end Ahead

end DeclTree
