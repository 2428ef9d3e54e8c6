import DeclTree.Proofs.ParseOutcome

/-!
# Reading tokens leaves less to read

Reading an expected token, a group or an argument list is an activity, and what
is read is gone: unless the text is at its end, less is left behind it.
-/

namespace DeclTree

namespace ParseM

open ParseState (Activity)

variable {state : ParseState}

/-! ## Single tokens -/

theorem completes_skip {count : Nat}
    (within : count ≤ state.cursor.unread.length ∨ count = 1) :
    Completes (skip count) state fun _ next => next.cursor = state.cursor.skip count := by
  unfold skip
  simp only [ends_get, if_pos within]
  exact ⟨.skip within, rfl⟩

theorem yields_skip {count : Nat} (within : count ≤ state.cursor.unread.length ∨ count = 1) :
    Yields (skip count) state fun _ next => next.cursor = state.cursor.skip count :=
  (completes_skip within).yields

/-- Passing over tokens that are there leaves less to read. -/
theorem completes_skip_lt {count : Nat} (positive : 0 < count)
    (within : count ≤ state.cursor.unread.length) :
    Completes (skip count) state fun _ next => next.cursor.weight < state.cursor.weight := by
  apply (completes_skip (.inl within)).imp
  rintro _ next ⟨activity, moved⟩
  refine ⟨activity, ?_⟩
  change next.cursor.weight < state.cursor.weight
  rw [moved]
  apply Cursor.weight_skip_lt _ positive
  intro empty
  rw [empty, List.length_nil] at within
  omega

theorem unread_ne_nil (sound : state.Sound) (more : state.cursor.peek.kind ≠ .eof) :
    state.cursor.unread ≠ [] :=
  fun empty => more (sound.cursor.peek_eof_iff.2 empty)

theorem completes_skip_one (sound : state.Sound) (more : state.cursor.peek.kind ≠ .eof) :
    Completes (skip 1) state fun _ next => next.cursor.weight < state.cursor.weight :=
  completes_skip_lt Nat.one_pos (List.length_pos_iff.2 (unread_ne_nil sound more))

theorem yields_skip_one (sound : state.Sound) (more : state.cursor.peek.kind ≠ .eof) :
    Yields (skip 1) state fun _ next => next.cursor.weight < state.cursor.weight :=
  (completes_skip_one sound more).yields

theorem yields_skip_two (sound : state.Sound)
    (more : (state.cursor.ahead 1).kind ≠ .eof) :
    Yields (skip 2) state fun _ next => next.cursor.weight < state.cursor.weight :=
  (completes_skip_lt Nat.two_pos (sound.cursor.lt_length_of_ahead more)).yields

theorem completes_advance (sound : state.Sound) (more : state.cursor.peek.kind ≠ .eof) :
    Completes advance state fun _ next => next.cursor.weight < state.cursor.weight := by
  unfold advance
  simp only [ends_peek]
  apply (completes_skip_one sound more).andThen sound
  intro _ next follows less
  exact ⟨follows.activity, less⟩

theorem yields_advance (sound : state.Sound) (more : state.cursor.peek.kind ≠ .eof) :
    Yields advance state fun _ next => next.cursor.weight < state.cursor.weight :=
  (completes_advance sound more).yields

/-- A token of a kind is read, or the state stays as it is. -/
theorem completes_eat (sound : state.Sound) {kind : TokenKind} (proper : kind ≠ .eof) :
    Completes (eat kind) state fun found next =>
      (found = true → next.cursor.weight < state.cursor.weight) ∧
        (found = false → next = state) := by
  unfold eat
  simp only [ends_check]
  split
  · rename_i here
    have more : state.cursor.peek.kind ≠ .eof := by
      rw [eq_of_beq here]
      exact proper
    apply (completes_skip_one sound more).andThen sound
    intro _ next follows less
    exact ⟨follows.activity, fun _ => less, by simp⟩
  · exact completes_pure ⟨by simp, fun _ => rfl⟩

theorem yields_eat (sound : state.Sound) {kind : TokenKind} (proper : kind ≠ .eof) :
    Yields (eat kind) state fun found next =>
      (found = true → next.cursor.weight < state.cursor.weight) ∧
        (found = false → next = state) :=
  (completes_eat sound proper).yields

theorem completes_expect (sound : state.Sound) {kind : TokenKind} (proper : kind ≠ .eof)
    (here : state.cursor.peek.kind = kind) :
    Completes (expect kind) state fun _ next => next.cursor.weight < state.cursor.weight := by
  unfold expect
  simp only [ends_peek, if_pos here]
  exact completes_advance sound (by rw [here]; exact proper)

/-- A token that is expected but not there is refused. -/
theorem yields_expect_of_ne {kind : TokenKind} (other : state.cursor.peek.kind ≠ kind)
    {result : Token → ParseState → Prop} : Yields (expect kind) state result := by
  unfold expect
  simp only [ends_peek, if_neg other]
  split
  · exact yields_refuse
  · exact yields_refuse

theorem yields_expect (sound : state.Sound) {kind : TokenKind} (proper : kind ≠ .eof) :
    Yields (expect kind) state fun _ next => next.cursor.weight < state.cursor.weight := by
  by_cases here : state.cursor.peek.kind = kind
  · exact (completes_expect sound proper here).yields
  · exact yields_expect_of_ne here

/-- A loop over items with separators between them goes on behind a separator. -/
theorem yields_separated {α β : Type} {before : ParseState} (sound : state.Sound)
    (less : state.cursor.weight ≤ before.cursor.weight) {separator : TokenKind}
    (proper : separator ≠ .eof) {value : α} {final : β} {keeps : α → ParseState → Prop}
    {result : β → ParseState → Prop} (kept : ∀ next, Follows state next → keeps value next)
    (done : result final state) :
    Yields (do if ← eat separator then return Step.again value else return Step.done final) state
      fun outcome next => outcome.Advances before keeps result next := by
  apply (yields_eat sound proper).bind sound
  intro found next follows ⟨read, same⟩
  cases found with
  | true =>
      have shorter := read rfl
      exact yields_pure ⟨by omega, kept next follows⟩
  | false =>
      obtain rfl := same rfl
      exact yields_pure done

theorem yields_refuseName {α : Type} {result : α → ParseState → Prop} :
    Yields refuseName state result := by
  unfold refuseName
  simp only [ends_peek]
  exact yields_refuse

theorem yields_expectIdentifier (sound : state.Sound) :
    Yields expectIdentifier state fun _ next =>
      next.cursor.weight < state.cursor.weight := by
  unfold expectIdentifier
  simp only [ends_check]
  split
  · rename_i here
    exact yields_advance sound (by rw [eq_of_beq here]; simp)
  · exact yields_refuseName

/-! ## Stretches -/

theorem yields_pass {stretch : Stretch} (sound : state.Sound)
    (within : stretch.length ≤ state.cursor.unread.length) :
    Yields (pass stretch) state fun _ next =>
      0 < stretch.length → next.cursor.weight < state.cursor.weight := by
  unfold pass
  apply (yields_skip (.inl within)).bind sound
  intro _ next _ moved
  split
  · exact yields_refuse
  · apply yields_pure
    intro positive
    rw [moved]
    apply Cursor.weight_skip_lt _ positive
    intro empty
    rw [empty, List.length_nil] at within
    omega

theorem yields_skipGroup (sound : state.Sound) :
    Yields skipGroup state fun _ next =>
      state.cursor.unread ≠ [] → next.cursor.weight < state.cursor.weight := by
  unfold skipGroup
  simp only [ends_unread]
  apply (yields_pass sound (Stretch.length_group_le _)).imp
  intro _ next _ less more
  exact less (Stretch.length_group_pos more)

theorem yields_skipGroupIf (sound : state.Sound) (opener : Punct) :
    Yields (skipGroupIf opener) state fun _ _ => True := by
  unfold skipGroupIf
  simp only [ends_check]
  split
  · exact (yields_skipGroup sound).ignore
  · exact yields_pure trivial

theorem yields_skipExpression (sound : state.Sound) (stops : List TokenKind) :
    Yields (skipExpression stops) state fun _ _ => True := by
  unfold skipExpression
  simp only [ends_unread]
  exact (yields_pass sound (Stretch.length_expression_le stops _)).ignore

/-- Where attributes start, less is left to read behind them. -/
theorem yields_skipAttributes (sound : state.Sound) :
    Yields skipAttributes state fun _ next =>
      0 < (Stretch.attributes state.cursor.unread).length →
        next.cursor.weight < state.cursor.weight := by
  unfold skipAttributes
  simp only [ends_unread]
  exact yields_pass sound (Stretch.length_attributes_le _)

theorem yields_skipAttributes_lt (sound : state.Sound)
    (starts : (state.cursor.peek.kind = .punct .leftBracket ∧
        (state.cursor.ahead 1).kind = .punct .leftBracket) ∨
      state.cursor.peek.kind = .keyword .alignasKw ∨
        Stretch.isVendorAttribute state.cursor.peek = true) :
    Yields skipAttributes state fun _ next =>
      next.cursor.weight < state.cursor.weight := by
  apply (yields_skipAttributes sound).imp
  intro _ next _ less
  apply less
  have more : state.cursor.unread ≠ [] := by
    apply unread_ne_nil sound
    intro final
    simp [final, Stretch.isVendorAttribute] at starts
  cases unread : state.cursor.unread with
  | nil => exact absurd unread more
  | cons token rest =>
      have first : state.cursor.peek = token := by simp [Cursor.peek, Cursor.ahead, unread]
      rw [first] at starts
      refine Stretch.length_attributes_pos (starts.imp_left ?_)
      rintro ⟨opens, again⟩
      refine ⟨opens, ?_⟩
      cases rest with
      | nil => simp [Cursor.ahead, unread, sound.cursor.final] at again
      | cons second _ => simpa [Stretch.startsWith, Cursor.ahead, unread] using again

/-- Giving up a declaration is never refused, and reads something unless the scope
ends here. -/
theorem completes_synchronize (sound : state.Sound) :
    Completes synchronize state fun _ next =>
      state.cursor.peek.kind ≠ .eof → state.cursor.peek.kind ≠ .punct .rightBrace →
        next.cursor.weight < state.cursor.weight := by
  unfold synchronize
  simp only [ends_unread]
  apply (completes_skip (.inl (Stretch.recovery_le _))).imp
  rintro _ next ⟨activity, moved⟩
  refine ⟨activity, ?_⟩
  intro proper inside
  rw [moved]
  have more := unread_ne_nil sound proper
  apply Cursor.weight_skip_lt _ _ more
  cases unread : state.cursor.unread with
  | nil => exact absurd unread more
  | cons token rest =>
      have first : state.cursor.peek = token := by simp [Cursor.peek, Cursor.ahead, unread]
      rw [first] at proper inside
      exact Stretch.recovery_pos proper inside

/-! ## Template argument lists -/

theorem yields_splitShift (closes : state.cursor.peek.kind = .punct .greaterGreater) :
    Yields splitShift state fun _ next => next.cursor = state.cursor.splitShift := by
  unfold splitShift
  simp only [ends_get, if_pos closes]
  exact ⟨.split closes, rfl⟩

theorem peek_kind_of_startsWith {cursor : Cursor} {kind : TokenKind}
    (starts : Stretch.startsWith kind cursor.unread = true) : cursor.peek.kind = kind := by
  cases unread : cursor.unread with
  | nil => simp [unread, Stretch.startsWith] at starts
  | cons token rest => simpa [unread, Stretch.startsWith, Cursor.peek, Cursor.ahead] using starts

theorem yields_passAngle {reach : Angle.Reach} {missing : ParseM Unit} (sound : state.Sound)
    (inside : reach.Inside state.cursor.unread)
    (otherwise : ∀ next, Follows state next → Yields missing next fun _ _ => True) :
    Yields (passAngle reach missing) state fun _ _ => True := by
  unfold passAngle
  apply (yields_skip (.inl inside.length_le)).bind sound
  intro _ next follows moved
  split
  · exact yields_pure trivial
  · rename_i split
    have closes : next.cursor.peek.kind = .punct .greaterGreater := by
      apply peek_kind_of_startsWith
      rw [moved]
      exact inside.closes split
    apply (yields_splitShift closes).bind follows.sound
    intro _ after _ _
    exact (yields_skip (.inr rfl)).ignore
  · exact otherwise next follows
  · exact yields_refuse

theorem yields_skipTemplateArguments (sound : state.Sound) :
    Yields skipTemplateArguments state fun _ next =>
      next.cursor.weight < state.cursor.weight := by
  unfold skipTemplateArguments
  apply (yields_expect sound (by simp)).bind sound
  intro opener next follows less
  simp only [ends_unread]
  refine (yields_passAngle follows.sound (Angle.inside_arguments 1 _) ?_).imp ?_
  · intro _ _
    exact yields_refuse
  · intro _ after activity _
    exact Nat.lt_of_le_of_lt activity.weight_le less

theorem yields_skipClosedArguments (sound : state.Sound) :
    Yields skipClosedArguments state fun _ _ => True := by
  unfold skipClosedArguments
  simp only [ends_unread]
  split
  · exact (yields_skipTemplateArguments sound).returns
  · exact yields_pure trivial

theorem yields_jumpClosedArguments :
    Yields jumpClosedArguments state fun _ _ => True := by
  unfold jumpClosedArguments
  simp only [ends_unread]
  refine (yields_skip (.inl ?_)).ignore
  cases closed : Angle.close? state.cursor.unread with
  | none => simp
  | some length => exact Angle.close?_le closed

theorem yields_skipParameterDefault (sound : state.Sound) :
    Yields skipParameterDefault state fun _ _ => True := by
  unfold skipParameterDefault
  simp only [ends_unread]
  apply yields_passAngle sound (Angle.inside_parameterDefault 0 _)
  intro _ _
  simp only [ends_peek]
  exact yields_refuse

theorem yields_expectClosingAngle (sound : state.Sound) :
    Yields expectClosingAngle state fun _ next =>
      next.cursor.weight < state.cursor.weight := by
  unfold expectClosingAngle
  simp only [ends_check]
  apply Yields.optionally sound
  · intro here
    exact (yields_splitShift (eq_of_beq here)).ignore
  · intro next follows
    apply (yields_expect follows.sound (by simp)).bind follows.sound
    intro _ after _ less
    exact yields_pure (Nat.lt_of_lt_of_le less follows.weight_le)

end ParseM

end DeclTree
