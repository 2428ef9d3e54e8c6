import DeclTree.Proofs.FoundSymbols
import DeclTree.Proofs.SpecifierOutcome

/-!
# Declarators

A declarator that has to have a name takes at least the tokens of that name.
The lists in it, of pointers, parameters and suffixes, leave less to read with
every item.
-/

namespace DeclTree

namespace ParseM

open ParseState (Activity)

variable {state : ParseState} {rules : Rules} {bound : Nat}

/-! ## Pointers -/

theorem yields_memberPointer (sound : state.Sound) (tokens : List Token) :
    Yields (memberPointer tokens) state fun outcome next =>
      outcome.Advances state (fun _ _ => True) (fun _ _ => True) next := by
  unfold memberPointer
  simp only [ends_unread]
  split
  · rename_i length found
    have bounds := Ahead.memberPointer?_bounds found
    simp only [ends_mark]
    apply (completes_skip_lt bounds.1 bounds.2).yields.bind sound
    intro _ next _ less
    simp only [ends_since]
    exact yields_pure ⟨less, trivial⟩
  · exact yields_pure trivial

theorem yields_pointerOperator (sound : state.Sound) (tokens : List Token) :
    Yields (pointerOperator tokens) state fun outcome next =>
      outcome.Advances state (fun _ _ => True) (fun _ _ => True) next := by
  unfold pointerOperator
  simp only [ends_peek]
  split
  · rename_i mark here
    have more : state.cursor.peek.kind ≠ .eof := by simp [here]
    split
    · exact (yields_advance sound more).again
    · split
      · rename_i opens
        simp only [ends_checkAhead]
        split
        · rename_i again
          exact (yields_skipAttributes_lt sound
            (.inl ⟨by rw [here, opens], eq_of_beq again⟩)).again
        · exact yields_pure trivial
      · split
        · exact yields_memberPointer sound tokens
        · exact yields_pure trivial
  · rename_i word here
    have more : state.cursor.peek.kind ≠ .eof := by simp [here]
    split
    · exact (yields_advance sound more).again
    · exact yields_pure trivial
  · rename_i here
    split
    · exact (yields_skip_one sound (by simp [here])).again
    · exact yields_memberPointer sound tokens
  · exact yields_pure trivial

theorem yields_pointerOperators (sound : state.Sound) :
    Yields pointerOperators state fun _ _ => True := by
  unfold pointerOperators
  apply yields_iterate sound (fun _ _ => True) trivial
  intro tokens next follows _
  exact yields_pointerOperator follows.sound tokens

/-! ## Declared names -/

theorem yields_skipConversion : Yields skipConversion state fun _ _ => True := by
  unfold skipConversion
  simp only [ends_unread]
  exact (yields_skip (.inl (List.takeWhile_sublist _).length_le)).ignore

theorem yields_operatorName (sound : state.Sound) :
    Yields operatorName state fun _ next => next.cursor.weight < state.cursor.weight := by
  unfold operatorName
  simp only [ends_mark]
  apply (yields_expect sound (by simp)).bind sound
  intro word first follows less
  suffices yields : Yields _ first fun _ _ => True from yields.below less
  have spelled (next : ParseState) : Yields (do return spell (← since state.cursor.mark)) next
      fun _ _ => True := by
    simp only [ends_since]
    exact yields_pure trivial
  have array : Yields (do
      skip 1
      if (← check (.punct .leftBracket)) && (← checkAhead 1 (.punct .rightBracket)) then skip 2
      return spell (← since state.cursor.mark)) first fun _ _ => True := by
    apply (yields_skip (.inr rfl)).bind follows.sound
    intro _ second followsWord _
    simp only [ends_check, ends_checkAhead]
    apply Yields.optionally followsWord.sound
    · intro both
      have closes : (second.cursor.ahead 1).kind = .punct .rightBracket :=
        eq_of_beq (Bool.and_eq_true_iff.1 both).2
      exact (yields_skip_two followsWord.sound (by simp [closes])).ignore
    · intro next _
      exact spelled next
  simp only [ends_peek]
  split
  · apply (yields_skip (.inr rfl)).bind follows.sound
    intro _ second followsOpener _
    apply (yields_expect followsOpener.sound (by simp)).bind followsOpener.sound
    intro _ next _ _
    exact spelled next
  · apply (yields_skip (.inr rfl)).bind follows.sound
    intro _ second followsOpener _
    apply (yields_expect followsOpener.sound (by simp)).bind followsOpener.sound
    intro _ next _ _
    exact spelled next
  · exact array
  · exact array
  · apply (yields_skip (.inr rfl)).bind follows.sound
    intro _ second followsLiteral _
    apply (yields_eat followsLiteral.sound (by simp)).bind followsLiteral.sound
    intro _ next _ _
    exact spelled next
  · exact yields_refuse_bind
  · exact yields_refuse_bind
  · exact yields_refuse_bind
  · split
    · apply (yields_skip (.inr rfl)).bind follows.sound
      intro _ next _ _
      exact spelled next
    · apply yields_skipConversion.bind follows.sound
      intro _ next _ _
      exact spelled next
  · apply yields_skipConversion.bind follows.sound
    intro _ next _ _
    exact spelled next

theorem yields_segmentQualifies :
    Yields segmentQualifies state fun _ next => next = state := by
  unfold segmentQualifies
  simp only [ends_check]
  split
  · exact yields_pure rfl
  · exact yields_pure rfl

theorem yields_declaredSegment (sound : state.Sound) (start : Nat) (isGlobal : Bool)
    (qualifier : QualifierSoFar) :
    Yields (declaredSegment start isGlobal qualifier) state fun outcome next =>
      outcome.Advances state (fun _ _ => True)
        (fun _ after => after.cursor.weight < state.cursor.weight) next := by
  unfold declaredSegment
  simp only [ends_peek]
  split
  · rename_i here
    apply (yields_skip_one sound (by simp [here])).bind sound
    intro _ first follows less
    apply (yields_expectIdentifier follows.sound).bind follows.sound
    intro className second followsName lessName
    simp only [ends_check]
    apply Yields.optionally followsName.sound
    · intro _
      exact (yields_skipTemplateArguments followsName.sound).ignore
    · intro last followsArguments
      have lessLast := followsArguments.weight_le
      have shorter : last.cursor.weight < state.cursor.weight := by omega
      exact yields_pure shorter
  · apply (yields_operatorName sound).bind sound
    intro name next _ less
    exact yields_pure less
  · rename_i here
    apply (yields_skip_one sound (by simp [here])).bind sound
    intro _ first follows less
    apply (yields_skipClosedArguments follows.sound).bind follows.sound
    intro hasArguments second followsArguments _
    have shorter : second.cursor.weight < state.cursor.weight := by
      have := followsArguments.weight_le
      omega
    apply yields_segmentQualifies.bind followsArguments.sound
    rintro qualifies _ _ rfl
    split
    · simp only [ends_since]
      apply (yields_skip (.inr rfl)).bind followsArguments.sound
      intro _ third followsColons _
      apply (yields_eat followsColons.sound (by simp)).bind followsColons.sound
      intro _ last followsWord _
      have lessLast := (followsColons.trans followsWord).weight_le
      exact yields_pure ⟨by omega, trivial⟩
    · exact yields_pure shorter
  · exact yields_refuseName

/-- A declared name takes something of what is left to read. -/
theorem yields_declaratorId (sound : state.Sound) :
    Yields declaratorId state fun _ next => next.cursor.weight < state.cursor.weight := by
  unfold declaratorId
  simp only [ends_mark]
  apply (yields_eat sound (by simp)).bind sound
  intro isGlobal first follows _
  simp only [ends_since]
  apply yields_iterate follows.sound (fun _ _ => True) trivial
  intro qualifier next followsNext _
  apply (yields_declaredSegment followsNext.sound _ isGlobal qualifier).imp
  intro outcome after _ advances
  cases outcome with
  | again => exact advances
  | done =>
      have less := (follows.trans followsNext).weight_le
      exact Nat.lt_of_lt_of_le advances less

/-! ## Parameters -/

theorem yields_parametersAhead (sound : state.Sound) :
    Yields parametersAhead state fun _ next => next = state := by
  unfold parametersAhead
  simp only [ends_ahead]
  split
  · exact yields_pure rfl
  · exact yields_pure rfl
  · exact yields_pure rfl
  · exact yields_pure rfl
  · split <;> exact yields_pure rfl
  · simp only [ends_table, ends_lookupScope]
    split
    · rename_i found here
      have present := sound.table.consistent.has_of_lookup here
      split
      · exact yields_pure rfl
      · rename_i missing
        simp [SymbolTable.Has, missing] at present
    · exact yields_pure rfl
  · exact yields_pure rfl

theorem yields_typedParameter (works : rules.Works bound) (sound : state.Sound)
    (within : state.cursor.weight ≤ bound) (start : Span) :
    Yields (typedParameter rules start) state fun _ _ => True := by
  unfold typedParameter
  apply (yields_skipAttributes sound).bind sound
  intro _ first follows _
  have lessFirst := follows.weight_le
  apply (yields_specifiers works follows.sound (by omega) .parameter).bind follows.sound
  intro specs second followsSpecs read
  split
  · simp only [ends_peek]
    exact yields_refuse_bind
  · rename_i typed
    -- Specifiers with a type have been read, so what is nested starts behind them.
    have lessSecond : second.cursor.weight < bound := by
      rcases read with rfl | less
      · exact absurd rfl typed
      · omega
    apply (works.declarator followsSpecs.sound lessSecond).bind followsSpecs.sound
    intro declarator third followsDeclarator _
    apply (yields_eat followsDeclarator.sound (by simp)).bind followsDeclarator.sound
    intro hasDefault fourth followsEqual _
    apply Yields.optionally followsEqual.sound
    · intro _
      exact yields_skipExpression followsEqual.sound _
    · intro last _
      simp only [ends_previousSpan]
      exact yields_pure trivial

theorem yields_nextParameter (works : rules.Works bound) (sound : state.Sound)
    (within : state.cursor.weight ≤ bound) (parameters : List ParsedParameter) :
    Yields (nextParameter rules parameters) state fun outcome next =>
      outcome.Advances state (fun _ _ => True) (fun _ _ => True) next := by
  unfold nextParameter
  simp only [ends_peek]
  apply (yields_eat sound (by simp)).bind sound
  intro dots first follows _
  have lessFirst := follows.weight_le
  split
  · exact yields_pure trivial
  · apply (yields_typedParameter works follows.sound (by omega) _).bind follows.sound
    intro parameter second followsParameter _
    simp only [ends_check]
    split
    · rename_i here
      have more : second.cursor.peek.kind ≠ .eof := by
        rw [eq_of_beq here]
        simp
      exact (yields_advance followsParameter.sound more).map fun _ _ _ => trivial
    · exact yields_separated followsParameter.sound (follows.trans followsParameter).weight_le
        (by simp) (fun _ _ => trivial) trivial

theorem yields_parameterList (works : rules.Works bound) (sound : state.Sound)
    (within : state.cursor.weight ≤ bound) :
    Yields (parameterList rules) state fun _ next =>
      next.cursor.weight < state.cursor.weight := by
  unfold parameterList
  apply (yields_expect sound (by simp)).bind sound
  intro _ first follows less
  suffices yields : Yields _ first fun _ _ => True from yields.below less
  simp only [ends_check, ends_checkAhead]
  apply Yields.optionally follows.sound
  · intro _
    exact (yields_skip (.inr rfl)).ignore
  · intro second followsVoid
    apply (yields_eat followsVoid.sound (by simp)).bind followsVoid.sound
    intro closed third followsCloser _
    have lessThird := (followsVoid.trans followsCloser).weight_le
    split
    · exact yields_pure trivial
    · have items : Yields (iterate (nextParameter rules) []) third fun _ _ => True := by
        apply yields_iterate followsCloser.sound (fun _ _ => True) trivial
        intro parameters next followsNext _
        have lessNext := followsNext.weight_le
        exact yields_nextParameter works followsNext.sound (by omega) parameters
      apply items.bind followsCloser.sound
      intro parameters fourth followsItems _
      exact (yields_expect followsItems.sound (by simp)).returns

/-! ## Suffixes -/

theorem yields_typeGroup (sound : state.Sound) (more : state.cursor.peek.kind ≠ .eof)
    (declarator : Declarator) :
    Yields (typeGroup declarator) state fun _ next =>
      next.cursor.weight < state.cursor.weight := by
  unfold typeGroup
  simp only [ends_mark]
  apply (yields_skipGroup sound).bind sound
  intro _ next _ less
  simp only [ends_since]
  exact yields_pure (less (unread_ne_nil sound more))

theorem yields_declaratorSuffix (works : rules.Works bound) (sound : state.Sound)
    (within : state.cursor.weight ≤ bound) (mode : DeclaratorMode) (declarator : Declarator) :
    Yields (declaratorSuffix rules mode declarator) state fun outcome next =>
      outcome.Advances state (fun _ _ => True) (fun _ _ => True) next := by
  unfold declaratorSuffix
  simp only [ends_peek]
  split
  · rename_i here
    split
    · exact yields_pure trivial
    · split
      · apply (yields_parametersAhead sound).bind sound
        rintro parameters _ _ rfl
        split
        · exact (yields_parameterList works sound within).again
        · exact (yields_skipGroup sound).map fun _ _ _ => trivial
      · exact (yields_typeGroup sound (by simp [here]) declarator).again
  · rename_i here
    simp only [ends_checkAhead]
    split
    · rename_i again
      exact (yields_skipAttributes_lt sound (.inl ⟨here, eq_of_beq again⟩)).again
    · split
      · exact yields_pure trivial
      · exact (yields_typeGroup sound (by simp [here]) declarator).again
  · exact yields_pure trivial

/-! ## Whole declarators -/

theorem yields_nestedAhead : Yields nestedAhead state fun found next =>
    next = state ∧ (found = true → state.cursor.peek.kind = .punct .leftParen) := by
  unfold nestedAhead
  simp only [ends_check]
  split
  · rename_i here
    simp only [ends_ahead]
    split
    · exact yields_pure ⟨rfl, fun _ => eq_of_beq here⟩
    · exact yields_pure ⟨rfl, by simp⟩
  · exact yields_pure ⟨rfl, by simp⟩

theorem yields_nestedDeclarator (works : rules.Works bound) (sound : state.Sound)
    (within : state.cursor.weight ≤ bound) (more : state.cursor.peek.kind ≠ .eof)
    (mode : DeclaratorMode) (declarator : Declarator) :
    Yields (nestedDeclarator rules mode declarator) state fun _ next =>
      next.cursor.weight < state.cursor.weight := by
  unfold nestedDeclarator
  apply (yields_advance sound more).bind sound
  intro opener first follows less
  suffices yields : Yields _ first fun _ _ => True from yields.below less
  apply (works.declarator follows.sound (by omega)).bind follows.sound
  intro inner second followsInner _
  apply (yields_expect followsInner.sound (by simp)).bind followsInner.sound
  intro closer third followsCloser _
  simp only [ends_mark, ends_unread]
  refine (yields_pass followsCloser.sound (Stretch.length_suffixes_le _)).bind
    followsCloser.sound ?_
  intro _ last _ _
  simp only [ends_since]
  exact yields_pure trivial

theorem yields_declaratorName (sound : state.Sound) (mode : DeclaratorMode) :
    Yields (declaratorName mode) state fun _ next =>
      mode = .named → next.cursor.weight < state.cursor.weight := by
  have named : Yields (do return some (← declaratorId)) state fun _ next =>
      mode = .named → next.cursor.weight < state.cursor.weight := by
    apply (yields_declaratorId sound).bind sound
    intro _ next _ less
    exact yields_pure fun _ => less
  unfold declaratorName
  cases mode with
  | named => exact named
  | parameter =>
      simp only [ends_peek]
      split
      · exact named
      · exact named
      · exact named
      · exact yields_pure (by simp)
  | abstract => exact yields_pure (by simp)

/-- A declarator that has to have a name takes something of what is left to
read. -/
theorem yields_declarator (works : rules.Works bound) (sound : state.Sound)
    (within : state.cursor.weight ≤ bound) (mode : DeclaratorMode) :
    Yields (declarator rules mode) state fun _ next =>
      mode = .named → next.cursor.weight < state.cursor.weight := by
  unfold declarator
  apply (yields_pointerOperators sound).bind sound
  intro tokens first follows _
  apply (yields_eat follows.sound (by simp)).bind follows.sound
  intro isPack second followsDots _
  have lessSecond := (follows.trans followsDots).weight_le
  apply yields_nestedAhead.bind followsDots.sound
  rintro nested start _ ⟨rfl, opens⟩
  split
  · rename_i found
    have more : start.cursor.peek.kind ≠ .eof := by simp [opens found]
    apply (yields_nestedDeclarator works followsDots.sound (by omega) more mode _).imp
    intro _ _ _ less _
    omega
  · apply (yields_declaratorName followsDots.sound mode).bind followsDots.sound
    intro id third followsName read
    apply (yields_skipAttributes followsName.sound).bind followsName.sound
    intro _ fourth followsAttributes _
    have lessFourth := (followsName.trans followsAttributes).weight_le
    have suffixes : Yields (iterate (declaratorSuffix rules mode)
        { tokens := tokens, isPack := isPack, id := id }) fourth fun _ _ => True := by
      apply yields_iterate followsAttributes.sound (fun _ _ => True) trivial
      intro declarator next followsNext _
      have lessNext := followsNext.weight_le
      exact yields_declaratorSuffix works followsNext.sound (by omega) mode declarator
    apply suffixes.imp
    intro _ next activity _ required
    have lessThird := read required
    have lessLast := activity.weight_le
    have := followsAttributes.weight_le
    omega

end ParseM

end DeclTree
