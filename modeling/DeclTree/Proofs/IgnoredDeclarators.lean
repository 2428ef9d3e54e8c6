import DeclTree.Proofs.IgnoredSpecifiers

/-!
# Declarators in front of a sequel

A declarator may come to the end of the text, where nothing is known of it: what follows it has to
be there, and is not found.
-/

namespace DeclTree

namespace ParseM

variable {α β : Type} {sequel : Sequel} {old : Nat} {state : ParseState} {rules longer : Rules}

/-! ## Pointers -/

theorem ignores_memberPointer (tokens : List Token) :
    Ignores sequel old (fun _ => .anything) (memberPointer tokens) (memberPointer tokens) := by
  refine fun state => .unread (.congr (fun approaches more => by
    rw [Ahead.memberPointer?_append approaches.ended more]) ?_)
  split
  · rename_i length found
    refine .mark
      ((ignoresFrom_skip fun _ _ => (Ahead.memberPointer?_bounds found).2).short fun _ => ?_)
    exact ((disregards_since _).bind fun _ => .pure _).ignores
  · exact ignores_pure _ state

theorem ignores_pointerOperator (tokens : List Token) :
    Ignores sequel old (fun _ => .anything) (pointerOperator tokens) (pointerOperator tokens) := by
  have taken : Ignores sequel old (fun _ => .anything)
      (do return .again (tokens ++ [← advance]) : ParseM (Step (List Token) (List Token)))
      (do return .again (tokens ++ [← advance])) :=
    ignores_advance.short fun _ => ignores_pure _
  refine fun state => .peek ?_
  split
  · rename_i mark peek
    refine .ite (fun _ => taken state) fun _ => .ite (fun bracket => ?_) fun _ =>
      .ite (fun _ => ignores_memberPointer tokens state) fun _ => ignores_pure _ state
    refine .checkSecond (by rw [peek, bracket]; rfl)
      (.ite (fun _ => ?_) fun _ => ignores_pure _ state)
    exact (ignores_skipAttributes state).short fun _ => ignores_pure _
  · exact .ite (fun _ => taken state) fun _ => ignores_pure _ state
  · exact .ite (fun _ => ignoresFrom_next.short fun _ => ignores_pure _) fun _ =>
      ignores_memberPointer tokens state
  · exact ignores_pure _ state

theorem ignores_pointerOperators :
    Ignores sequel old (fun _ => .anything) pointerOperators pointerOperators :=
  .iterateShort ignores_pointerOperator []

/-! ## Declared names -/

theorem ignores_skipConversion :
    Ignores sequel old (fun _ => .anything) skipConversion skipConversion :=
  fun _ => .unread (ignoresFrom_skipWhile (.inl rfl))

theorem ignores_operatorName :
    Ignores sequel old (fun _ => .anything) operatorName operatorName := by
  have spelled (start : Nat) : Ignores sequel old (fun _ => .anything)
      (return spell (← since start) : ParseM String) (return spell (← since start)) :=
    ((disregards_since start).bind fun _ => .pure _).ignores
  have conversion (start : Nat) : Ignores sequel old (fun _ => .anything)
      (do skipConversion; return spell (← since start) : ParseM String)
      (do skipConversion; return spell (← since start)) :=
    ignores_skipConversion.short fun _ => spelled start
  refine disregards_mark.ignores.inside fun start => (ignores_expectInside rfl).inside
    fun word state => .peek ?_
  split
  · exact ignoresFrom_next.short fun _ => (ignores_expect _).short fun _ => spelled start
  · exact ignoresFrom_next.short fun _ => (ignores_expect _).short fun _ => spelled start
  iterate 2
    · refine ignoresFrom_next.short fun _ next => .checkBoth rfl (fun bracket _ => ?_)
        (spelled start next)
      refine (ignoresFrom_skip fun approaches more => ?_).short fun _ => spelled start
      exact approaches.one_lt_length more (bracket ▸ rfl)
  · exact ignoresFrom_next.short fun _ => (ignores_eat _).short fun _ => spelled start
  iterate 3
    · exact ignores_refuse _ _ state
  · exact .ite (fun _ => ignoresFrom_next.short fun _ => spelled start) fun _ =>
      conversion start state
  · exact conversion start state

theorem ignores_segmentQualifies :
    Ignores sequel old (fun _ => .never) segmentQualifies segmentQualifies :=
  fun state => .check (.ite (fun found => .second (by rw [eq_of_beq found]; rfl)
    (ignores_pure _ state)) fun _ => ignores_pure false state)

theorem ignores_declaredSegment (start : Nat) (isGlobal : Bool) (qualifier : QualifierSoFar) :
    Ignores sequel old (fun _ => .anything) (declaredSegment start isGlobal qualifier)
      (declaredSegment start isGlobal qualifier) := by
  refine fun state => .peek ?_
  split
  · refine ignoresFrom_next.short fun _ => ignores_expectIdentifier.short fun className state => ?_
    refine .check (.ite (fun _ => ?_) fun _ => ignores_pure _ state)
    exact (ignores_skipTemplateArguments state).short fun _ => ignores_pure _
  · exact (ignores_operatorName state).short fun _ => ignores_pure _
  · refine ignoresFrom_next.short fun _ => ignores_skipClosedArguments.short fun _ =>
      ignores_segmentQualifies.short fun _ => .ite ?_ (ignores_pure _)
    refine (disregards_since start).ignores.inside fun _ state => ignoresFrom_next.short fun _ => ?_
    exact (ignores_eat _).short fun _ => ignores_pure _
  · exact ignores_refuseName state

theorem ignores_declaratorId :
    Ignores sequel old (fun _ => .anything) declaratorId declaratorId :=
  disregards_mark.ignores.inside fun start => (ignores_eat _).short fun isGlobal =>
    (disregards_since start).ignores.inside fun _ =>
      .iterateShort (ignores_declaredSegment start isGlobal) _

/-! ## Parameters -/

theorem ignoresFrom_parametersAhead (opens : state.cursor.peek.kind = .punct .leftParen) :
    IgnoresFrom sequel old (fun _ => .never) parametersAhead parametersAhead state := by
  have inner : state.cursor.peek.kind.endsDeclaration = false := by rw [opens]; rfl
  refine .second inner ?_
  split
  iterate 3
    · exact ignores_pure _ state
  · rename_i bracket
    refine IgnoresFrom.ahead (fun approaches more => ?_) (ignores_pure _ state)
    exact approaches.two_lt_length (approaches.one_lt_length more inner) (by rw [bracket]; rfl)
  · split <;> exact ignores_pure _ state
  · refine (disregards_table.bind fun table =>
      disregards_lookupScope.bind fun scope => ?_).ignores state
    split
    · split
      · exact .pure _
      · exact .stuck
    · exact .pure _
  · exact ignores_pure _ state

theorem ignores_typedParameter (ignore : rules.Ignore sequel longer) (start : Span) :
    Ignores sequel old (fun _ => .anything) (typedParameter rules start)
      (typedParameter longer start) := by
  refine ignores_skipAttributes.inside fun _ => (ignores_specifiers ignore _).inside fun specs => ?_
  refine .ite (fun state => .peek (ignores_refused _ _ state)) ?_
  have ends (result : Span → ParsedParameter) : Ignores sequel old (fun _ => .anything)
      (do return result (← previousSpan)) (do return result (← previousSpan)) :=
    (disregards_previousSpan.bind fun _ => .pure _).ignores
  exact (ignore.declarator _ _).short fun _ => (ignores_eat _).short fun _ =>
    .ite ((ignores_skipExpression _).short fun _ => ends _) (ends _)

theorem ignores_nextParameter (ignore : rules.Ignore sequel longer)
    (parameters : List ParsedParameter) :
    Ignores sequel old (fun _ => .anything) (nextParameter rules parameters)
      (nextParameter longer parameters) := by
  refine fun state => .peek (((ignores_eat _).short fun _ => .ite (ignores_pure _) ?_) state)
  refine (ignores_typedParameter ignore _).short fun parameter state => .check (.ite (fun _ => ?_)
    fun _ => ?_)
  · exact (ignores_advance state).short fun _ => ignores_pure _
  · exact ((ignores_eat _).short fun _ => .ite (ignores_pure _) (ignores_pure _)) state

theorem ignores_parameterList (ignore : rules.Ignore sequel longer) :
    Ignores sequel old (fun _ => .never) (parameterList rules) (parameterList longer) := by
  have items : Ignores sequel old (fun _ => .anything) (iterate (nextParameter rules) [])
      (iterate (nextParameter longer) []) := .iterateShort (ignores_nextParameter ignore) []
  have rest : Ignores sequel old (fun _ => .never)
      (do
        if ← eat (.punct .rightParen) then
          return []
        else
          let parameters ← iterate (nextParameter rules) []
          let _ ← expect (.punct .rightParen)
          return parameters)
      (do
        if ← eat (.punct .rightParen) then
          return []
        else
          let parameters ← iterate (nextParameter longer) []
          let _ ← expect (.punct .rightParen)
          return parameters) :=
    (ignores_eatInside rfl).inside fun _ => .ite (ignores_pure _) fun state =>
      (items state).expecting (by simp) fun _ => (ignores_expectInside rfl).inside
        fun _ => ignores_pure _
  refine (ignores_expectInside rfl).inside fun _ state => .checkBoth rfl (fun word _ => ?_)
    (rest state)
  exact (ignoresFrom_nextInside (word ▸ rfl)).inside fun _ => rest

/-! ## Declarators -/

theorem ignores_typeGroup (declarator : Declarator) :
    Ignores sequel old (fun _ => .anything) (typeGroup declarator) (typeGroup declarator) :=
  disregards_mark.ignores.inside fun _ => ignores_skipGroup.short fun _ =>
    ((disregards_since _).bind fun _ => .pure _).ignores

theorem ignores_declaratorSuffix (ignore : rules.Ignore sequel longer) (mode : DeclaratorMode)
    (declarator : Declarator) :
    Ignores sequel old (fun _ => .anything) (declaratorSuffix rules mode declarator)
      (declaratorSuffix longer mode declarator) := by
  have group : Ignores sequel old (fun _ => .anything)
      (do return .again (← typeGroup declarator) : ParseM (Step Declarator Declarator))
      (do return .again (← typeGroup declarator)) :=
    (ignores_typeGroup declarator).short fun _ => ignores_pure _
  refine fun state => .peek ?_
  split
  · rename_i opens
    refine .ite (fun _ => ignores_pure _ state) fun _ => .ite (fun _ => ?_) fun _ => group state
    refine (ignoresFrom_parametersAhead opens).inside fun _ => .ite ?_ ?_
    · exact (ignores_parameterList ignore).inside fun _ => ignores_pure _
    · exact ignores_skipGroup.short fun _ => ignores_pure _
  · rename_i bracket
    refine .checkSecond (by rw [bracket]; rfl) (.ite (fun _ => ?_) fun _ =>
      .ite (fun _ => ignores_pure _ state) fun _ => group state)
    exact (ignores_skipAttributes state).short fun _ => ignores_pure _
  · exact ignores_pure _ state

theorem ignores_nestedAhead : Ignores sequel old (fun _ => .never) nestedAhead nestedAhead := by
  refine fun state => .check (.ite (fun found => .second (by rw [eq_of_beq found]; rfl) ?_)
    fun _ => ignores_pure false state)
  split <;> exact ignores_pure _ state

theorem ignores_nestedDeclarator (ignore : rules.Ignore sequel longer) (mode : DeclaratorMode)
    (declarator : Declarator) :
    Ignores sequel old (fun _ => .anything) (nestedDeclarator rules mode declarator)
      (nestedDeclarator longer mode declarator) := by
  refine ignores_advance.short fun opener => (ignore.declarator _ mode).short fun inner =>
    (ignores_expect _).short fun closer => disregards_mark.ignores.inside fun start state =>
      .unread ?_
  have suffixes : IgnoresFrom sequel old (fun _ => .anything)
      (pass (Stretch.suffixes state.cursor.unread))
      (pass (Stretch.suffixes (state.cursor.unread ++ sequel.tokens))) state :=
    ignoresFrom_pass (Stretch.length_suffixes_le _) fun _ _ _ =>
      (Stretch.suffixes_append _ _).imp (fun same => ⟨same, .inr (by simp)⟩)
        fun exhausts => ⟨exhausts, rfl⟩
  exact suffixes.short fun _ => ((disregards_since start).bind fun _ => .pure _).ignores

theorem ignores_declaratorName (mode : DeclaratorMode) :
    Ignores sequel old (fun _ => .anything) (declaratorName mode) (declaratorName mode) := by
  have named : Ignores sequel old (fun _ => .anything) (do return some (← declaratorId))
      (do return some (← declaratorId)) := ignores_declaratorId.short fun _ => ignores_pure _
  unfold declaratorName
  split
  · exact named
  · refine fun state => .peek ?_
    split
    iterate 3
      · exact named state
    · exact ignores_pure _ state
  · exact ignores_pure _

theorem ignores_declarator (ignore : rules.Ignore sequel longer) (mode : DeclaratorMode) :
    Ignores sequel old (fun _ => .anything) (declarator rules mode) (declarator longer mode) :=
  ignores_pointerOperators.short fun _ => (ignores_eat _).short fun _ =>
    ignores_nestedAhead.short fun _ => .ite (ignores_nestedDeclarator ignore mode _)
      ((ignores_declaratorName mode).short fun _ => ignores_skipAttributes.short fun _ =>
        .iterateShort (ignores_declaratorSuffix ignore mode) _)

end ParseM

end DeclTree
