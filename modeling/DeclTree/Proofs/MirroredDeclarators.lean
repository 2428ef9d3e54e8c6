import DeclTree.Proofs.MirroredSpecifiers

/-!
# Declarators behind another source

A declarator is read from the tokens alone, apart from the one place where a name in parentheses is
looked up in the table.
-/

namespace DeclTree

namespace ParseM

variable {α β : Type} {front : Front} {start stop : Bool} {rules mirrored : Rules}

/-! ## Pointers -/

theorem mirrors_memberPointer (tokens : List Token) :
    MirrorsAs front start start (Step.map front.displacement.move front.displacement.move)
      (memberPointer tokens) (memberPointer (front.displacement.move tokens)) := by
  refine mirrors_unread.bind fun ahead => ?_
  rw [front.displacement.memberPointer?_move]
  split
  · exact mirrors_mark.bind fun mark => (mirrors_skip _).bind fun _ =>
      (mirrors_since mark).bind fun _ => .pure (congrArg Step.again
      (front.displacement.move_append tokens _).symm)
  · exact .pure rfl

theorem mirrors_pointerOperator (tokens : List Token) :
    MirrorsAs front start start (Step.map front.displacement.move front.displacement.move)
      (pointerOperator tokens) (pointerOperator (front.displacement.move tokens)) := by
  have read : MirrorsAs front start start
      (Step.map front.displacement.move front.displacement.move)
      (do return .again (tokens ++ [← advance]) : ParseM (Step (List Token) (List Token)))
      (do return .again (front.displacement.move tokens ++ [← advance])) :=
    mirrors_advance.bind fun token => .pure (congrArg Step.again
      (front.displacement.move_append tokens [token]).symm)
  refine mirrors_peek.bind fun token => ?_
  simp only [Displacement.kind_move, Displacement.lexeme_move]
  split
  · exact .ite (fun _ => read) fun _ => .ite (fun _ => (mirrors_checkAhead _ _).bind fun _ =>
      .ite (fun _ => mirrors_skipAttributes.bind fun _ => .pure rfl) fun _ => .pure rfl) fun _ =>
        .ite (fun _ => mirrors_memberPointer tokens) fun _ => .pure rfl
  · exact .ite (fun _ => read) fun _ => .pure rfl
  · exact .ite (fun _ => mirrors_next.bind fun _ => .pure rfl) fun _ =>
      mirrors_memberPointer tokens
  · exact .pure rfl

theorem mirrors_pointerOperators : Mirrors front start start pointerOperators pointerOperators :=
  MirrorsAs.iterate mirrors_pointerOperator []

/-! ## Declared names -/

theorem mirrors_skipConversion : Mirrors front start start skipConversion skipConversion :=
  mirrors_skipWhile fun kind => kind != .punct .leftParen && kind != .punct .semicolon &&
    kind != .punct .leftBrace && kind != .eof

/-- The text of the tokens read since a mark. -/
theorem mirrors_spellSince (mark : Nat) :
    MirrorsAs front start start id (do return spell (← since mark))
      (do return spell (← since (mark + front.tokens.length))) :=
  (mirrors_since mark).bind fun tokens => .pure (front.displacement.spell_move tokens)

theorem mirrors_operatorName : MirrorsAs front start stop id operatorName operatorName := by
  refine mirrors_mark.bind fun mark => (mirrors_expect _).behind fun word =>
    mirrors_peek.bind fun token => ?_
  have spelled : MirrorsAs front true true id (do return spell (← since mark))
      (do return spell (← since (mark + front.tokens.length))) := mirrors_spellSince mark
  simp only [Displacement.kind_move]
  split
  iterate 2
    · exact (mirrors_skip 1).bind fun _ => (mirrors_expect _).bind fun _ => spelled
  iterate 2
    · exact (mirrors_skip 1).bind fun _ => (mirrors_check _).bind fun _ =>
        (mirrors_checkAhead _ _).bind fun _ =>
          .ite (fun _ => (mirrors_skip 2).bind fun _ => spelled) fun _ => spelled
  · exact (mirrors_skip 1).bind fun _ => (mirrors_eat _).bind fun _ => spelled
  iterate 3
    · exact .refuses _ word.span
  · exact .ite (fun _ => (mirrors_skip 1).bind fun _ => spelled) fun _ =>
      mirrors_skipConversion.bind fun _ => spelled
  · exact mirrors_skipConversion.bind fun _ => spelled

theorem mirrors_segmentQualifies :
    Mirrors front start start segmentQualifies segmentQualifies :=
  (mirrors_check _).bind fun _ => .ite (fun _ => (mirrors_ahead _).bind fun _ => .pure rfl)
    fun _ => .pure rfl

theorem mirrors_declaredSegment (mark : Nat) (isGlobal : Bool) (qualifier : QualifierSoFar) :
    MirrorsAs front start stop (Step.map id front.displacement.move)
      (declaredSegment mark isGlobal qualifier)
      (declaredSegment (mark + front.tokens.length) isGlobal qualifier) := by
  refine mirrors_peek.bind fun token => ?_
  simp only [Displacement.kind_move, Displacement.lexeme_move]
  split
  · refine mirrors_next.behind fun _ => mirrors_expectIdentifier.behind fun className =>
      (mirrors_check _).bind fun _ => ?_
    have ended : MirrorsAs front true true (Step.map id front.displacement.move)
        (do return .done (declaredName isGlobal qualifier ("~" ++ className.lexeme)
          (token.span.merge className.span) false) : ParseM (Step QualifierSoFar DeclaratorId))
        (do return .done (declaredName isGlobal qualifier ("~" ++ className.lexeme)
          ((front.displacement.move token).span.merge
            (front.displacement.move className).span) false)) :=
      .pure (congrArg (fun span => Step.done (declaredName isGlobal qualifier
        ("~" ++ className.lexeme) span false))
          (front.displacement.move_merge token.span className.span).symm)
    exact .ite (fun _ => mirrors_skipTemplateArguments.bind fun _ => ended) fun _ => ended
  · exact mirrors_operatorName.bind fun _ => .pure rfl
  · refine mirrors_next.behind fun _ => mirrors_skipClosedArguments.bind fun _ =>
      mirrors_segmentQualifies.bind fun _ => .ite (fun _ => ?_) fun _ => .pure rfl
    refine (mirrors_since mark).bind fun tokens => mirrors_next.bind fun _ =>
      (mirrors_eat _).bind fun _ => .pure ?_
    rw [Displacement.spell_move]
    rfl
  · exact mirrors_refuseName

theorem mirrors_declaratorId : Mirrors front start stop declaratorId declaratorId := by
  refine .begins <| mirrors_mark.bind fun mark => (mirrors_eat _).bind fun isGlobal =>
    (mirrors_since mark).bind fun tokens => ?_
  rw [Displacement.spell_move]
  exact .iterateBegins (mirrors_declaredSegment mark isGlobal) _

/-! ## Parameters -/

theorem mirrors_parametersAhead :
    Mirrors front start start parametersAhead parametersAhead := by
  refine (mirrors_ahead 1).bind fun token => ?_
  simp only [Displacement.kind_move, Displacement.lexeme_move]
  split
  iterate 3
    · exact .pure rfl
  · exact mirrors_checkAhead _ _
  · split <;> exact .pure rfl
  · refine mirrors_table.bind fun table => mirrors_lookupScope.bind fun scope => ?_
    simp only [SymbolTable.looksAlike_relabel.lookup, id_eq]
    cases table.lookup token.lexeme scope with
    | error error => exact .pure rfl
    | ok found =>
        simp only [SymbolTable.get?_relabel]
        cases table.get? found with
        | none => exact .stuck
        | some symbol => exact .pure rfl
  · exact .pure rfl

theorem typeRef_move (specs : DeclSpecs) (declarator : Declarator) :
    (front.displacement.move specs).typeRef (front.displacement.move declarator) =
      specs.typeRef declarator :=
  front.displacement.typeRef_move specs declarator

/-- The name of a declarator does not depend on where it stands. -/
theorem name_move (declarator : Declarator) :
    (front.displacement.move declarator).id.map DeclaratorId.name =
      declarator.id.map DeclaratorId.name := by
  obtain ⟨id⟩ := declarator
  cases id <;> rfl

theorem mirrors_typedParameter (mirror : rules.Mirror front mirrored) (span : Span) :
    Mirrors front true true (typedParameter rules span)
      (typedParameter mirrored (front.displacement.move span)) := by
  refine mirrors_skipAttributes.bind fun _ => (mirrors_specifiers mirror _).bind fun specs => ?_
  have rest : Mirrors front true true
      (do
        let declarator ← rules.declarator .parameter
        let hasDefault ← eat (.punct .equal)
        if hasDefault then skipExpression [.punct .comma, .punct .rightParen]
        return {
          name := declarator.id.map DeclaratorId.name
          type := specs.typeRef declarator
          hasDefault := hasDefault
          isVariadic := declarator.isPack
          start := span
          last := ← previousSpan } : ParseM ParsedParameter)
      (do
        let declarator ← mirrored.declarator .parameter
        let hasDefault ← eat (.punct .equal)
        if hasDefault then skipExpression [.punct .comma, .punct .rightParen]
        return {
          name := declarator.id.map DeclaratorId.name
          type := (front.displacement.move specs).typeRef declarator
          hasDefault := hasDefault
          isVariadic := declarator.isPack
          start := front.displacement.move span
          last := ← previousSpan }) := by
    refine (mirror.declarator _).bind fun declarator => (mirrors_eat _).bind fun hasDefault => ?_
    rw [typeRef_move, name_move]
    have ended : Mirrors front true true
        (do return ⟨declarator.id.map DeclaratorId.name, specs.typeRef declarator, hasDefault,
          declarator.isPack, span, ← previousSpan⟩ : ParseM ParsedParameter)
        (do return ⟨declarator.id.map DeclaratorId.name, specs.typeRef declarator, hasDefault,
          declarator.isPack, front.displacement.move span, ← previousSpan⟩) :=
      mirrors_previousSpan.bind fun _ => .pure rfl
    exact .ite (fun _ => (mirrors_skipExpression _).bind fun _ => ended) fun _ => ended
  exact .ite (fun _ => mirrors_peek.bind fun found => .refuses _ found.span) fun _ => rest

theorem mirrors_nextParameter (mirror : rules.Mirror front mirrored)
    (parameters : List ParsedParameter) :
    MirrorsAs front true true (Step.map front.displacement.move front.displacement.move)
      (nextParameter rules parameters)
      (nextParameter mirrored (front.displacement.move parameters)) := by
  have appended (parameters : List ParsedParameter) (parameter : ParsedParameter) :
      front.displacement.move parameters ++ [front.displacement.move parameter] =
        front.displacement.move (parameters ++ [parameter]) :=
    (front.displacement.move_append parameters [parameter]).symm
  refine mirrors_peek.bind fun token => (mirrors_eat _).bind fun _ =>
    .ite (fun _ => .pure (congrArg Step.done (appended _ (variadicParameter token.span)))) fun _ =>
      (mirrors_typedParameter mirror token.span).bind fun parameter => (mirrors_check _).bind
        fun _ => ?_
  rw [appended]
  exact .ite (fun _ => mirrors_advance.bind fun dots =>
    .pure (congrArg Step.done (appended _ (variadicParameter dots.span)))) fun _ =>
      (mirrors_eat _).bind fun _ => .ite (fun _ => .pure rfl) fun _ => .pure rfl

theorem mirrors_parameterList (mirror : rules.Mirror front mirrored) :
    Mirrors front start stop (parameterList rules) (parameterList mirrored) := by
  have rest : Mirrors front true true
      (do
        if ← eat (.punct .rightParen) then
          return []
        else
          let parameters ← iterate (nextParameter rules) []
          let _ ← expect (.punct .rightParen)
          return parameters)
      (do
        if ← eat (.punct .rightParen) then
          return []
        else
          let parameters ← iterate (nextParameter mirrored) []
          let _ ← expect (.punct .rightParen)
          return parameters) :=
    (mirrors_eat _).bind fun _ => .ite (fun _ => .pure rfl) fun _ =>
      (MirrorsAs.iterate (mirrors_nextParameter mirror) []).bind fun _ =>
        (mirrors_expect _).bind fun _ => .pure rfl
  exact (mirrors_expect _).behind fun _ => (mirrors_check _).bind fun _ =>
    (mirrors_checkAhead _ _).bind fun _ =>
      .ite (fun _ => (mirrors_skip 1).bind fun _ => rest) fun _ => rest

/-! ## Declarators -/

theorem mirrors_typeGroup (declarator : Declarator) :
    Mirrors front start start (typeGroup declarator)
      (typeGroup (front.displacement.move declarator)) :=
  mirrors_mark.bind fun mark => mirrors_skipGroup.bind fun _ =>
    (mirrors_since mark).bind fun _ => .pure (by
      simp [Displacement.move, Displaceable.displaced])

theorem mirrors_declaratorSuffix (mirror : rules.Mirror front mirrored) (mode : DeclaratorMode)
    (declarator : Declarator) :
    MirrorsAs front start start (Step.map front.displacement.move front.displacement.move)
      (declaratorSuffix rules mode declarator)
      (declaratorSuffix mirrored mode (front.displacement.move declarator)) := by
  have known : (front.displacement.move declarator).parameters.isSome =
      declarator.parameters.isSome := by
    obtain ⟨id, tokens, parameters⟩ := declarator
    cases parameters <;> rfl
  refine mirrors_peek.bind fun token => ?_
  simp only [Displacement.kind_move, known]
  split
  · exact .ite (fun _ => .pure rfl) fun _ => .ite (fun _ => mirrors_parametersAhead.bind fun _ =>
      .ite (fun _ => (mirrors_parameterList mirror).bind fun _ => .pure rfl) fun _ =>
        mirrors_skipGroup.bind fun _ => .pure rfl) fun _ => (mirrors_typeGroup declarator).goesOn
  · exact (mirrors_checkAhead _ _).bind fun _ =>
      .ite (fun _ => mirrors_skipAttributes.bind fun _ => .pure rfl) fun _ =>
        .ite (fun _ => .pure rfl) fun _ => (mirrors_typeGroup declarator).goesOn
  · exact .pure rfl

theorem mirrors_nestedAhead : Mirrors front start start nestedAhead nestedAhead := by
  refine (mirrors_check _).bind fun _ => .ite (fun _ => (mirrors_ahead 1).bind fun token => ?_)
    fun _ => .pure rfl
  simp only [Displacement.kind_move]
  split <;> exact .pure rfl

theorem mirrors_nestedDeclarator (mirror : rules.Mirror front mirrored) (mode : DeclaratorMode)
    (declarator : Declarator) :
    Mirrors front start stop (nestedDeclarator rules mode declarator)
      (nestedDeclarator mirrored mode (front.displacement.move declarator)) :=
  mirrors_advance.behind fun opener => (mirror.declarator mode).bind fun inner =>
    (mirrors_expect _).bind fun closer => mirrors_mark.bind fun mark =>
      (mirrors_passAhead front.displacement.suffixes_move).bind fun _ =>
        (mirrors_since mark).bind fun _ => .pure (by
          simp [Displacement.move, Displaceable.displaced])

/-- The name of a declarator that has to have one. -/
theorem mirrors_someDeclaratorId : Mirrors front start stop (do return some (← declaratorId))
    (do return some (← declaratorId)) :=
  .begins <| mirrors_declaratorId.bind fun _ => .pure rfl

theorem mirrors_declaratorName (mode : DeclaratorMode) :
    Mirrors front start start (declaratorName mode) (declaratorName mode) := by
  cases mode with
  | named => exact mirrors_someDeclaratorId
  | parameter =>
      refine mirrors_peek.bind fun token => ?_
      simp only [Displacement.kind_move]
      split
      iterate 3
        · exact mirrors_someDeclaratorId
      · exact .pure rfl
  | abstract => exact .pure rfl

/-- A declarator whose name is read as its mode asks for. -/
theorem mirrors_declaratorWith (mirror : rules.Mirror front mirrored) (mode : DeclaratorMode)
    (named : Mirrors front start stop (declaratorName mode) (declaratorName mode)) :
    Mirrors front start stop (declarator rules mode) (declarator mirrored mode) :=
  mirrors_pointerOperators.bind fun tokens => (mirrors_eat _).bind fun isPack =>
    mirrors_nestedAhead.bind fun _ =>
      .ite (fun _ => mirrors_nestedDeclarator mirror mode { tokens := tokens, isPack := isPack })
        fun _ => named.bind fun id => mirrors_skipAttributes.bind fun _ =>
          .iterate (mirrors_declaratorSuffix mirror mode)
            { tokens := tokens, isPack := isPack, id := id }

theorem mirrors_declarator (mirror : rules.Mirror front mirrored) (mode : DeclaratorMode) :
    Mirrors front start start (declarator rules mode) (declarator mirrored mode) :=
  mirrors_declaratorWith mirror mode (mirrors_declaratorName mode)

/-- A declarator that has to have a name reads it. -/
theorem mirrors_namedDeclarator (mirror : rules.Mirror front mirrored) :
    Mirrors front start stop (declarator rules .named) (declarator mirrored .named) :=
  .begins <| mirrors_declaratorWith mirror .named mirrors_someDeclaratorId

end ParseM

end DeclTree
