import DeclTree.Proofs.MirroredDeclarators

/-!
# Simple declarations behind another source

Functions, variables and names for types are declared in the scope around them, or in the one that
their qualifier names; neither depends on what stands in front.
-/

namespace DeclTree

namespace ParseM

variable {α β : Type} {front : Front} {start stop : Bool} {rules mirrored : Rules}

/-! ## Behind a parameter list -/

theorem mirrors_qualifierScope (name : DeclaratorId) :
    MirrorsAs front start start id (qualifierScope name)
      (qualifierScope (front.displacement.move name)) := by
  obtain ⟨qualifier, name, span, hasArguments⟩ := name
  cases qualifier with
  | none => exact .pure rfl
  | some qualifier =>
      exact .ite (fun _ => .pure rfl) fun _ =>
        (mirrors_resolveScope _ _ span).bind fun _ => .pure rfl

theorem mirrors_trailingType (mirror : rules.Mirror front mirrored) :
    MirrorsAs front start start id (trailingType rules) (trailingType mirrored) :=
  (mirrors_skip 1).bind fun _ => (mirror.specifiers _).bind fun specs =>
    (mirror.declarator _).bind fun declarator => .pure (typeRef_move specs declarator)

theorem mirrors_functionWord (tail : FunctionTail) (token : Token) :
    MirrorsAs front start start (Step.map id id) (functionWord tail token)
      (functionWord tail (front.displacement.move token)) :=
  .ite (fun _ => (mirrors_skip 1).bind fun _ => .pure rfl) fun _ =>
    .ite (fun _ => (mirrors_skip 1).bind fun _ => .pure rfl) fun _ =>
      .ite (fun _ => (mirrors_skip 1).bind fun _ => (mirrors_skipExpression _).bind fun _ =>
        .pure rfl) fun _ =>
          .ite (fun _ => mirrors_skipAttributes.bind fun _ => .pure rfl) fun _ => .pure rfl

theorem mirrors_functionItem (mirror : rules.Mirror front mirrored) (tail : FunctionTail) :
    MirrorsAs front start start (Step.map id id) (functionItem rules tail)
      (functionItem mirrored tail) := by
  refine mirrors_peek.bind fun token => ?_
  simp only [Displacement.kind_move]
  split
  iterate 2
    · exact (mirrors_skip 1).bind fun _ => .pure rfl
  iterate 2
    · exact (mirrors_skip 1).bind fun _ => (mirrors_skipGroupIf _).bind fun _ => .pure rfl
  · exact .ite (fun _ => (mirrors_skip 1).bind fun _ => .pure rfl) fun _ => .pure rfl
  · exact mirrors_functionWord tail token
  · exact (mirrors_trailingType mirror).bind fun _ => .pure rfl
  · exact (mirrors_checkAhead _ _).bind fun _ =>
      .ite (fun _ => mirrors_skipAttributes.bind fun _ => .pure rfl) fun _ => .pure rfl
  · exact .pure rfl

theorem mirrors_functionMark : MirrorsAs front start start id functionMark functionMark := by
  refine (mirrors_check _).bind fun _ => .ite (fun _ => (mirrors_ahead 1).bind fun value => ?_)
    fun _ => .pure rfl
  simp only [Displacement.kind_move, Displacement.lexeme_move]
  split
  · exact .ite (fun _ => (mirrors_skip 2).bind fun _ => .pure rfl) fun _ => .refuse _ value.span
  iterate 2
    · exact (mirrors_skip 2).bind fun _ => .pure rfl
  · exact .refuse _ value.span

theorem mirrors_bodyAhead : Mirrors front start start bodyAhead bodyAhead := by
  refine mirrors_peek.bind fun token => ?_
  simp only [Displacement.kind_move]
  split <;> exact .pure rfl

/-! ## Bodies -/

theorem mirrors_skipBraces : Mirrors front start start skipBraces skipBraces :=
  (mirrors_check _).bind fun _ => .ite (fun _ => mirrors_skipGroup) fun _ =>
    (mirrors_expect _).bind fun _ => .pure rfl

theorem mirrors_initializerSegment (round : Unit) :
    MirrorsAs front start start (Step.map id id) (initializerSegment round)
      (initializerSegment round) :=
  mirrors_expectIdentifier.bind fun _ => mirrors_jumpClosedArguments.bind fun _ =>
    (mirrors_eat _).bind fun _ => .ite (fun _ => .pure rfl) fun _ => .pure rfl

theorem mirrors_constructorInitializer (round : Unit) :
    MirrorsAs front start start (Step.map id id) (constructorInitializer round)
      (constructorInitializer round) := by
  have rest : MirrorsAs front start start (Step.map id id)
      (do
        skipGroup
        let _ ← eat (.punct .ellipsis)
        if ← eat (.punct .comma) then return .again () else return .done () :
          ParseM (Step Unit Unit))
      (do
        skipGroup
        let _ ← eat (.punct .ellipsis)
        if ← eat (.punct .comma) then return .again () else return .done ()) :=
    mirrors_skipGroup.bind fun _ => (mirrors_eat _).bind fun _ => (mirrors_eat _).bind fun _ =>
      .ite (fun _ => .pure rfl) fun _ => .pure rfl
  exact (mirrors_eat _).bind fun _ => (MirrorsAs.iterate mirrors_initializerSegment ()).bind
    fun _ =>
    (mirrors_check _).bind fun _ => (mirrors_check _).bind fun _ =>
      .ite (fun _ => (mirrors_expect _).bind fun _ => rest) fun _ => rest

theorem mirrors_exceptionHandler (round : Unit) :
    MirrorsAs front start start (Step.map id id) (exceptionHandler round)
      (exceptionHandler round) :=
  (mirrors_eat _).bind fun _ => .ite (fun _ => (mirrors_skipGroupIf _).bind fun _ =>
    mirrors_skipBraces.bind fun _ => .pure rfl) fun _ => .pure rfl

theorem mirrors_skipBody : Mirrors front start start skipBody skipBody := by
  have rest (catches : Bool) : Mirrors front start start
      (do
        skipBraces
        if catches then iterate exceptionHandler ())
      (do
        skipBraces
        if catches then iterate exceptionHandler ()) :=
    mirrors_skipBraces.bind fun _ =>
      .ite (fun _ => .iterate mirrors_exceptionHandler ()) fun _ => .pure rfl
  exact (mirrors_eat _).bind fun catches => (mirrors_eat _).bind fun _ =>
    .ite (fun _ => (MirrorsAs.iterate mirrors_constructorInitializer ()).bind fun _ => rest catches)
      fun _ => rest catches

/-! ## Functions -/

theorem mirrors_parameterSymbol (function : SymbolId) (parameter : ParsedParameter) :
    MirrorsAs front start start id (parameterSymbol function parameter)
      (parameterSymbol function (front.displacement.move parameter)) := by
  obtain ⟨name, type, hasDefault, isVariadic, span, last⟩ := parameter
  cases name with
  | none => exact .pure rfl
  | some name =>
      refine mirrors_unit.bind fun unit => ?_
      have declares : Mirrors front start start
          (changeTable span fun table =>
            table.declare function { name := name, kind := .parameter, unit := some unit })
          (changeTable (front.displacement.move span) fun table =>
            table.declare function { name := name, kind := .parameter, unit := some unit }) :=
        mirrors_changeTable span (fun _ => SymbolTable.declare_relabel _ _)
          fun _ _ _ declared => SymbolTable.keepsOrigins_declare declared
      refine declares.attempt.bind fun outcome => ?_
      cases outcome with
      | ok symbol => exact .pure rfl
      | error error => exact (mirrors_report error).bind fun _ => .pure rfl

theorem mirrors_addParameter (node : NodeId) (function : SymbolId)
    (parameter : ParsedParameter) :
    Mirrors front start start (addParameter node function parameter)
      (addParameter (front.displacement.move node) function
        (front.displacement.move parameter)) :=
  (mirrors_parameterSymbol function parameter).bind fun symbol =>
    (mirrors_addNodeUnder node (.parameter ⟨parameter.name, parameter.type, symbol,
      parameter.hasDefault, parameter.isVariadic⟩) parameter.start).bind fun added =>
        mirrors_finishNodeAt added parameter.last

theorem mirrors_addParameters (node : NodeId) (function : SymbolId)
    (parameters : List ParsedParameter) :
    Mirrors front start start (addParameters node function parameters)
      (addParameters (front.displacement.move node) function
        (front.displacement.move parameters)) := by
  induction parameters with
  | nil => exact .pure rfl
  | cons parameter rest ih =>
      exact (mirrors_addParameter node function parameter).bind fun _ => ih

theorem mirrors_functionBody (node : NodeId) :
    Mirrors front true true (functionBody node)
      (functionBody (front.displacement.move node)) :=
  mirrors_skipBody.attempt.bind fun skipped => (mirrors_finishNode node).bind fun _ =>
    (MirrorsAs.resume skipped).bind fun _ => .pure rfl

theorem mirrors_functionRest (mirror : rules.Mirror front mirrored) (specs : DeclSpecs)
    (declarator : Declarator) (name : DeclaratorId) (parameters : List ParsedParameter)
    (span : Span) :
    Mirrors front true true (functionRest rules specs declarator name parameters span)
      (functionRest mirrored (front.displacement.move specs) (front.displacement.move declarator)
        (front.displacement.move name) (front.displacement.move parameters)
        (front.displacement.move span)) := by
  refine (MirrorsAs.iterate (mirrors_functionItem mirror) _).bind fun tail =>
    mirrors_functionMark.bind fun given => mirrors_bodyAhead.bind fun hasBody => ?_
  rw [typeRef_move]
  exact (mirrors_qualifierScope name).bind fun scope =>
    (mirrors_declare _ scope name.span).bind fun symbol =>
      (mirrors_addNode (.function ⟨name.name, name.qualifier.map Qualifier.text, _, _, symbol, _⟩)
        span).bind fun node => (mirrors_addParameters node symbol parameters).bind fun _ =>
          .ite (fun _ => mirrors_functionBody node) fun _ => .pure rfl

/-! ## Other declarators -/

theorem mirrors_declareForward (forward : ForwardTag) :
    Mirrors front start start (declareForward forward)
      (declareForward (front.displacement.move forward)) :=
  (mirrors_pathScope forward.path).bind fun scope =>
    (mirrors_declare _ scope forward.path.span).bind fun _ => .pure rfl

theorem mirrors_typedefDeclarator (specs : DeclSpecs) (declarator : Declarator)
    (name : DeclaratorId) (span : Span) :
    Mirrors front start start (typedefDeclarator specs declarator name span)
      (typedefDeclarator (front.displacement.move specs) (front.displacement.move declarator)
        (front.displacement.move name) (front.displacement.move span)) := by
  refine (mirrors_declare _ _ name.span).bind fun symbol => ?_
  rw [typeRef_move]
  exact (mirrors_addNode (.typedef ⟨name.name, specs.typeRef declarator, symbol⟩) span).bind
    fun _ => .pure rfl

theorem mirrors_initializer (declarator : Declarator) :
    Mirrors front start start (initializer declarator)
      (initializer (front.displacement.move declarator)) :=
  .ite (fun _ => .pure rfl) fun _ => (mirrors_eat _).bind fun _ =>
    .ite (fun _ => (mirrors_skipExpression _).bind fun _ => .pure rfl) fun _ =>
      (mirrors_check _).bind fun _ => .ite (fun _ => mirrors_skipGroup.bind fun _ => .pure rfl)
        fun _ => .pure rfl

theorem mirrors_isDeclarationOnly (specs : DeclSpecs) (name : DeclaratorId)
    (hasInitializer : Bool) :
    Mirrors front start start (isDeclarationOnly specs name hasInitializer)
      (isDeclarationOnly (front.displacement.move specs) (front.displacement.move name)
        hasInitializer) :=
  mirrors_className?.bind fun _ => .pure rfl

theorem mirrors_variableDeclarator (specs : DeclSpecs) (declarator : Declarator)
    (name : DeclaratorId) (span : Span) :
    Mirrors front start start (variableDeclarator specs declarator name span)
      (variableDeclarator (front.displacement.move specs) (front.displacement.move declarator)
        (front.displacement.move name) (front.displacement.move span)) := by
  have rest : Mirrors front start start
      (do
        let hasInitializer ← initializer declarator
        let scope ← qualifierScope name
        let declarationOnly ← isDeclarationOnly specs name hasInitializer
        let symbol ← declare
          { name := name.name
            kind := .var
            defined := !declarationOnly
            specialization := name.hasArguments } scope name.span
        let node ← addNode
          (.var ⟨name.name, name.qualifier.map Qualifier.text, specs.typeRef declarator,
            specs.specifiers, symbol, hasInitializer⟩) span
        return ⟨some node, false⟩ : ParseM InitDeclarator)
      (do
        let hasInitializer ← initializer (front.displacement.move declarator)
        let scope ← qualifierScope (front.displacement.move name)
        let declarationOnly ← isDeclarationOnly (front.displacement.move specs)
          (front.displacement.move name) hasInitializer
        let symbol ← declare
          { name := name.name
            kind := .var
            defined := !declarationOnly
            specialization := name.hasArguments } scope (front.displacement.move name.span)
        let node ← addNode
          (.var ⟨name.name, name.qualifier.map Qualifier.text,
            (front.displacement.move specs).typeRef (front.displacement.move declarator),
            specs.specifiers, symbol, hasInitializer⟩) (front.displacement.move span)
        return ⟨some node, false⟩) := by
    rw [typeRef_move]
    exact (mirrors_initializer declarator).bind fun hasInitializer =>
      (mirrors_qualifierScope name).bind fun scope =>
        (mirrors_isDeclarationOnly specs name hasInitializer).bind fun _ =>
          (mirrors_declare _ scope name.span).bind fun symbol =>
            (mirrors_addNode (.var ⟨_, _, _, _, symbol, hasInitializer⟩) span).bind fun _ =>
              .pure rfl
  exact (mirrors_eat _).bind fun _ =>
    .ite (fun _ => (mirrors_skipExpression _).bind fun _ => rest) fun _ => rest

theorem mirrors_dataDeclarator (specs : DeclSpecs) (declarator : Declarator)
    (name : DeclaratorId) (span : Span) :
    Mirrors front start start (dataDeclarator specs declarator name span)
      (dataDeclarator (front.displacement.move specs) (front.displacement.move declarator)
        (front.displacement.move name) (front.displacement.move span)) :=
  .ite (fun _ => .refuse _ name.span) fun _ =>
    .ite (fun _ => mirrors_typedefDeclarator specs declarator name span) fun _ =>
      mirrors_variableDeclarator specs declarator name span

theorem mirrors_initDeclarator (mirror : rules.Mirror front mirrored) (specs : DeclSpecs)
    (span : Span) :
    Mirrors front start stop (initDeclarator rules specs span)
      (initDeclarator mirrored (front.displacement.move specs)
        (front.displacement.move span)) := by
  refine (mirrors_namedDeclarator mirror).behind fun declarator => ?_
  obtain ⟨name, tokens, parameters, isPack, isDirectInit⟩ := declarator
  cases name with
  | none => exact mirrors_refuseName
  | some name =>
      cases parameters with
      | none => exact mirrors_dataDeclarator specs _ name span
      | some parameters =>
          exact .ite (fun _ => mirrors_dataDeclarator specs _ name span) fun _ =>
            mirrors_functionRest mirror specs _ name parameters span

theorem mirrors_finishDeclarator (declared : InitDeclarator) :
    Mirrors front true true (finishDeclarator declared)
      (finishDeclarator (front.displacement.move declared)) := by
  obtain ⟨node, hasBody⟩ := declared
  cases node with
  | none => exact .pure rfl
  | some node => exact mirrors_finishNode node

theorem mirrors_declaratorItem (mirror : rules.Mirror front mirrored) (specs : DeclSpecs)
    (span : Span) :
    MirrorsAs front start stop (Step.map front.displacement.move id)
      (declaratorItem rules specs span)
      (declaratorItem mirrored (front.displacement.move specs)
        (front.displacement.move span)) :=
  (mirrors_initDeclarator mirror specs span).behind fun declared =>
    .ite (fun _ => .pure rfl) fun _ => (mirrors_check _).bind fun _ =>
      .ite (fun _ => (mirrors_finishDeclarator declared).bind fun _ =>
        (mirrors_skip 1).bind fun _ =>
        mirrors_peek.bind fun _ => .pure rfl) fun _ =>
          (mirrors_expect _).attempt.bind fun terminated =>
            (mirrors_finishDeclarator declared).bind fun _ =>
              (MirrorsAs.resume terminated).bind fun _ => .pure rfl

theorem mirrors_simpleDeclaration (mirror : rules.Mirror front mirrored) (span : Span) :
    Mirrors front start start (simpleDeclaration rules span)
      (simpleDeclaration mirrored (front.displacement.move span)) := by
  refine (mirrors_specifiers mirror _).bind fun specs => .ite (fun _ => mirrors_synchronize)
    fun _ => (mirrors_eat _).bind fun _ => .ite (fun _ => ?_) fun _ =>
      .iterate (mirrors_declaratorItem mirror specs) span
  obtain ⟨tokens, specifiers, isTypedef, hasType, typeSymbol, forward⟩ := specs
  cases forward with
  | none => exact .pure rfl
  | some forward => exact mirrors_declareForward forward

end ParseM

end DeclTree
