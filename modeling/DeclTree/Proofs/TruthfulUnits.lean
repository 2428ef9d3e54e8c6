import DeclTree.Proofs.TruthfulDeclarations

/-!
# Units made of their tokens

Functions, templates and namespaces pass on spans and texts as the other rules do.  With them the
whole grammar takes all that it reports and keeps from the tokens of its source, however deep its
rules are nested, and so does whatever a parse is asked to read, however it ends.
-/

namespace DeclTree

namespace ParseM

variable {origin : Origin} {rules : Rules}

/-! ## Functions -/

theorem truthful_qualifierScope {id : DeclaratorId} (place : origin.span id.span) :
    Truthful origin (qualifierScope id) := by
  unfold qualifierScope
  split
  · simp
  · rename_i qualifier _
    have named := truthful_resolveScope qualifier.segments qualifier.isGlobal place
    simp [named]

theorem tells_trailingType (truthful : rules.Truthful origin) :
    Tells origin (trailingType rules) fun type => origin.text type.text :=
  .behind (truthful_skip 1) fun _ => (truthful.specifiers .typeOnly).bind fun _ known =>
    (truthful.declarator .abstract).bind fun _ declared => .pure (known.typeRef declared)

/-- Whether the return type behind a parameter list is spelled from tokens that are read. -/
def TailSpelled (origin : Origin) (tail : FunctionTail) : Prop :=
  origin.Types tail.trailingType.toList

theorem tells_functionWord {tail : FunctionTail} (known : TailSpelled origin tail)
    (token : Token) :
    Tells origin (functionWord tail token)
      (Step.Holds (TailSpelled origin) (TailSpelled origin)) := by
  refine .ite ?_ (.ite ?_ (.ite ?_ (.ite ?_ (.pure known))))
  · exact .behind (truthful_skip 1) fun _ => .pure known
  · exact .behind (truthful_skip 1) fun _ => .pure known
  · exact .behind (truthful_skip 1) fun _ =>
      .behind (truthful_skipExpression _) fun _ => .pure known
  · exact .behind truthful_skipAttributes fun _ => .pure known

theorem tells_functionItem (truthful : rules.Truthful origin) {tail : FunctionTail}
    (known : TailSpelled origin tail) :
    Tells origin (functionItem rules tail)
      (Step.Holds (TailSpelled origin) (TailSpelled origin)) := by
  have further : Tells origin (do skip 1; return Step.again tail)
      (Step.Holds (TailSpelled origin) (TailSpelled origin)) :=
    .behind (truthful_skip 1) fun _ => .pure known
  have condition : Tells origin (do skip 1; skipGroupIf .leftParen; return Step.again tail)
      (Step.Holds (TailSpelled origin) (TailSpelled origin)) :=
    .behind (truthful_skip 1) fun _ => .behind (truthful_skipGroupIf _) fun _ => .pure known
  refine .behind truthful_peek fun token => ?_
  split
  · exact further
  · exact further
  · exact condition
  · exact condition
  · exact .ite further (.pure known)
  · exact tells_functionWord known token
  · exact (tells_trailingType truthful).bind fun _ spelled =>
      .pure (List.forall_mem_singleton.2 spelled)
  · exact .behind (truthful_checkAhead _ _) fun _ =>
      .ite (.behind truthful_skipAttributes fun _ => .pure known) (.pure known)
  · exact .pure known

@[simp] theorem truthful_functionMark : Truthful origin functionMark := by
  refine .behind (truthful_check _) fun _ => .ite ((tells_ahead 1).bind fun value place => ?_)
    (.pure _)
  have refused : Truthful origin (refuse (.badFunctionValue value.kind) value.span :
      ParseM (Option (Specifier × Bool))) := Tells.refuse (origin.place place)
  split <;> simp [refused]

@[simp] theorem truthful_bodyAhead : Truthful origin bodyAhead := by
  refine .behind truthful_peek fun token => ?_
  split <;> simp

@[simp] theorem truthful_skipBraces : Truthful origin skipBraces := by
  simp [skipBraces]

@[simp] theorem truthful_initializerSegment : Truthful origin (initializerSegment ()) := by
  refine .behind truthful_expectIdentifier fun _ => .behind truthful_jumpClosedArguments fun _ => ?_
  simp

@[simp] theorem truthful_constructorInitializer : Truthful origin (constructorInitializer ()) := by
  have group : Truthful origin (do
      skipGroup
      let _ ← eat (.punct .ellipsis)
      if ← eat (.punct .comma) then return Step.again () else return Step.done () :
        ParseM (Step Unit Unit)) := by
    refine .behind truthful_skipGroup fun _ => .behind (truthful_eat _) fun _ => ?_
    simp
  refine .behind (truthful_eat _) fun _ =>
    .behind (.iterate (fun _ => truthful_initializerSegment) ()) fun _ =>
      .behind (truthful_check _) fun _ => .behind (truthful_check _) fun _ => .ite ?_ group
  exact .behind (truthful_expect _) fun _ => group

@[simp] theorem truthful_exceptionHandler : Truthful origin (exceptionHandler ()) := by
  refine .behind (truthful_eat _) fun _ => .ite (.behind (truthful_skipGroupIf _) fun _ => ?_)
    (.pure _)
  simp

@[simp] theorem truthful_skipBody : Truthful origin skipBody := by
  refine .behind (truthful_eat _) fun catches => .behind (truthful_eat _) fun _ => ?_
  have rest : Truthful origin (do
      skipBraces
      if catches then iterate exceptionHandler ()) :=
    .behind truthful_skipBraces fun _ =>
      .ite (.iterate (fun _ => truthful_exceptionHandler) ()) (.pure ())
  exact .ite (.behind (.iterate (fun _ => truthful_constructorInitializer) ()) fun _ => rest) rest

theorem truthful_parameterSymbol (function : SymbolId) {parameter : ParsedParameter}
    (known : parameter.From origin) :
    Truthful origin (parameterSymbol function parameter) := by
  unfold parameterSymbol
  split
  · simp
  · refine .behind truthful_unit fun unit =>
      Tells.bind (truthful_changeTable known.start _).attempt fun declared caught => ?_
    cases declared with
    | ok symbol => simp
    | error error => exact .behind (truthful_report caught) fun _ => .pure trivial

theorem truthful_addParameters (node : NodeId) (function : SymbolId)
    {parameters : List ParsedParameter} (placed : Placed origin parameters) :
    Truthful origin (addParameters node function parameters) := by
  induction parameters with
  | nil => exact .pure ()
  | cons parameter rest ih =>
      obtain ⟨known, others⟩ := List.forall_mem_cons.1 placed
      have added : Truthful origin (addParameter node function parameter) :=
        .behind (truthful_parameterSymbol function known) fun symbol =>
          .behind (truthful_addNodeUnder _ (by exact known.texts) _) fun _ =>
            truthful_finishNodeAt _ _
      exact .behind added fun _ => ih others

@[simp] theorem truthful_functionBody (node : NodeId) : Truthful origin (functionBody node) :=
  Tells.bind truthful_skipBody.attempt fun _ caught =>
    .behind (truthful_finishNode node) fun _ => .behind (Tells.resume caught) fun _ =>
      .pure trivial

theorem truthful_functionRest (truthful : rules.Truthful origin) {specs : DeclSpecs}
    {declarator : Declarator} {id : DeclaratorId} {parameters : List ParsedParameter}
    (start : Span) (known : specs.From origin) (declared : declarator.From origin)
    (named : id.From origin) (placed : Placed origin parameters) :
    Truthful origin (functionRest rules specs declarator id parameters start) := by
  refine Tells.bind (.iterate (TailSpelled origin) Origin.types_nil
    fun _ known => tells_functionItem truthful known) fun tail trailing => ?_
  refine .behind truthful_functionMark fun given => .behind truthful_bodyAhead fun hasBody =>
    .behind (truthful_qualifierScope named.span) fun scope =>
      .behind (truthful_declare _ scope named.span) fun symbol =>
        .behind (truthful_addNode ?_ _) fun node =>
          .behind (truthful_addParameters node symbol placed) fun _ => ?_
  · refine named.texts ?_
    split
    · rename_i type given
      rwa [TailSpelled, given] at trailing
    · split
      · exact List.forall_mem_singleton.2 (known.typeRef declared)
      · exact Origin.types_nil
  · simp

/-! ## Simple declarations -/

theorem truthful_declareForward {forward : ForwardTag}
    (known : forward.path.From origin) : Truthful origin (declareForward forward) :=
  .behind (truthful_pathScope known) fun scope =>
    .behind (truthful_declare _ scope known.span) fun _ => .pure ()

theorem truthful_typedefDeclarator {specs : DeclSpecs} {declarator : Declarator}
    {id : DeclaratorId} (start : Span) (known : specs.From origin)
    (declared : declarator.From origin) (named : id.From origin) :
    Truthful origin (typedefDeclarator specs declarator id start) :=
  .behind (truthful_declare _ none named.span) fun symbol =>
    .behind (truthful_addNode (by exact known.texts declared named.name) _) fun _ => .pure _

@[simp] theorem truthful_initializer (declarator : Declarator) :
    Truthful origin (initializer declarator) := by
  refine .ite (.pure _) (.behind (truthful_eat _) fun _ => .ite (by simp) ?_)
  simp

@[simp] theorem truthful_isDeclarationOnly (specs : DeclSpecs) (id : DeclaratorId)
    (hasInitializer : Bool) : Truthful origin (isDeclarationOnly specs id hasInitializer) := by
  simp [isDeclarationOnly]

theorem truthful_variableDeclarator {specs : DeclSpecs} {declarator : Declarator}
    {id : DeclaratorId} (start : Span) (known : specs.From origin)
    (declared : declarator.From origin) (named : id.From origin) :
    Truthful origin (variableDeclarator specs declarator id start) := by
  refine .behind (truthful_eat _) fun bitField => ?_
  have rest : Truthful origin (do
      let hasInitializer ← initializer declarator
      let scope ← qualifierScope id
      let declarationOnly ← isDeclarationOnly specs id hasInitializer
      let symbol ← declare
        { name := id.name
          kind := .var
          defined := !declarationOnly
          specialization := id.hasArguments } scope id.span
      let node ← addNode
        (.var ⟨id.name, id.qualifier.map Qualifier.text, specs.typeRef declarator,
          specs.specifiers, symbol, hasInitializer⟩) start
      return ⟨some node, false⟩ : ParseM InitDeclarator) := by
    have texts := named.texts (List.forall_mem_singleton.2 (known.typeRef declared))
    exact .behind (truthful_initializer _) fun hasInitializer =>
      .behind (truthful_qualifierScope named.span) fun scope =>
        .behind (truthful_isDeclarationOnly _ _ _) fun declarationOnly =>
          .behind (truthful_declare _ scope named.span) fun symbol =>
            .behind (truthful_addNode (by exact texts) _) fun _ => .pure _
  exact .ite (.behind (truthful_skipExpression _) fun _ => rest) rest

theorem truthful_dataDeclarator {specs : DeclSpecs} {declarator : Declarator}
    {id : DeclaratorId} (start : Span) (known : specs.From origin)
    (declared : declarator.From origin) (named : id.From origin) :
    Truthful origin (dataDeclarator specs declarator id start) :=
  .ite (Tells.refuse named.span) (.ite (truthful_typedefDeclarator start known declared named)
    (truthful_variableDeclarator start known declared named))

theorem truthful_initDeclarator (truthful : rules.Truthful origin) {specs : DeclSpecs}
    (start : Span) (known : specs.From origin) :
    Truthful origin (initDeclarator rules specs start) := by
  refine Tells.bind (tells_declarator truthful .named) fun declarator declared => ?_
  split
  · exact tells_refuseName
  · rename_i id given
    have named := declared.id id given
    have data := truthful_dataDeclarator start known declared named
    split
    · rename_i parameters listed
      exact .ite data (truthful_functionRest truthful start known declared named
        (declared.parameters parameters listed))
    · exact data

@[simp] theorem truthful_finishDeclarator (declared : InitDeclarator) :
    Truthful origin (finishDeclarator declared) := by
  unfold finishDeclarator
  split <;> simp

theorem truthful_declaratorItem (truthful : rules.Truthful origin) {specs : DeclSpecs}
    (known : specs.From origin) (start : Span) :
    Truthful origin (declaratorItem rules specs start) := by
  refine .behind (truthful_initDeclarator truthful start known) fun declared =>
    .ite (.pure _) (.behind (truthful_check _) fun _ => .ite ?_ ?_)
  · exact .behind (truthful_finishDeclarator declared) fun _ => by simp
  · exact Tells.bind (tells_expect _).attempt fun terminated caught =>
      .behind (truthful_finishDeclarator declared) fun _ =>
        .behind (Tells.resume caught).truthful fun _ => .pure trivial

theorem truthful_simpleDeclaration (truthful : rules.Truthful origin) (start : Span) :
    Truthful origin (simpleDeclaration rules start) := by
  refine Tells.bind (tells_specifiers truthful .declaration) fun specs known =>
    .ite truthful_synchronize (.behind (truthful_eat _) fun _ => .ite ?_ ?_)
  · split
    · rename_i forward only
      exact truthful_declareForward (known.forward forward only)
    · simp
  · exact Truthful.iterate (truthful_declaratorItem truthful known) start

/-! ## Templates -/

theorem tells_parameterName :
    Tells origin parameterName fun found => ∀ name ∈ found.1, origin.text name := by
  refine .behind (truthful_eat _) fun isVariadic state here => .sees rfl ?_
  refine (tellsAt_eat here _).bind fun eaten identifier => ?_
  split
  · rename_i found
    refine .pure ?_
    rintro _ ⟨⟩
    exact origin.lexeme ⟨here.cursor.ahead 0, by simp [identifier found]⟩
  · exact .pure (by simp)

/-- Whether the name and the type of a template parameter are spelled from tokens that are read. -/
structure ParameterHead.From (origin : Origin) (head : ParameterHead) : Prop where
  name : ∀ name ∈ head.name, origin.text name
  type : origin.Types head.type.toList

theorem tells_typeParameter : Tells origin typeParameter (ParameterHead.From origin) :=
  .behind (truthful_skip 1) fun _ => tells_parameterName.bind fun ⟨_, _⟩ named =>
    .pure ⟨named, Origin.types_nil⟩

theorem tells_templateTemplateParameter :
    Tells origin templateTemplateParameter (ParameterHead.From origin) := by
  refine .behind (truthful_skip 1) fun _ => .behind truthful_skipTemplateArguments fun _ =>
    tells_peek.bind fun found known => .ite ?_ (.refuse (origin.place known))
  exact .behind (truthful_skip 1) fun _ => tells_parameterName.bind fun ⟨_, _⟩ named =>
    .pure ⟨named, Origin.types_nil⟩

theorem tells_valueParameter (truthful : rules.Truthful origin) {token : Token}
    (known : origin.token token) :
    Tells origin (valueParameter rules token) (ParameterHead.From origin) := by
  refine (tells_specifiers truthful .parameter).bind fun specs typed => ?_
  have rest : Tells origin (do
      let declarator ← declarator rules .parameter
      return ⟨.nonType, declarator.id.map DeclaratorId.name, some (specs.typeRef declarator),
        declarator.isPack⟩) (ParameterHead.From origin) :=
    (tells_declarator truthful .parameter).bind fun declarator declared =>
      .pure ⟨declared.name, List.forall_mem_singleton.2 (typed.typeRef declared)⟩
  exact .ite (.behind (Tells.refuse (origin.place known)) fun _ => rest) rest

@[simp] theorem truthful_dependentTypeAhead : Truthful origin dependentTypeAhead :=
  .looks fun _ => ⟨_, rfl⟩

theorem tells_parameterHead (truthful : rules.Truthful origin) :
    Tells origin (parameterHead rules) (ParameterHead.From origin) := by
  refine tells_peek.bind fun token known => ?_
  have value := tells_valueParameter truthful known
  split
  · exact .behind truthful_dependentTypeAhead fun _ => .ite value tells_typeParameter
  · exact .behind truthful_dependentTypeAhead fun _ => .ite value tells_typeParameter
  · exact tells_templateTemplateParameter
  · exact value

theorem truthful_templateParameter (truthful : rules.Truthful origin) (node : NodeId)
    (template : SymbolId) : Truthful origin (templateParameter rules node template) := by
  refine tells_peek.bind fun token known => (tells_parameterHead truthful).bind fun head spelled =>
    .behind (truthful_eat _) fun hasDefault => ?_
  have texts : ∀ text ∈ head.name.toList ++ head.type.toList.map TypeRef.text,
      origin.text text :=
    List.forall_mem_append.2 ⟨by simpa using spelled.name, List.forall_mem_map.2 spelled.type⟩
  have added (parameter : NodeId) : Truthful origin (modify fun state : ParseState =>
      { state with
        tree := state.tree.updateTemplate node (TemplateDecl.addParameter · parameter) } :
          ParseM Unit) :=
    .changes fun _ known => ⟨known.cursor, known.errors, known.tree.updateTemplate node _⟩
  have entry : Truthful origin (do
      let unit ← unit
      let symbol ← changeTable token.span fun table =>
        table.addParameter template
          { name := head.name.getD "", kind := .templateParameter head.kind, unit := some unit }
      let parameter ← addNodeUnder node
        (.templateParameter ⟨head.name, head.kind, head.type, some symbol, hasDefault,
          head.isVariadic⟩) token.span
      finishNode parameter
      modify fun state =>
        { state with
          tree := state.tree.updateTemplate node (TemplateDecl.addParameter · parameter) }) :=
    .behind truthful_unit fun unit =>
      .behind (truthful_changeTable (origin.place known) _) fun symbol =>
        .behind (truthful_addNodeUnder _ (by exact texts) _) fun parameter =>
          .behind (truthful_finishNode _) fun _ => added parameter
  exact .ite (.behind truthful_skipParameterDefault fun _ => entry) entry

theorem truthful_templateParameters (truthful : rules.Truthful origin) (node : NodeId)
    (template : SymbolId) : Truthful origin (templateParameters rules node template) := by
  have item : Truthful origin (templateParameterItem rules node template ()) :=
    .behind (truthful_templateParameter truthful node template) fun _ => by simp
  refine .behind (truthful_expect _) fun _ => .behind (truthful_check _) fun _ =>
    .behind (truthful_check _) fun _ => .ite truthful_expectClosingAngle ?_
  exact .behind (.iterate (fun _ => item) ()) fun _ => truthful_expectClosingAngle

@[simp] theorem truthful_constraintOperand : Truthful origin (constraintOperand ()) := by
  have operator : Truthful origin (do
      if ← eat (.punct .ampAmp) then return Step.again ()
      else if ← eat (.punct .pipePipe) then return Step.again ()
      else return Step.done () : ParseM (Step Unit Unit)) := by
    simp
  refine .behind truthful_peek fun token => .ite ?_ (.ite ?_ ?_)
  · exact .behind truthful_skipGroup fun _ => operator
  · exact .behind (truthful_skip 1) fun _ => operator
  · exact .behind truthful_namePath fun _ => operator

@[simp] theorem truthful_skipConstraint : Truthful origin skipConstraint := by
  refine .behind (truthful_checkWord _) fun _ => .ite (.behind (truthful_skip 1) fun _ => ?_)
    (.pure _)
  exact .iterate (fun _ => truthful_constraintOperand) ()

theorem truthful_templatedDeclaration (truthful : rules.Truthful origin) :
    Truthful origin (templatedDeclaration rules) := by
  refine .behind truthful_skipConstraint fun _ => tells_peek.bind fun token known => ?_
  refine .ite (.behind (truthful.templateDeclaration false (origin.place known)) fun _ =>
      .pure trivial)
    (.ite (.behind truthful_synchronize fun _ => .pure trivial) ?_)
  exact .behind truthful.declaration fun _ => .pure trivial

theorem truthful_prefixFactory {span : Span} (place : origin.span span) :
    Truthful origin (prefixFactory span) := by
  refine .behind truthful_frame fun frame => ?_
  split
  · simp
  · exact .behind (truthful_changeTable place _) fun factory => .pure _

theorem truthful_discardPending (factory : FactoryId) (template : SymbolId) {start : Span}
    (parsed : Except ParseError Bool) (place : origin.span start) :
    Truthful origin (discardPending factory template start parsed) := by
  refine .behind truthful_table fun table =>
    .ite (.behind (truthful_setTable _) fun _ => ?_) (.pure ())
  split
  · exact truthful_complain place
  · simp

@[simp] theorem truthful_bindOwned (node : NodeId) : Truthful origin (bindOwned node) := by
  refine tells_get.bind fun state known => ?_
  split
  · exact .pure trivial
  · split
    · exact .pure trivial
    · split
      · exact truthful_set ⟨known.cursor, known.errors, known.tree.updateTemplate node _⟩
      · exact truthful_complain known.cursor.previousSpan

theorem truthful_openedTemplate (truthful : rules.Truthful origin) {start : Span}
    (exported : Bool) (place : origin.span start) :
    Truthful origin (openedTemplate rules start exported) := by
  refine .behind (truthful_checkNesting place) fun _ =>
    .behind (truthful_prefixFactory place) fun ⟨factory, container⟩ =>
      .behind truthful_unit fun unit => .behind (truthful_changeTable place _) fun template =>
        .behind truthful_frame fun frame => .behind (truthful_addPlainNode rfl _) fun node =>
          .behind (truthful_pushScope _) fun _ => ?_
  have content : Truthful origin (templateContent rules node template) :=
    .behind (truthful_templateParameters truthful node template) fun _ =>
      truthful_templatedDeclaration truthful
  exact Tells.bind content.attempt fun parsed caught => .behind truthful_popScope fun _ =>
    .behind (truthful_discardPending factory template parsed place) fun _ =>
      .behind (truthful_bindOwned node) fun _ => .behind (truthful_finishNode node) fun _ =>
        .behind (Tells.resume caught) fun _ => .pure trivial

theorem truthful_templateDeclaration (truthful : rules.Truthful origin) {start : Span}
    (exported : Bool) (place : origin.span start) :
    Truthful origin (templateDeclaration rules start exported) := by
  have opened := truthful_openedTemplate truthful exported place
  simp [templateDeclaration, opened]

/-! ## Namespaces -/

theorem truthful_openNamespace {start : Span} (name : String) (isInline : Bool)
    (place : origin.span start) : Truthful origin (openNamespace start name isInline) := by
  refine .behind (truthful_checkNesting place) fun _ => .behind truthful_lookupScope fun parent =>
    .behind truthful_unit fun unit => .behind (truthful_changeTable place _) fun symbol => ?_
  have entered : Truthful origin (do
      let node ← addNode (.namespaceScope ⟨name, isInline, symbol⟩) start
      pushScope ⟨node, symbol, .container, .namespaceScope⟩
      return node) :=
    .behind (truthful_addPlainNode rfl _) fun node => by simp
  exact .ite (.behind truthful_table fun table => .behind (truthful_setTable _) fun _ => entered)
    entered

@[simp] theorem truthful_closeNamespaces (nodes : List NodeId) :
    Truthful origin (closeNamespaces nodes) := by
  induction nodes with
  | nil => exact .pure ()
  | cons node outer ih => simp [closeNamespaces, ih]

theorem truthful_openNamespaces {start : Span} (place : origin.span start)
    (entered : List NodeId) (segments : List (String × Bool)) :
    Truthful origin (openNamespaces start entered segments) := by
  induction segments generalizing entered with
  | nil => exact .pure entered
  | cons segment rest ih =>
      obtain ⟨name, isInline⟩ := segment
      refine Tells.bind (truthful_openNamespace name isInline place).attempt
        fun outcome caught => ?_
      cases outcome with
      | ok node => exact ih (node :: entered)
      | error error =>
          exact .behind (truthful_closeNamespaces entered) fun _ => Tells.resume caught

@[simp] theorem truthful_namespaceSegments (isInline : Bool) :
    Truthful origin (namespaceSegments isInline) := by
  have segment (segments : List (String × Bool)) : Truthful origin (namespaceSegment segments) := by
    refine .behind (truthful_eat _) fun _ => .ite (.behind (truthful_eat _) fun _ => ?_) (.pure _)
    simp
  exact .behind truthful_peek fun token => .behind (truthful_eat _) fun _ =>
    .ite (.iterate segment _) (.pure _)

theorem truthful_namespaceBody (truthful : rules.Truthful origin) {start : Span}
    (isInline : Bool) (place : origin.span start) :
    Truthful origin (namespaceBody rules start isInline) := by
  have rest (segments : List (String × Bool)) : Truthful origin (do
      let nodes ← openNamespaces start [] segments
      let _ ← expect (.punct .leftBrace)
      rules.declarations true
      let _ ← eat (.punct .rightBrace)
      closeNamespaces nodes) :=
    .behind (truthful_openNamespaces place [] segments) fun nodes =>
      .behind (truthful_expect _) fun _ => .behind (truthful.declarations true) fun _ => by simp
  refine .behind (truthful_namespaceSegments _) fun segments =>
    .behind truthful_skipAttributes fun _ => .behind (truthful_check _) fun _ => .ite ?_ (rest _)
  exact .behind (truthful_expect _) fun _ => rest segments

theorem truthful_namespaceDeclaration (truthful : rules.Truthful origin) {start : Span}
    (isInline : Bool) (place : origin.span start) :
    Truthful origin (namespaceDeclaration rules start isInline) := by
  refine .behind (truthful_expect _) fun _ => .behind truthful_skipAttributes fun _ =>
    .behind (truthful_check _) fun _ => .behind (truthful_checkAhead _ _) fun _ => ?_
  exact .ite truthful_synchronize (truthful_namespaceBody truthful isInline place)

theorem truthful_linkageDeclaration (truthful : rules.Truthful origin) {start : Span}
    (place : origin.span start) : Truthful origin (linkageDeclaration rules start) := by
  have content : Truthful origin (linkageContent rules) :=
    .behind (truthful_eat _) fun _ =>
      .ite (.behind (truthful.declarations true) fun _ => by simp) truthful.declaration
  refine .behind (truthful_expect _) fun _ => .behind (truthful_expect _) fun literal =>
    .behind (truthful_checkNesting place) fun _ => .behind truthful_lookupScope fun symbol =>
      .behind (truthful_addPlainNode rfl _) fun node => .behind (truthful_pushScope _) fun _ => ?_
  exact Tells.bind content.attempt fun result caught => .behind truthful_popScope fun _ =>
    .behind (truthful_finishNode node) fun _ => Tells.resume caught

/-! ## Declarations -/

@[simp] theorem truthful_resolveNamespace? (path : NamePath) :
    Truthful origin (resolveNamespace? path) := by
  refine .behind (truthful_resolve? path) fun found => ?_
  split
  · simp
  · refine .behind truthful_table fun table => ?_
    split
    · simp
    · simp

@[simp] theorem truthful_usingDirective (start : Span) :
    Truthful origin (usingDirective start) := by
  refine tells_namePath.bind fun path known =>
    Tells.bind (tells_expect _).attempt fun terminated caught =>
      .behind truthful_lookupScope fun scope =>
        .behind (truthful_resolveNamespace? path) fun target => ?_
  have node : Truthful origin (do
      let node ← addNode (.usingDirective ⟨path.text, target⟩) start
      finishNode node
      let _ ← resume terminated) :=
    .behind (truthful_addNode (by exact List.forall_mem_singleton.2 known.text) _) fun node =>
      .behind (truthful_finishNode node) fun _ =>
        .behind (Tells.resume caught).truthful fun _ => .pure ()
  split
  · exact .behind truthful_table fun table => .behind (truthful_setTable _) fun _ => node
  · exact node

theorem truthful_aliasDeclaration (truthful : rules.Truthful origin) (start : Span) :
    Truthful origin (aliasDeclaration rules start) := by
  refine tells_expectIdentifier.bind fun name found => .behind truthful_skipAttributes fun _ =>
    .behind (truthful_expect _) fun _ =>
      (tells_specifiers truthful .typeOnly).bind fun specs known => ?_
  have named : origin.text name.lexeme := origin.lexeme ⟨found.1, by simp [found.2]⟩
  have rest : Truthful origin (do
      let declarator ← declarator rules .abstract
      let symbol ← declare { name := name.lexeme, kind := .typedef } none name.span
      let node ← addNode (.typedef ⟨name.lexeme, specs.typeRef declarator, symbol⟩) start
      let terminated ← attempt (expect (.punct .semicolon))
      finishNode node
      let _ ← resume terminated) :=
    (tells_declarator truthful .abstract).bind fun declarator declared =>
      .behind (truthful_declare _ none (origin.place found.1)) fun symbol =>
        .behind (truthful_addNode (by exact known.texts declared named) _) fun node =>
          Tells.bind (tells_expect _).attempt fun terminated caught =>
            .behind (truthful_finishNode node) fun _ =>
              .behind (Tells.resume caught).truthful fun _ => .pure trivial
  exact .ite (tells_peek.bind fun _ there =>
    .behind (Tells.refuse (origin.place there)) fun _ => rest) rest

@[simp] theorem truthful_aliasAhead : Truthful origin aliasAhead :=
  .looks fun _ => ⟨_, rfl⟩

theorem truthful_usingDeclaration (truthful : rules.Truthful origin) (start : Span) :
    Truthful origin (usingDeclaration rules start) := by
  refine .behind (truthful_expect _) fun _ => .behind (truthful_eat _) fun _ =>
    .ite (truthful_usingDirective start) (.behind truthful_aliasAhead fun _ => ?_)
  exact .ite (truthful_aliasDeclaration truthful start) truthful_synchronize

theorem truthful_exportedDeclarations (truthful : rules.Truthful origin) :
    Truthful origin (exportedDeclarations rules) := by
  refine .behind (truthful_skip 1) fun _ => .behind (truthful_eat _) fun _ =>
    .ite (.behind (truthful.declarations true) fun _ => ?_) truthful.declaration
  simp

theorem truthful_keywordDeclaration (truthful : rules.Truthful origin) {start : Span}
    (word : Keyword) (next : TokenKind) (place : origin.span start) :
    Truthful origin (keywordDeclaration rules start word next) := by
  have simple := truthful_simpleDeclaration truthful start
  unfold keywordDeclaration
  split
  · exact truthful_namespaceDeclaration truthful false place
  · exact .ite (.behind (truthful_skip 1) fun _ =>
      truthful_namespaceDeclaration truthful true place) simple
  · exact .ite (truthful_linkageDeclaration truthful place) (.ite truthful_synchronize simple)
  · exact .ite (.behind (truthful_skip 1) fun _ =>
      truthful_templateDeclaration truthful true place) (truthful_exportedDeclarations truthful)
  · exact truthful_templateDeclaration truthful false place
  · exact truthful_usingDeclaration truthful start
  · exact truthful_synchronize
  · exact truthful_synchronize
  · exact .ite (truthful_skip 2) simple
  · exact .ite (truthful_skip 2) simple
  · exact .ite (truthful_skip 2) simple
  · exact simple

theorem truthful_declaration (truthful : rules.Truthful origin) :
    Truthful origin (declaration rules) := by
  refine .behind truthful_skipAttributes fun _ => tells_peek.bind fun token known =>
    .behind (truthful_ahead 1) fun following => ?_
  have simple := truthful_simpleDeclaration truthful token.span
  split
  · simp
  · exact truthful_keywordDeclaration truthful _ _ (origin.place known)
  · exact .ite truthful_synchronize simple
  · exact simple

theorem truthful_declarationItem (truthful : rules.Truthful origin) (closing : Bool) :
    Truthful origin (declarationItem rules closing ()) := by
  refine tells_peek.bind fun token known => ?_
  have place := origin.place known
  split
  · exact .ite (.behind (truthful_complain place) fun _ => .pure trivial) (.pure trivial)
  · exact .ite (.pure trivial) (.behind (truthful_skip 1) fun _ =>
      .behind (truthful_complain place) fun _ => .pure trivial)
  · refine Tells.bind (truthful_declaration truthful).attempt fun outcome caught => ?_
    cases outcome with
    | ok value => exact .pure trivial
    | error error =>
        exact .behind (truthful_report caught) fun _ =>
          .behind truthful_synchronize fun _ => .pure trivial

theorem truthful_declarations (truthful : rules.Truthful origin) (closing : Bool) :
    Truthful origin (declarations rules closing) :=
  .iterate (fun _ => truthful_declarationItem truthful closing) ()

/-- Rules for any depth of nesting take all from the tokens. -/
theorem truthful_ofDepth (origin : Origin) (depth : Nat) :
    (Rules.ofDepth depth).Truthful origin := by
  induction depth with
  | zero => exact ⟨fun _ => .stuck, fun _ => .stuck, .stuck, fun _ _ => .stuck, fun _ => .stuck⟩
  | succ depth truthful =>
      exact ⟨tells_specifiers truthful, tells_declarator truthful, truthful_declaration truthful,
        fun exported place => truthful_templateDeclaration truthful exported place,
        truthful_declarations truthful⟩

theorem truthful_translationUnit (origin : Origin) : Truthful origin translationUnit :=
  tells_get.bind fun state _ =>
    (truthful_ofDepth origin (state.cursor.weight + 1)).declarations false

end ParseM

/-- Behind a parse, however it ends, all still comes from the tokens. -/
theorem ParseState.From.finish {origin : Origin} {state : ParseState} (known : state.From origin) :
    state.finish.From origin := by
  have told := ParseM.truthful_translationUnit origin state known
  unfold ParseM.TellsAt at told
  unfold ParseState.finish
  cases run : ParseM.translationUnit state with
  | ok value next =>
      rw [run] at told
      exact told.2
  | error stop next =>
      rw [run] at told
      exact told.2

end DeclTree
