import DeclTree.Proofs.Steering

/-!
# Declarations keep to the course

Every rule of the grammar takes one turn after the other and leaves every scope that it enters,
also where it is refused: what could be refused inside a scope is either taken up again before
the scope is left, or is a sequence of declarations, which is never refused.  Scopes are entered
behind a check that there is room, for a node that has just been started in the innermost one.
So whatever each stride keeps holds of a parsed unit, such as that its nodes stand where they may.
-/

namespace DeclTree

open ParseState (Fact)

/-- Whether rules keep to the course, whatever is known, and sequences of declarations are never
refused. -/
structure Rules.Steer (rules : Rules) : Prop where
  specifiers : ∀ mode : SpecifierMode, ParseM.Steers [] (rules.specifiers mode)
  declaration : ParseM.Steers [] rules.declaration
  templateDeclaration : ∀ start exported,
    ParseM.Steers [] (rules.templateDeclaration start exported)
  declarations : ∀ closing, ParseM.Steers [] (rules.declarations closing)
  unrefused : ∀ closing, ParseM.Unrefused (rules.declarations closing)

namespace ParseM

variable {rules : Rules} {known : List Fact}

/-! ## Classes and enums -/

theorem steers_classBody (steer : rules.Steer) {node : NodeId} {symbol : SymbolId}
    {declaration : ClassDecl} (room : .room ∈ known) (opens : .opens node symbol ∈ known)
    (declares : .declares node (.classType declaration) ∈ known)
    (present : .present symbol ∈ known) (name : String) :
    Steers known (classBody rules name symbol node) := by
  refine (Steers.reads (onlyReads_expect _)).attempt.bind fun opened => ?_
  cases opened with
  | error error => exact (steers_finishNode node).bind fun _ => .resume _
  | ok brace =>
      exact steers_scope [] room opens declares rfl present (List.nil_subset _) (by simp)
        (steer.declarations true).always (steer.unrefused true) fun _ =>
          .behind (onlyReads_eat _) fun _ => steers_finishNode node

theorem steers_classDefinition (steer : rules.Steer) (specs : DeclSpecs) (key : Token)
    (path : Option NamePath) (isFinal : Bool) :
    Steers known (classDefinition rules specs key path isFinal) := by
  refine .behind onlyReads_baseClause fun bases => steers_checkNesting ?_
  refine .behind (onlyReads_tagPlace _ _) fun place =>
    steers_declared rfl (by simp) _ _ fun symbol => ?_
  exact steers_addNode (fun _ host => host) ⟨rfl, rfl, rfl⟩ (by simp) (fun _ => rfl) fun node =>
    (steers_classBody steer (by simp) (by simp) List.mem_cons_self (by simp) _).bind
      fun _ => .pure _

theorem steers_classSpecifier (steer : rules.Steer) (specs : DeclSpecs) (allowBody : Bool) :
    Steers known (classSpecifier rules specs allowBody) := by
  refine .behind onlyReads_advance fun key => .behind onlyReads_skipAttributes fun _ =>
    .behind onlyReads_tagPath? fun path => .behind (onlyReads_checkWord _) fun isFinal => ?_
  have rest (specs : DeclSpecs) : Steers known (do
      if allowBody && ((← check (.punct .leftBrace)) || (← check (.punct .colon))) then
        classDefinition rules specs key path isFinal
      else
        forwardTag specs path (.classTag (classKeyOf key.kind))) :=
    .behind (onlyReads_check _) fun _ => .behind (onlyReads_check _) fun _ =>
      .ite (steers_classDefinition steer _ key path isFinal) (.reads (onlyReads_forwardTag _ _ _))
  split
  · exact .behind (onlyReads_skip 1) fun _ => rest _
  · exact rest _

theorem steers_enumerator {parent : NodeId} {declaration : EnumDecl}
    (near : .near parent ∈ known) (declares : .declares parent (.enumType declaration) ∈ known)
    (scope : SymbolId) : Steers known (enumerator parent scope) := by
  refine .behind onlyReads_expectIdentifier fun name => .behind onlyReads_skipAttributes fun _ =>
    .behind (onlyReads_eat _) fun hasValue => ?_
  have rest : Steers known (do
      let unit ← unit
      let symbol ← changeTable name.span fun table =>
        table.declare scope { name := name.lexeme, kind := .enumerator, unit := some unit }
      let node ← addNodeUnder parent (.enumerator ⟨name.lexeme, symbol, hasValue⟩) name.span
      finishNode node) :=
    .behind onlyReads_unit fun unit =>
      (steers_declareIn rfl (by simp) scope _).bind fun symbol =>
        steers_addNodeUnder near declares rfl ⟨rfl, rfl, rfl⟩ (by simp) fun node =>
          steers_finishNode node
  split
  · exact .behind (onlyReads_skipExpression _) fun _ => rest
  · exact rest

theorem steers_enumeratorItem {parent : NodeId} {declaration : EnumDecl}
    (near : .near parent ∈ known) (declares : .declares parent (.enumType declaration) ∈ known)
    (scope : SymbolId) (start : Unit) : Steers known (enumeratorItem parent scope start) := by
  refine .behind onlyReads_peek fun token => .ite (.pure _) ?_
  refine (steers_enumerator near declares scope).attempt.bind fun outcome => ?_
  have separated : Steers known (do
      if ← eat (.punct .comma) then return .again () else return .done () :
        ParseM (Step Unit Unit)) :=
    .behind (onlyReads_eat _) fun _ => .ite (.pure _) (.pure _)
  cases outcome with
  | ok value => exact separated
  | error error =>
      exact (steers_report error).bind fun _ => .behind onlyReads_unread fun tokens =>
        .behind (onlyReads_pass _) fun _ => separated

theorem steers_enumBody {node : NodeId} {declaration : EnumDecl} (near : .near node ∈ known)
    (declares : .declares node (.enumType declaration) ∈ known) (symbol : SymbolId) :
    Steers known (enumBody symbol node) := by
  have enumerators : Steers known (enumerators node symbol) :=
    (Steers.iterate (steers_enumeratorItem near declares symbol) ()).bind fun _ =>
      .behind (onlyReads_expect _) fun _ => .pure _
  refine (Steers.reads (onlyReads_expect _)).attempt.bind fun opened => ?_
  cases opened with
  | error error => exact (steers_finishNode node).bind fun _ => .resume _
  | ok brace =>
      exact enumerators.attempt.bind fun closed => (steers_finishNode node).bind fun _ =>
        .resume closed

theorem steers_enumDefinition (specs : DeclSpecs) (key : Token) (path : Option NamePath)
    (isScoped : Bool) (underlying : Option TypeRef) :
    Steers known (enumDefinition specs key path isScoped underlying) := by
  refine .behind (onlyReads_checkNesting _) fun _ => .behind (onlyReads_tagPlace _ _) fun place =>
    (steers_declare rfl (by simp) _ _).bind fun symbol => ?_
  exact steers_addNode (fun _ host => host) ⟨rfl, rfl, rfl⟩ (by simp) (fun _ => rfl) fun node =>
    (steers_enumBody (by simp) List.mem_cons_self _).bind fun _ => .pure _

theorem steers_enumSpecifier (steer : rules.Steer) (specs : DeclSpecs) (allowBody : Bool) :
    Steers known (enumSpecifier rules specs allowBody) := by
  have underlying : Steers known (underlyingType rules allowBody) := by
    refine .ite (.behind (onlyReads_eat _) fun _ => .ite ?_ (.pure _)) (.pure _)
    exact (steer.specifiers .typeOnly).always.bind fun _ => .pure _
  refine .behind onlyReads_advance fun key => .behind onlyReads_scopedWord fun words =>
    .behind onlyReads_skipAttributes fun _ => .behind onlyReads_tagPath? fun path =>
      underlying.bind fun base => .behind (onlyReads_check _) fun _ => ?_
  exact .ite (steers_enumDefinition _ key path _ base) (.reads (onlyReads_forwardTag _ _ _))

/-! ## Specifiers -/

theorem steers_keywordSpecifier (steer : rules.Steer) (mode : SpecifierMode) (specs : DeclSpecs)
    (word : Keyword) : Steers known (keywordSpecifier rules mode specs word) := by
  unfold keywordSpecifier
  split
  · exact .reads (by simp)
  · refine .ite (.reads (by simp)) (.ite (.reads (by simp)) ?_)
    split
    · exact .reads (by simp)
    · exact .reads (by simp)
    · exact .reads (by simp)
    · exact .ite (.pure _) ((steers_classSpecifier steer specs _).bind fun _ => .pure _)
    · exact .ite (.pure _) ((steers_classSpecifier steer specs _).bind fun _ => .pure _)
    · exact .ite (.pure _) ((steers_classSpecifier steer specs _).bind fun _ => .pure _)
    · exact .ite (.pure _) ((steers_enumSpecifier steer specs _).bind fun _ => .pure _)
    · exact .reads (by simp)
    · exact .pure _

theorem steers_specifiers (steer : rules.Steer) (mode : SpecifierMode) :
    Steers known (specifiers rules mode) := by
  refine .iterate (fun specs => .behind onlyReads_peek fun token => ?_) _
  split
  · exact steers_keywordSpecifier steer mode specs _
  all_goals exact .reads (by simp)

/-! ## Functions -/

theorem steers_parameterSymbol (function : SymbolId) (parameter : ParsedParameter) :
    Steers known (parameterSymbol function parameter) := by
  unfold parameterSymbol
  split
  · exact .pure _
  · refine .behind onlyReads_unit fun unit =>
      (steers_declareIn rfl (by simp) function _).attempt.bind fun declared => ?_
    split
    · exact .pure _
    · exact (steers_report _).bind fun _ => .pure _

theorem steers_addParameters {node : NodeId} {declaration : FunctionDecl}
    (near : .near node ∈ known) (declares : .declares node (.function declaration) ∈ known)
    (function : SymbolId) (parameters : List ParsedParameter) :
    Steers known (addParameters node function parameters) := by
  induction parameters with
  | nil => exact .pure _
  | cons parameter rest ih =>
      have added : Steers known (addParameter node function parameter) :=
        (steers_parameterSymbol function parameter).bind fun _ =>
          steers_addNodeUnder near declares rfl ⟨rfl, rfl, rfl⟩ (by simp) fun inner =>
            steers_finishNodeAt inner _
      exact added.bind fun _ => ih

theorem steers_functionRest (reads : rules.Reads) (specs : DeclSpecs) (declarator : Declarator)
    (id : DeclaratorId) (parameters : List ParsedParameter) (start : Span) :
    Steers known (functionRest rules specs declarator id parameters start) := by
  refine .behind (.iterate (onlyReads_functionItem reads) _) fun tail =>
    .behind onlyReads_functionMark fun given => .behind onlyReads_bodyAhead fun hasBody =>
      .behind (onlyReads_qualifierScope id) fun scope =>
        (steers_declare rfl (by simp) _ _).bind fun symbol => ?_
  refine steers_addNode (fun _ host => host) ⟨rfl, rfl, rfl⟩ (by simp) (fun _ => rfl) fun node =>
    (steers_addParameters (by simp) List.mem_cons_self symbol parameters).bind fun _ =>
      .ite ?_ (.pure _)
  exact (Steers.reads onlyReads_skipBody).attempt.bind fun skipped =>
    (steers_finishNode node).bind fun _ => (Steers.resume skipped).bind fun _ => .pure _

/-! ## Simple declarations -/

theorem steers_declareForward (forward : ForwardTag) : Steers known (declareForward forward) := by
  refine .behind (onlyReads_pathScope _) fun _ => (steers_declare ?_ ?_ _ _).bind fun _ => .pure _
  all_goals cases forward.kind <;> simp [TagKind.symbolKind, SymbolKind.templateInfo?]

theorem steers_dataDeclarator (specs : DeclSpecs) (declarator : Declarator) (id : DeclaratorId)
    (start : Span) : Steers known (dataDeclarator specs declarator id start) := by
  have typedef : Steers known (typedefDeclarator specs declarator id start) :=
    (steers_declare rfl (by simp) _ _).bind fun _ =>
      steers_addNode (fun _ host => host) ⟨rfl, rfl, rfl⟩ (by simp) (fun _ => rfl) fun _ => .pure _
  have plain : Steers known (variableDeclarator specs declarator id start) := by
    have rest : Steers known (do
        let hasInitializer ← initializer declarator
        let scope ← qualifierScope id
        let declarationOnly ← isDeclarationOnly specs id hasInitializer
        let symbol ← declare
          { name := id.name
            kind := .var
            defined := !declarationOnly
            specialization := id.hasArguments } scope id.span
        let node ← addNode
          (.var ⟨id.name, id.qualifier.map Qualifier.text, specs.typeRef declarator,
            specs.specifiers, symbol, hasInitializer⟩) start
        return ⟨some node, false⟩ : ParseM InitDeclarator) :=
      .behind (onlyReads_initializer _) fun _ => .behind (onlyReads_qualifierScope id) fun _ =>
        .behind (onlyReads_isDeclarationOnly _ _ _) fun _ =>
          (steers_declare rfl (by simp) _ _).bind fun _ =>
            steers_addNode (fun _ host => host) ⟨rfl, rfl, rfl⟩ (by simp) (fun _ => rfl)
              fun _ => .pure _
    refine .behind (onlyReads_eat _) fun found => ?_
    split
    · exact .behind (onlyReads_skipExpression _) fun _ => rest
    · exact rest
  exact .ite (.refuse _ _) (.ite typedef plain)

theorem steers_initDeclarator (reads : rules.Reads) (specs : DeclSpecs) (start : Span) :
    Steers known (initDeclarator rules specs start) := by
  refine .behind (onlyReads_declarator reads _) fun declarator => ?_
  split
  · exact .reads onlyReads_refuseName
  · split
    · exact .ite (steers_dataDeclarator specs declarator _ start)
        (steers_functionRest reads specs declarator _ _ start)
    · exact steers_dataDeclarator specs declarator _ start

theorem steers_declaratorItem (reads : rules.Reads) (specs : DeclSpecs) (start : Span) :
    Steers known (declaratorItem rules specs start) := by
  have finish (declared : InitDeclarator) : Steers known (finishDeclarator declared) := by
    unfold finishDeclarator
    split
    · exact steers_finishNode _
    · exact .pure _
  refine (steers_initDeclarator reads specs start).bind fun declared => .ite (.pure _) ?_
  refine .behind (onlyReads_check _) fun more => .ite ?_ ?_
  · exact (finish declared).bind fun _ => .behind (onlyReads_skip 1) fun _ =>
      .behind onlyReads_peek fun _ => .pure _
  · exact (Steers.reads (onlyReads_expect _)).attempt.bind fun terminated =>
      (finish declared).bind fun _ => (Steers.resume terminated).bind fun _ => .pure _

theorem steers_simpleDeclaration (steer : rules.Steer) (reads : rules.Reads) (start : Span) :
    Steers known (simpleDeclaration rules start) := by
  refine (steers_specifiers steer .declaration).bind fun specs => .ite ?_ ?_
  · exact .reads onlyReads_synchronize
  · refine .behind (onlyReads_eat _) fun ended => .ite ?_ ?_
    · split
      · exact steers_declareForward _
      · exact .pure _
    · exact .iterate (steers_declaratorItem reads specs) start

/-! ## Templates -/

/-- A parameter is declared in its template and gets a node there, which is listed last. -/
theorem steers_listedParameter {node : NodeId} {template : SymbolId} (near : .near node ∈ known)
    (heads : .heads node template ∈ known) {request : SymbolRequest}
    (plain : request.kind.templateInfo? = none) (proper : request.kind ≠ .namespaceScope)
    {declaration : SymbolId → TemplateParameterDecl}
    (declares : ∀ symbol, (declaration symbol).symbol = some symbol) (start : Span) :
    Steers known (do
      let symbol ← changeTable start fun table => table.addParameter template request
      let parameter ← addNodeUnder node (.templateParameter (declaration symbol)) start
      finishNode parameter
      modify fun state => { state with
        tree := state.tree.updateTemplate node (TemplateDecl.addParameter · parameter) }) := by
  intro state steady grants
  obtain ⟨given, found, rfl⟩ := grants _ heads
  let operation := TableOperation.addParameter given.template request
  have declared : Leads (changeTable start fun table =>
      table.addParameter given.template request) state (fun symbol next => ∃ table,
        state.table.addParameter given.template request = .ok (symbol, table) ∧
          next = state.withTable table) state.Reaches := by
    unfold changeTable
    simp only [leads_table]
    split
    · rename_i symbol table done
      exact ⟨table, done, rfl⟩
    · exact .refl state
  apply declared.bind
  rintro symbol _ ⟨table, added, rfl⟩
  have present : (state.withTable table).tree.Has node := state.tree.has_of_kindAt found
  refine (leads_of_ok (addNodeUnder_eq present _ start)).2 ?_
  have stride := ParseState.Stride.addParameter start state.cursor.previousSpan (grants _ near)
    found plain proper added (declares symbol)
  exact stride.reaches rfl

theorem steers_templateParameter (reads : rules.Reads) {node : NodeId} {template : SymbolId}
    (near : .near node ∈ known) (heads : .heads node template ∈ known) :
    Steers known (templateParameter rules node template) := by
  refine .behind onlyReads_peek fun token => .behind (onlyReads_parameterHead reads) fun head =>
    .behind (onlyReads_eat _) fun hasDefault => ?_
  have rest : Steers known (do
      let unit ← unit
      let symbol ← changeTable token.span fun table =>
        table.addParameter template
          { name := head.name.getD "", kind := .templateParameter head.kind, unit := some unit }
      let parameter ← addNodeUnder node
        (.templateParameter ⟨head.name, head.kind, head.type, some symbol, hasDefault,
          head.isVariadic⟩) token.span
      finishNode parameter
      modify fun state =>
        { state with
          tree := state.tree.updateTemplate node (TemplateDecl.addParameter · parameter) }) := by
    refine .behind onlyReads_unit fun unit => ?_
    exact steers_listedParameter near heads rfl (by simp) (fun _ => rfl) token.span
  split
  · exact .behind onlyReads_skipParameterDefault fun _ => rest
  · exact rest

theorem steers_templateContent (steer : rules.Steer) (reads : rules.Reads) {node : NodeId}
    {template : SymbolId} (near : .near node ∈ known) (heads : .heads node template ∈ known) :
    Steers known (templateContent rules node template) := by
  have item (start : Unit) : Steers known (templateParameterItem rules node template start) :=
    (steers_templateParameter reads near heads).bind fun _ =>
      .behind (onlyReads_eat _) fun _ => .ite (.pure _) (.pure _)
  have parameters : Steers known (templateParameters rules node template) :=
    .behind (onlyReads_expect _) fun _ => .behind (onlyReads_check _) fun _ =>
      .behind (onlyReads_check _) fun _ => .ite (.reads onlyReads_expectClosingAngle)
        ((Steers.iterate item ()).bind fun _ => .reads onlyReads_expectClosingAngle)
  refine parameters.bind fun _ => .behind onlyReads_skipConstraint fun _ =>
    .behind onlyReads_peek fun token => .ite ?_ (.ite ?_ ?_)
  · exact (steer.templateDeclaration _ _).always.bind fun _ => .pure _
  · exact .behind onlyReads_synchronize fun _ => .pure _
  · exact steer.declaration.always.bind fun _ => .pure _

theorem steers_discardPending (factory : FactoryId) (template : SymbolId) (start : Span)
    (parsed : Except ParseError Bool) :
    Steers known (discardPending factory template start parsed) := by
  intro state steady grants
  unfold discardPending
  simp only [leads_table]
  split
  · let operation := TableOperation.discardFrames factory template
    have admitted : state.table.Admits operation := trivial
    have stride : state.Stride (state.withTable (state.table.perform operation)) :=
      .change admitted trivial trivial
    have reaches := stride.reaches rfl
    refine (leads_of_ok rfl).2 ?_
    split
    · exact (steers_complain _ _).leads steady grants reaches
    · exact reaches
  · exact .refl state

theorem steers_bindOwned (node : NodeId) : Steers known (bindOwned node) := by
  intro state steady grants
  unfold bindOwned
  simp only [leads_get]
  split
  · exact .refl state
  · split
    · exact .refl state
    · rename_i owned _ declaration known
      split
      · rename_i bound done
        have stride : state.Stride
            { state with tree := state.tree.updateTemplate node fun _ => bound } := by
          refine .amend fun other there => ?_
          obtain ⟨node, found, kind⟩ := Option.map_eq_some_iff.1 there
          have same : declaration = other := by
            simpa [found, kind, NodeKind.templateDecl?] using known.symm
          unfold TemplateDecl.bind at done
          split at done
          · rw [← Except.ok.inj done, same]
            exact ⟨rfl, rfl⟩
          · cases done
        exact stride.reaches rfl
      · exact steers_complain _ _ state steady grants

/-- A template is opened and gets its node, which becomes a scope. -/
theorem steers_templateNode {factory : FactoryId} {unit : Option UnitId} {start : Span}
    (declaration : SymbolId → NodeId → TemplateDecl)
    (declares : ∀ template scopeNode, (declaration template scopeNode).template = template ∧
      (declaration template scopeNode).parameters = [])
    {α : Type} {rest : SymbolId → NodeId → ParseM α}
    (following : ∀ template node scopeNode,
      Steers (.declares node (.template (declaration template scopeNode)) :: .near node ::
        .opens node template :: .present template :: .heads node template :: known)
          (rest template node)) :
    Steers known (do
      let template ← changeTable start fun table => table.openTemplate factory unit
      let around ← frame
      let node ← addNode (.template (declaration template around.node)) start
      rest template node) := by
  intro state steady grants
  have opens : Leads (changeTable start fun table => table.openTemplate factory unit) state
      (fun template next => ∃ table, state.table.openTemplate factory unit =
        .ok (template, table) ∧ next = state.withTable table) state.Reaches := by
    unfold changeTable
    simp only [leads_table]
    split
    · rename_i template table done
      exact ⟨table, done, rfl⟩
    · exact .refl state
  apply opens.bind
  rintro template _ ⟨table, opened, rfl⟩
  unfold addNode
  simp only [bind_assoc, leads_frame]
  obtain ⟨declared, bare⟩ := declares template state.scopes.inner.node
  let kind : NodeKind := .template (declaration template state.scopes.inner.node)
  let middle := state.withTable table
  have present : middle.tree.Has middle.scopes.inner.node := steady.host.has
  refine (leads_of_ok (addNodeUnder_eq present kind start)).2 ?_
  let next := (middle.addNode state.scopes.inner.node kind start).2
  have stride : state.Stride next := .openTemplate start steady.host opened declared bare
  have node : next.Grants [.declares ⟨state.tree.size⟩ kind, .near ⟨state.tree.size⟩,
      .opens ⟨state.tree.size⟩ template] :=
    grants_addNode (congrArg some declared : kind.scopeIn middle.scopes.inner.symbol = _) present
  have there : next.table.Has template :=
    middle.hasSymbol_addNode (SymbolTable.has_openTemplate opened) _ kind start
  have heads : next.Heads ⟨state.tree.size⟩ template :=
    ⟨_, state.tree.kindAt_add_new kind _ start, declared⟩
  have symbol : next.Grants [.present template, .heads ⟨state.tree.size⟩ template] :=
    ParseState.grants_cons.2 ⟨there, ParseState.grants_cons.2 ⟨heads, ParseState.grants_nil _⟩⟩
  exact (following template _ _).leads_knowing steady grants (stride.reaches rfl)
    (List.forall_mem_append.2 ⟨node, symbol⟩)

theorem steers_openedTemplate (steer : rules.Steer) (reads : rules.Reads) (start : Span)
    (exported : Bool) : Steers known (openedTemplate rules start exported) := by
  have factory {known : List Fact} : Steers known (prefixFactory start) := by
    refine .behind onlyReads_frame fun frame => ?_
    split
    · exact .pure _
    · have creates : Steers known (changeTable start fun table =>
          table.factoryFor frame.symbol) :=
        steers_changeTable (.factoryFor frame.symbol) (fun _ => trivial) trivial trivial
          fun _ => rfl
      exact creates.bind fun _ => .pure _
  refine steers_checkNesting (factory.bind fun ⟨factory, container⟩ =>
    .behind onlyReads_unit fun unit => ?_)
  refine steers_templateNode (.start · · factory exported) (fun _ _ => ⟨rfl, rfl⟩)
    fun template node _ => ?_
  refine steers_scope [.heads node template] (by simp) (by simp) List.mem_cons_self rfl (by simp)
    (by simp) (by simp [Fact.Lasting])
    (steers_templateContent steer reads (by simp) (by simp)).attempt (.attempt _) fun parsed => ?_
  exact (steers_discardPending factory template start parsed).bind fun _ =>
    (steers_bindOwned node).bind fun _ => (steers_finishNode node).bind fun _ =>
      (Steers.resume parsed).bind fun _ => .pure _

theorem steers_templateDeclaration (steer : rules.Steer) (reads : rules.Reads) (start : Span)
    (exported : Bool) : Steers known (templateDeclaration rules start exported) :=
  .behind (onlyReads_expect _) fun _ => .behind (onlyReads_check _) fun _ =>
    .ite (steers_openedTemplate steer reads start exported) (.reads onlyReads_synchronize)

end ParseM

/-! ## Namespaces one inside the other -/

namespace ParseState

variable {origin state next : ParseState}

/-- A state inside namespaces that were entered one in the other, innermost first. -/
inductive Inward (origin : ParseState) : List NodeId → ParseState → Prop
  | none {state : ParseState} (reaches : origin.Reaches state) : Inward origin [] state
  | enter {nodes : List NodeId} {middle state : ParseState} {node : NodeId} {symbol : SymbolId}
      (entered : Inward origin nodes middle) (present : middle.table.Has symbol)
      (host : middle.tree.Hosts node)
      (enters : middle.Turn (middle.enter ⟨node, symbol, .container, .namespaceScope⟩))
      (reaches : (middle.enter ⟨node, symbol, .container, .namespaceScope⟩).Reaches state) :
      Inward origin (node :: nodes) state

theorem Inward.behind {nodes : List NodeId} (entered : Inward origin nodes state)
    (reaches : state.Reaches next) : Inward origin nodes next := by
  cases entered with
  | none before => exact .none (before.trans reaches)
  | enter outer present host enters before =>
      exact .enter outer present host enters (before.trans reaches)

theorem Inward.steady {nodes : List NodeId} (entered : Inward origin nodes state)
    (steady : origin.Steady) : state.Steady := by
  induction entered with
  | none reaches => exact steady.reaches reaches
  | @enter _ middle _ node symbol _ present host _ reaches ih =>
      have inside : (middle.enter ⟨node, symbol, .container, .namespaceScope⟩).Steady :=
        ⟨ih.reached, present, host⟩
      exact inside.reaches reaches

theorem Inward.leave {nodes : List NodeId} {node : NodeId}
    (entered : Inward origin (node :: nodes) state) : Inward origin nodes state.leave := by
  cases entered with
  | enter outer _ _ enters reaches => exact outer.behind (reaches.leave enters)

end ParseState

namespace ParseM

open ParseState (Inward)

variable {rules : Rules} {known : List Fact}

/-- A namespace that gets its node in the innermost scope becomes the innermost one. -/
theorem leads_beginNamespace {origin before : ParseState} {nodes : List NodeId}
    (entered : Inward origin nodes before) (state : ParseState)
    (room : state.scopes.depth < state.depthLimit)
    {name : String} {symbol : SymbolId} {isInline : Bool} {start : Span}
    (there : state.table.Has symbol) (present : state.tree.Has state.scopes.inner.node)
    (begins : before.Reaches
      (state.addNode state.scopes.inner.node (.namespaceScope ⟨name, isInline, symbol⟩) start).2) :
    Leads (do
      let node ← addNode (.namespaceScope ⟨name, isInline, symbol⟩) start
      pushScope ⟨node, symbol, .container, .namespaceScope⟩
      return node) state
      (fun node next => Inward origin (node :: nodes) next ∧ next.cursor = state.cursor)
      (Inward origin nodes) := by
  let kind : NodeKind := .namespaceScope ⟨name, isInline, symbol⟩
  let added := state.addNode state.scopes.inner.node kind start
  unfold addNode
  simp only [bind_assoc, leads_frame]
  refine (leads_of_ok (addNodeUnder_eq present kind start)).2 ?_
  have gained : added.2.Grants [.declares added.1 kind, .near added.1, .opens added.1 symbol] :=
    grants_addNode rfl present
  have declares := gained (.declares added.1 kind) (by simp)
  have opens := gained (.opens added.1 symbol) (by simp)
  have enters : added.2.Turn (added.2.enter ⟨added.1, symbol, .container, .namespaceScope⟩) :=
    .enter room opens.1 opens.2
  exact ⟨.enter (entered.behind begins) (state.hasSymbol_addNode there _ kind start)
    (declares.hosts rfl) enters (.refl _), rfl⟩

/-- A namespace is opened in the innermost scope and becomes the innermost one. -/
theorem leads_openNamespace {origin state : ParseState} {nodes : List NodeId}
    (steady : origin.Steady) (entered : Inward origin nodes state) (start : Span)
    (name : String) (isInline : Bool) :
    Leads (openNamespace start name isInline) state
      (fun node next => Inward origin (node :: nodes) next ∧ next.cursor = state.cursor)
      (Inward origin nodes) := by
  have steadyHere := entered.steady steady
  unfold openNamespace checkNesting
  simp only [bind_assoc, leads_get]
  split
  · exact entered
  · rename_i full
    have room := Nat.lt_of_not_le full
    simp only [pure_bind, leads_lookupScope, leads_unit]
    have changes : Leads (changeTable start fun table =>
        table.openNamespace state.scopes.inner.symbol name (some state.tree.unit)) state _ _ :=
      leads_changeTable_stride (.openNamespace state.scopes.inner.symbol name
        (some state.tree.unit)) trivial trivial trivial rfl
    apply (changes.mono (fun _ _ reached => reached) fun _ reaches => entered.behind reaches).bind
    rintro symbol _ ⟨reaches, table, opens, rfl⟩
    have opened := steadyHere.reached.namespaceIn_opened opens
    have there := SymbolTable.has_of_openNamespace opens
    split
    · -- The using directive and the node belong to one stride.
      rename_i inlined
      simp only [leads_table]
      refine (leads_of_ok rfl).2 ?_
      obtain ⟨_, found, _⟩ := opened.addUsing state.scopes.inner.symbol symbol
      refine leads_beginNamespace entered (state.withTable (table.addUsing
        state.scopes.inner.symbol symbol)) room (SymbolTable.has_of_get? found)
          steadyHere.host.has ?_
      have stride : state.Stride ((state.withTable (table.addUsing state.scopes.inner.symbol
          symbol)).addNode state.scopes.inner.node (.namespaceScope ⟨name, true, symbol⟩)
            start).2 :=
        .openInline start steadyHere.host steadyHere.inside opens opened
      rw [inlined]
      exact stride.reaches rfl
    · rename_i plain
      refine leads_beginNamespace entered (state.withTable table) room there
        steadyHere.host.has ?_
      have stride : (state.withTable table).Stride ((state.withTable table).addNode
          state.scopes.inner.node (.namespaceScope ⟨name, isInline, symbol⟩) start).2 := by
        refine .start start (steadyHere.host.takes fun _ host => host) (.inl rfl)
          ⟨by simpa [NodeKind.link?] using plain, rfl, rfl⟩ ?_
        intro declaration same
        obtain rfl := NodeKind.namespaceScope.inj same
        exact ⟨rfl, opened⟩
      exact reaches.trans (stride.reaches rfl)

/-- Namespaces that are left are finished, innermost first. -/
theorem leads_closeNamespaces {origin : ParseState} {nodes : List NodeId}
    {refusal : ParseState → Prop} :
    ∀ {state : ParseState}, Inward origin nodes state →
      Leads (closeNamespaces nodes) state (fun _ next => origin.Reaches next) refusal := by
  induction nodes with
  | nil =>
      intro state entered
      cases entered with
      | none reaches => exact reaches
  | cons node outer ih =>
      intro state entered
      have finishes : state.leave.Stride (state.leave.finishNode node state.cursor.previousSpan) :=
        .finish node _
      exact ih (entered.leave.behind (finishes.reaches rfl))

/-- Namespaces are entered without reading anything, or all those entered are left again. -/
theorem leads_openNamespaces {origin : ParseState} (steady : origin.Steady)
    (start : Span) (segments : List (String × Bool)) :
    ∀ {state : ParseState} {nodes : List NodeId}, Inward origin nodes state →
      Leads (openNamespaces start nodes segments) state
        (fun opened next => Inward origin opened next ∧ next.cursor = state.cursor)
        origin.Reaches := by
  induction segments with
  | nil =>
      intro state nodes entered
      exact ⟨entered, rfl⟩
  | cons segment rest ih =>
      intro state nodes entered
      obtain ⟨name, isInline⟩ := segment
      apply (leads_openNamespace steady entered start name isInline).attempt.bind
      rintro outcome next ⟨inside, outside⟩
      cases outcome with
      | ok node =>
          obtain ⟨further, same⟩ := inside node rfl
          exact (ih further).imp fun opened last both => ⟨both.1, both.2.trans same⟩
      | error error =>
          apply (leads_closeNamespaces (outside error rfl)).bind
          intro _ last reaches
          exact reaches

/-- A namespace from behind its word: its brace is ahead before any scope is entered. -/
theorem steers_namespaceBody (steer : rules.Steer) (start : Span) (isInline : Bool) :
    Steers known (namespaceBody rules start isInline) := by
  refine .behind (onlyReads_namespaceSegments _) fun segments =>
    .behind onlyReads_skipAttributes fun _ => ?_
  intro state steady grants
  simp only [leads_check]
  split
  · rename_i missing
    apply leads_expect
    · intro brace
      simp [brace] at missing
    · exact fun _ => .refl state
  · rename_i brace
    have brace : state.cursor.peek.kind = .punct .leftBrace := by simpa using brace
    apply (leads_openNamespaces steady start segments (.none (.refl state))).bind
    rintro nodes first ⟨entered, same⟩
    rw [← same] at brace
    refine (leads_of_ok (expect_of_eq brace)).2 ?_
    have inside := entered.behind first.reads_next.reaches
    have content := (steer.declarations true first.next (inside.steady steady)
      (ParseState.grants_nil _)).and (steer.unrefused true first.next)
    apply (content.mono (fun _ _ both => both.1) fun _ refused => refused.2.elim).bind
    intro _ second reaches
    apply leads_eat
    · intro _
      exact leads_closeNamespaces ((inside.behind reaches).behind second.reads_next.reaches)
    · intro _
      exact leads_closeNamespaces (inside.behind reaches)

theorem steers_namespaceDeclaration (steer : rules.Steer) (start : Span) (isInline : Bool) :
    Steers known (namespaceDeclaration rules start isInline) :=
  .behind (onlyReads_expect _) fun _ => .behind onlyReads_skipAttributes fun _ =>
    .behind (onlyReads_check _) fun _ => .behind (onlyReads_checkAhead _ _) fun _ =>
      .ite (.reads onlyReads_synchronize) (steers_namespaceBody steer start isInline)

/-! ## Declarations -/

/-- The node of a linkage block, which has the symbol of the scope around it. -/
theorem steers_addLinkage {symbol : SymbolId} (scope : .scope symbol ∈ known) (language : String)
    {start : Span} {β : Type} {rest : NodeId → ParseM β}
    (following : ∀ node, Steers (.declares node (.linkage language) :: .near node ::
      .opens node symbol :: known) (rest node)) :
    Steers known (addNode (.linkage language) start >>= rest) := by
  intro state steady grants
  unfold addNode
  simp only [bind_assoc, leads_frame]
  have same : state.scopes.inner.symbol = symbol := grants _ scope
  exact leads_addNodeUnder_near steady grants (steady.host.takes fun _ host => host) (.inl rfl)
    ⟨rfl, rfl, rfl⟩ (by simp)
    (fun node => [.declares node (.linkage language), .near node, .opens node symbol])
    (grants_addNode (congrArg some same) steady.host.has) following

theorem steers_linkageDeclaration (steer : rules.Steer) (start : Span) :
    Steers known (linkageDeclaration rules start) := by
  have content {known : List Fact} : Steers known (linkageContent rules) :=
    .behind (onlyReads_eat _) fun _ => .ite ((steer.declarations true).always.bind fun _ =>
      .behind (onlyReads_eat _) fun _ => .pure _) steer.declaration.always
  refine .behind (onlyReads_expect _) fun _ => .behind (onlyReads_expect _) fun literal =>
    steers_checkNesting (steers_lookupScope fun symbol => ?_)
  refine steers_addLinkage List.mem_cons_self _ fun node => ?_
  exact steers_scope [] (by simp) (by simp) List.mem_cons_self rfl (by simp) (List.nil_subset _)
    (by simp) content.attempt (.attempt _) fun result =>
      (steers_finishNode node).bind fun _ => .resume result

/-- A using directive, the target of which is recorded and gets visible in the innermost scope
if it is found. -/
theorem steers_usingNode {path : String} {target : Option SymbolId} {start : Span} {β : Type}
    {rest : NodeId → ParseM β} (following : ∀ node, Steers known (rest node))
    {state : ParseState} (steady : state.Steady) (grants : state.Grants known)
    (isNamespace : ∀ found, target = some found → state.table.isNamespace found = true) :
    Leads (do
      match target with
      | some found => setTable ((← table).addUsing state.scopes.inner.symbol found)
      | none => Pure.pure ()
      let node ← addNode (.usingDirective ⟨path, target⟩) start
      rest node) state (fun _ => state.Reaches) state.Reaches := by
  cases target with
  | none =>
      unfold addNode
      simp only [bind_assoc, leads_frame]
      exact leads_addNodeUnder_near steady grants (steady.host.takes fun _ host => host) (.inl rfl)
        ⟨rfl, rfl, rfl⟩ (by simp) (fun _ => []) (ParseState.grants_nil _) following
  | some found =>
      unfold addNode
      simp only [bind_assoc, leads_table]
      refine (leads_of_ok rfl).2 ?_
      simp only [leads_frame]
      let linked := state.withTable (state.table.addUsing state.scopes.inner.symbol found)
      have present : linked.tree.Has linked.scopes.inner.node := steady.host.has
      refine (leads_of_ok (addNodeUnder_eq present _ start)).2 ?_
      have stride : state.Stride (linked.addNode state.scopes.inner.node
          (.usingDirective ⟨path, some found⟩) start).2 :=
        .link start steady.host steady.inside (isNamespace found rfl)
      exact (following _).leads steady grants (stride.reaches rfl)

theorem steers_usingDirective (start : Span) : Steers known (usingDirective start) := by
  refine .behind onlyReads_namePath fun path =>
    (Steers.reads (onlyReads_expect _)).attempt.bind fun terminated => ?_
  intro state steady grants
  simp only [leads_lookupScope]
  apply leads_resolveNamespace?
  intro target isNamespace
  exact steers_usingNode (fun node => (steers_finishNode node).bind fun _ =>
    (Steers.resume terminated).bind fun _ => .pure _) steady grants isNamespace

theorem steers_aliasDeclaration (steer : rules.Steer) (reads : rules.Reads) (start : Span) :
    Steers known (aliasDeclaration rules start) := by
  refine .behind onlyReads_expectIdentifier fun name => .behind onlyReads_skipAttributes fun _ =>
    .behind (onlyReads_expect _) fun _ => (steers_specifiers steer .typeOnly).bind fun specs => ?_
  have rest : Steers known (do
      let declarator ← declarator rules .abstract
      let symbol ← declare { name := name.lexeme, kind := .typedef } none name.span
      let node ← addNode (.typedef ⟨name.lexeme, specs.typeRef declarator, symbol⟩) start
      let terminated ← attempt (expect (.punct .semicolon))
      finishNode node
      let _ ← resume terminated) :=
    .behind (onlyReads_declarator reads _) fun _ => (steers_declare rfl (by simp) _ _).bind fun _ =>
      steers_addNode (fun _ host => host) ⟨rfl, rfl, rfl⟩ (by simp) (fun _ => rfl) fun node =>
        (Steers.reads (onlyReads_expect _)).attempt.bind fun terminated =>
          (steers_finishNode node).bind fun _ => (Steers.resume terminated).bind fun _ => .pure _
  split
  · exact .behind onlyReads_peek fun _ => (Steers.refuse _ _).bind fun _ => rest
  · exact rest

theorem steers_keywordDeclaration (steer : rules.Steer) (reads : rules.Reads) (start : Span)
    (word : Keyword) (next : TokenKind) :
    Steers known (keywordDeclaration rules start word next) := by
  have simple : Steers known (simpleDeclaration rules start) :=
    steers_simpleDeclaration steer reads start
  have uses : Steers known (usingDeclaration rules start) :=
    .behind (onlyReads_expect _) fun _ => .behind (onlyReads_eat _) fun _ =>
      .ite (steers_usingDirective start) (.behind onlyReads_aliasAhead fun _ =>
        .ite (steers_aliasDeclaration steer reads start) (.reads onlyReads_synchronize))
  have exported : Steers known (exportedDeclarations rules) :=
    .behind (onlyReads_skip 1) fun _ => .behind (onlyReads_eat _) fun _ =>
      .ite ((steer.declarations true).always.bind fun _ => .behind (onlyReads_expect _) fun _ =>
        .pure _) steer.declaration.always
  unfold keywordDeclaration
  split
  · exact steers_namespaceDeclaration steer start false
  · exact .ite (.behind (onlyReads_skip 1) fun _ => steers_namespaceDeclaration steer start true)
      simple
  · exact .ite (steers_linkageDeclaration steer start)
      (.ite (.reads onlyReads_synchronize) simple)
  · exact .ite (.behind (onlyReads_skip 1) fun _ =>
      steers_templateDeclaration steer reads start true) exported
  · exact steers_templateDeclaration steer reads start false
  · exact uses
  · exact .reads onlyReads_synchronize
  · exact .reads onlyReads_synchronize
  · exact .ite (.reads (onlyReads_skip 2)) simple
  · exact .ite (.reads (onlyReads_skip 2)) simple
  · exact .ite (.reads (onlyReads_skip 2)) simple
  · exact simple

theorem steers_declaration (steer : rules.Steer) (reads : rules.Reads) :
    Steers known (declaration rules) := by
  refine .behind onlyReads_skipAttributes fun _ => .behind onlyReads_peek fun token =>
    .behind (onlyReads_ahead _) fun next => ?_
  split
  · exact .reads (onlyReads_skip 1)
  · exact steers_keywordDeclaration steer reads _ _ _
  · exact .ite (.reads onlyReads_synchronize) (steers_simpleDeclaration steer reads _)
  · exact steers_simpleDeclaration steer reads _

theorem steers_declarations (steer : rules.Steer) (reads : rules.Reads) (closing : Bool) :
    Steers known (declarations rules closing) := by
  refine .iterate (fun start => .behind onlyReads_peek fun token => ?_) ()
  split
  · split
    · exact (steers_complain _ _).bind fun _ => .pure _
    · exact .pure _
  · refine .ite (.pure _) (.behind (onlyReads_skip 1) fun _ =>
      (steers_complain _ _).bind fun _ => .pure _)
  · refine (steers_declaration steer reads).attempt.bind fun outcome => ?_
    cases outcome with
    | ok value => exact .pure _
    | error error =>
        exact (steers_report error).bind fun _ => .behind onlyReads_synchronize fun _ => .pure _

/-- What is refused in a sequence of declarations is reported and passed over. -/
theorem unrefused_declarations (rules : Rules) (closing : Bool) :
    Unrefused (declarations rules closing) := by
  have complains (complaint : Complaint) (span : Span) : Unrefused (complain complaint span) :=
    .looks fun _ => ⟨_, _, rfl⟩
  have skips (count : Nat) : Unrefused (skip count) := fun state =>
    (leads_skip count state).imp fun _ _ _ => trivial
  have peeks : Unrefused peek := .looks fun _ => ⟨_, _, rfl⟩
  refine .iterate (fun start => peeks.bind fun token => ?_) ()
  split
  · split
    · exact (complains _ _).bind fun _ => .pure _
    · exact .pure _
  · split
    · exact .pure _
    · exact (skips 1).bind fun _ => (complains _ _).bind fun _ => .pure _
  · refine (Unrefused.attempt _).bind fun outcome => ?_
    cases outcome with
    | ok value => exact .pure _
    | error error =>
        have reports : Unrefused (report error) := .looks fun _ => ⟨_, _, rfl⟩
        have synchronizes : Unrefused synchronize :=
          .bind (.looks fun _ => ⟨_, _, rfl⟩) fun _ => skips _
        exact reports.bind fun _ => synchronizes.bind fun _ => .pure _

/-- Rules for any depth of nesting keep to the course. -/
theorem steer_ofDepth (depth : Nat) : (Rules.ofDepth depth).Steer := by
  induction depth with
  | zero => exact ⟨fun _ => .reads .stuck, .reads .stuck, fun _ _ => .reads .stuck,
      fun _ => .reads .stuck, fun _ _ => trivial⟩
  | succ depth steer =>
      have reads := reads_ofDepth depth
      exact ⟨steers_specifiers steer, steers_declaration steer reads,
        steers_templateDeclaration steer reads, steers_declarations steer reads,
        unrefused_declarations _⟩

end ParseM

/-- A parse of a whole unit keeps to the course. -/
theorem ParseState.Finished.reaches {options : ParseOptions} {table : SymbolTable}
    (reached : table.Reachable) {unit : UnitId} {source : String} {final : ParseState}
    (finished : (ParseState.start options table unit source).Finished final) :
    (ParseState.start options table unit source).Reaches final := by
  have steers : ParseM.Steers [] ParseM.translationUnit :=
    .behind .get fun state => (ParseM.steer_ofDepth _).declarations false
  have steady : (ParseState.start options table unit source).Steady :=
    ⟨reached, reached.consistent.tree.root_scope.has, _, rfl, rfl⟩
  have leads := steers (ParseState.start options table unit source) steady (grants_nil _)
  unfold ParseM.Leads ParseM.Meets at leads
  rw [finished.run] at leads
  exact leads

/-- In the tree of a parsed unit every node stands where it may. -/
theorem housed_parseUnit (options : ParseOptions) {table : SymbolTable}
    (reached : table.Reachable) (unit : UnitId) (source : String) :
    (parseUnit options table unit source).tree.Housed := by
  obtain ⟨final, finished⟩ := ParseState.exists_finished options reached unit source
  simp only [parseUnit, ParseState.parsed, ParseState.finish_eq finished]
  exact ((finished.reaches reached).strides.housed (Tree.housed_empty unit)).amends
    (.finishRoot _ _ _)

/-- The first node of a parsed unit stays its translation unit. -/
theorem kindAt_root_parseUnit (options : ParseOptions) {table : SymbolTable}
    (reached : table.Reachable) (unit : UnitId) (source : String) :
    (parseUnit options table unit source).tree.kindAt Tree.root =
      some (.translationUnit unit SymbolTable.root) := by
  obtain ⟨final, finished⟩ := ParseState.exists_finished options reached unit source
  have began : (ParseState.start options table unit source).tree.kindAt Tree.root =
    some (.translationUnit unit SymbolTable.root) := rfl
  obtain ⟨_, kept, _⟩ := (finished.reaches reached).course.kindAt began
  simp only [parseUnit, ParseState.parsed, ParseState.finish_eq finished]
  rw [Tree.finishRoot, Tree.kindAt_update]
  · exact kept
  · exact fun _ => rfl

end DeclTree
