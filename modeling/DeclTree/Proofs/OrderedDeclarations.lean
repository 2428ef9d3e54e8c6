import DeclTree.Proofs.CreationOrder
import DeclTree.Proofs.InnermostNode

/-!
# Declarations in document order

Every rule of the grammar creates nodes in the order in which they start, but for declarators
behind a class or enum that is defined among their specifiers.  Their nodes start with the
declaration, in front of the class or enum that is part of it, and cover it.
-/

namespace DeclTree

open ParseState (Footing)

/-- The parameters that a cursor passes start one behind the other, and where it goes. -/
theorem Cursor.Passes.starts {limit : Nat} {start finish : Cursor}
    {parameters : List ParsedParameter} (passes : start.Passes parameters finish)
    (aligned : start.Aligned limit) :
    parameters.Pairwise (fun first second => first.start.offset ≤ second.start.offset) ∧
      ∀ parameter ∈ parameters,
        start.offset ≤ parameter.start.offset ∧ parameter.start.offset ≤ finish.offset := by
  induction passes with
  | nil moves => exact ⟨.nil, by simp⟩
  | @cons start first last finish parameter rest lead moves read opens closes others ih =>
      obtain ⟨alignedFirst, toFirst⟩ := aligned.moves lead
      obtain ⟨alignedLast, toLast⟩ := alignedFirst.moves moves
      obtain ⟨pairwise, within⟩ := ih alignedLast
      have here : parameter.start.offset = first.offset := congrArg Span.offset opens
      have before := toFirst.offset
      have after := toLast.offset
      have ends := (alignedLast.moves others.moves).2.offset
      refine ⟨List.pairwise_cons.2 ⟨fun other member => ?_, pairwise⟩, ?_⟩
      · have behind := (within other member).1
        omega
      · intro other member
        rcases List.mem_cons.1 member with rfl | inside
        · omega
        · have both := within other inside
          omega

/-- Whether rules create nodes in order, wherever they start; a template starts where it is
told. -/
structure Rules.Date (limit : Nat) (rules : Rules) : Prop extends rules.Steady where
  declaration : ParseM.Dates limit False [] [] rules.declaration
  templateDeclaration : ∀ start exported,
    ParseM.Dates limit False [] [.timely start] (rules.templateDeclaration start exported)
  declarations : ∀ closing, ParseM.Dates limit False [] [] (rules.declarations closing)
  unrefused : ∀ closing, ParseM.Unrefused (rules.declarations closing)

namespace ParseM

variable {limit : Nat} {tags : Prop} {hosts : List NodeId} {known : List Footing} {rules : Rules}

/-! ## Classes and enums -/

theorem dates_classBody (date : rules.Date limit) {node : NodeId} (host : node ∈ hosts)
    (name : String) (symbol : SymbolId) :
    Dates limit tags hosts known (classBody rules name symbol node) := by
  refine .after (Resting.reads (onlyReads_expect _)).attempt fun opened => ?_
  cases opened with
  | error error => exact .rests ((resting_finishNode node).bind fun _ => .resume _)
  | ok brace =>
      exact .scope host (date.declarations true).always (date.unrefused true) fun _ =>
        .rests (.behind (onlyReads_eat _) fun _ => resting_finishNode node)

theorem dates_classDefinition (date : rules.Date limit) (specs : DeclSpecs) {key : Token}
    (starts : .timely key.span ∈ known) (path : Option NamePath) (isFinal : Bool) :
    Dates limit tags hosts known (classDefinition rules specs key path isFinal) := by
  refine .behind onlyReads_baseClause fun bases => .behind (onlyReads_checkNesting _) fun _ =>
    .behind (onlyReads_tagPlace _ _) fun place => .after (resting_declare _ _ _) fun symbol => ?_
  exact .addNode (fun _ => rfl) (.inl starts) [] (by simp) fun node =>
    (dates_classBody date List.mem_cons_self _ _).bind fun _ => .pure _

theorem dates_classSpecifier (date : rules.Date limit) (specs : DeclSpecs) (allowBody : Bool) :
    Dates limit tags hosts known (classSpecifier rules specs allowBody) := by
  refine .atAdvance fun key => .behind onlyReads_skipAttributes fun _ =>
    .behind onlyReads_tagPath? fun path => .behind (onlyReads_checkWord _) fun isFinal => ?_
  have rest (specs : DeclSpecs) : Dates limit tags hosts (.timely key.span :: known) (do
      if allowBody && ((← check (.punct .leftBrace)) || (← check (.punct .colon))) then
        classDefinition rules specs key path isFinal
      else
        forwardTag specs path (.classTag (classKeyOf key.kind))) :=
    .behind (onlyReads_check _) fun _ => .behind (onlyReads_check _) fun _ =>
      .ite (dates_classDefinition date _ List.mem_cons_self path isFinal)
        (.reads (onlyReads_forwardTag _ _ _))
  split
  · exact .behind (onlyReads_skip 1) fun _ => rest _
  · exact rest _

theorem dates_enumerator {parent : NodeId} (host : parent ∈ hosts) (scope : SymbolId) :
    Dates limit tags hosts known (enumerator parent scope) := by
  refine .atIdentifier fun name => .behind onlyReads_skipAttributes fun _ =>
    .behind (onlyReads_eat _) fun hasValue => ?_
  have rest : Dates limit tags hosts (.timely name.span :: known) (do
      let unit ← unit
      let symbol ← changeTable name.span fun table =>
        table.declare scope { name := name.lexeme, kind := .enumerator, unit := some unit }
      let node ← addNodeUnder parent (.enumerator ⟨name.lexeme, symbol, hasValue⟩) name.span
      finishNode node) :=
    .behind onlyReads_unit fun unit => .after (resting_changeTable _ _) fun symbol =>
      .addNodeUnder host List.mem_cons_self [] (by simp) fun node =>
        .rests (resting_finishNode node)
  split
  · exact .behind (onlyReads_skipExpression _) fun _ => rest
  · exact rest

theorem dates_enumeratorItem {parent : NodeId} (host : parent ∈ hosts) (scope : SymbolId)
    (start : Unit) : Dates limit tags hosts known (enumeratorItem parent scope start) := by
  refine .behind onlyReads_peek fun token => .ite (.pure _) ?_
  refine (dates_enumerator host scope).attempt.bind fun outcome => ?_
  have separated : Dates limit tags hosts [] (do
      if ← eat (.punct .comma) then return .again () else return .done () :
        ParseM (Step Unit Unit)) :=
    .behind (onlyReads_eat _) fun _ => .ite (.pure _) (.pure _)
  cases outcome with
  | ok value => exact separated
  | error error =>
      exact .after (resting_report error) fun _ => .behind onlyReads_unread fun tokens =>
        .behind (onlyReads_pass _) fun _ => separated

theorem dates_enumBody {node : NodeId} (host : node ∈ hosts) (symbol : SymbolId) :
    Dates limit tags hosts known (enumBody symbol node) := by
  have enumerators : Dates limit tags hosts known (enumerators node symbol) :=
    (Dates.iterate (dates_enumeratorItem host symbol) ()).bind fun _ =>
      .behind (onlyReads_expect _) fun _ => .pure _
  refine .after (Resting.reads (onlyReads_expect _)).attempt fun opened => ?_
  cases opened with
  | error error => exact .rests ((resting_finishNode node).bind fun _ => .resume _)
  | ok brace =>
      exact enumerators.attempt.bind fun closed =>
        .rests ((resting_finishNode node).bind fun _ => .resume closed)

theorem dates_enumDefinition (specs : DeclSpecs) {key : Token} (starts : .timely key.span ∈ known)
    (path : Option NamePath) (isScoped : Bool) (underlying : Option TypeRef) :
    Dates limit tags hosts known (enumDefinition specs key path isScoped underlying) := by
  refine .behind (onlyReads_checkNesting _) fun _ => .behind (onlyReads_tagPlace _ _) fun place =>
    .after (resting_declare _ _ _) fun symbol => ?_
  exact .addNode (fun _ => rfl) (.inl starts) [] (by simp) fun node =>
    (dates_enumBody List.mem_cons_self _).bind fun _ => .pure _

theorem dates_enumSpecifier (date : rules.Date limit) (specs : DeclSpecs) (allowBody : Bool) :
    Dates limit tags hosts known (enumSpecifier rules specs allowBody) := by
  refine .atAdvance fun key => .behind onlyReads_scopedWord fun words =>
    .behind onlyReads_skipAttributes fun _ => .behind onlyReads_tagPath? fun path =>
      .behind (onlyReads_underlyingType date.toReads allowBody) fun base =>
        .behind (onlyReads_check _) fun _ => ?_
  exact .ite (dates_enumDefinition _ List.mem_cons_self path _ base)
    (.reads (onlyReads_forwardTag _ _ _))

/-! ## Specifiers -/

theorem dates_keywordSpecifier (date : rules.Date limit) (mode : SpecifierMode)
    (specs : DeclSpecs) (word : Keyword) :
    Dates limit tags hosts known (keywordSpecifier rules mode specs word) := by
  unfold keywordSpecifier
  split
  · exact .reads (by simp)
  · refine .ite (.reads (by simp)) (.ite (.reads (by simp)) ?_)
    split
    · exact .reads (by simp)
    · exact .reads (by simp)
    · exact .reads (by simp)
    · exact .ite (.pure _) ((dates_classSpecifier date specs _).bind fun _ => .pure _)
    · exact .ite (.pure _) ((dates_classSpecifier date specs _).bind fun _ => .pure _)
    · exact .ite (.pure _) ((dates_classSpecifier date specs _).bind fun _ => .pure _)
    · exact .ite (.pure _) ((dates_enumSpecifier date specs _).bind fun _ => .pure _)
    · exact .reads (by simp)
    · exact .pure _

/-- Specifiers add nothing but classes and enums to the innermost scope. -/
theorem dates_specifiers (date : rules.Date limit) (mode : SpecifierMode) :
    Dates limit tags hosts known (specifiers rules mode) := by
  refine .iterate (fun specs => .behind onlyReads_peek fun token => ?_) _
  split
  · exact dates_keywordSpecifier date mode specs _
  all_goals exact .reads (by simp)

/-! ## Functions -/

theorem resting_parameterSymbol (function : SymbolId) (parameter : ParsedParameter) :
    Resting (parameterSymbol function parameter) := by
  unfold parameterSymbol
  split
  · exact .pure _
  · refine .behind onlyReads_unit fun unit => (resting_changeTable _ _).attempt.bind
      fun declared => ?_
    split
    · exact .pure _
    · exact (resting_report _).bind fun _ => .pure _

theorem dates_addParameters {node : NodeId} (host : node ∈ hosts) (function : SymbolId)
    {parameters : List ParsedParameter} (ascending : parameters.Pairwise
      fun first second => first.start.offset ≤ second.start.offset) :
    Dates limit tags hosts ((parameters.map ParsedParameter.start).map .timely)
      (addParameters node function parameters) := by
  induction parameters generalizing hosts with
  | nil => exact .pure _
  | cons parameter rest ih =>
      obtain ⟨first, others⟩ := List.pairwise_cons.1 ascending
      unfold addParameters addParameter
      simp only [bind_assoc]
      refine .after (resting_parameterSymbol function parameter) fun symbol => ?_
      refine .addNodeUnder host List.mem_cons_self (rest.map ParsedParameter.start) ?_ fun inner =>
        .after (resting_finishNodeAt inner _) fun _ => ih (List.mem_cons_of_mem _ host) others
      intro other member
      obtain ⟨following, inside, rfl⟩ := List.mem_map.1 member
      exact ⟨List.mem_cons_of_mem _ (List.mem_map_of_mem member), first following inside⟩

/-- A function starts where its declaration does, and its parameters behind that. -/
theorem dates_functionRest (reads : rules.Reads) (specs : DeclSpecs) (declarator : Declarator)
    (id : DeclaratorId) {parameters : List ParsedParameter} {start : Span}
    (starts : .declared start ∈ known) (ascending : parameters.Pairwise
      fun first second => first.start.offset ≤ second.start.offset)
    (behind : ∀ parameter ∈ parameters, .timely parameter.start ∈ known ∧
      start.offset ≤ parameter.start.offset) :
    Dates limit False hosts known
      (functionRest rules specs declarator id parameters start) := by
  refine .behind (.iterate (onlyReads_functionItem reads) _) fun tail =>
    .behind onlyReads_functionMark fun given => .behind onlyReads_bodyAhead fun hasBody =>
      .behind (onlyReads_qualifierScope id) fun scope =>
        .after (resting_declare _ _ _) fun symbol => ?_
  refine .addNode False.elim (.inr ⟨rfl, starts⟩) (parameters.map ParsedParameter.start) ?_
    fun node => (dates_addParameters List.mem_cons_self symbol ascending).bind fun _ =>
      .ite ?_ (.pure _)
  · intro other member
    obtain ⟨parameter, inside, rfl⟩ := List.mem_map.1 member
    exact behind parameter inside
  · exact .rests ((Resting.reads onlyReads_skipBody).attempt.bind fun skipped =>
      (resting_finishNode node).bind fun _ => (Resting.resume skipped).bind fun _ => .pure _)

/-! ## Simple declarations -/

theorem resting_declareForward (forward : ForwardTag) : Resting (declareForward forward) :=
  .behind (onlyReads_pathScope _) fun _ => (resting_declare _ _ _).bind fun _ => .pure _

theorem dates_dataDeclarator (specs : DeclSpecs) (declarator : Declarator) (id : DeclaratorId)
    {start : Span} (starts : .declared start ∈ known) :
    Dates limit False hosts known (dataDeclarator specs declarator id start) := by
  have typedef : Dates limit False hosts known (typedefDeclarator specs declarator id start) :=
    .after (resting_declare _ _ _) fun _ =>
      .addNode False.elim (.inr ⟨rfl, starts⟩) [] (by simp) fun _ => .pure _
  have plain : Dates limit False hosts known (variableDeclarator specs declarator id start) := by
    have rest : Dates limit False hosts known (do
        let hasInitializer ← initializer declarator
        let scope ← qualifierScope id
        let declarationOnly ← isDeclarationOnly specs id hasInitializer
        let symbol ← declare
          { name := id.name
            kind := .var
            defined := !declarationOnly
            specialization := id.hasArguments } scope id.span
        let node ← addNode
          (.var ⟨id.name, id.qualifier.map Qualifier.text, specs.typeRef declarator,
            specs.specifiers, symbol, hasInitializer⟩) start
        return ⟨some node, false⟩ : ParseM InitDeclarator) :=
      .behind (onlyReads_initializer _) fun _ => .behind (onlyReads_qualifierScope id) fun _ =>
        .behind (onlyReads_isDeclarationOnly _ _ _) fun _ => .after (resting_declare _ _ _)
          fun _ => .addNode False.elim (.inr ⟨rfl, starts⟩) [] (by simp) fun _ => .pure _
    refine .behind (onlyReads_eat _) fun found => ?_
    split
    · exact .behind (onlyReads_skipExpression _) fun _ => rest
    · exact rest
  exact .ite (.rests (.refuse _ _)) (.ite typedef plain)

/-- A declarator starts where its declaration does, also if only classes and enums were added
behind that. -/
theorem dates_initDeclarator (date : rules.Date limit) (specs : DeclSpecs) (start : Span) :
    Dates limit False hosts [.declared start] (initDeclarator rules specs start) := by
  intro state dated stands
  have reads := (onlyReads_declarator date.toReads .named).leads state
  have passes := gives_declarator date.toSteady dated.sound .named
  apply ((reads.and passes).mono (fun _ _ both => both)
    fun _ both => both.1.rests.adds dated).bind
  rintro declarator next ⟨read, passed, _⟩
  have reached : state.Reached _ start := stands _ (List.mem_singleton.2 rfl)
  have rests := read.rests
  have adds : state.Adds limit False hosts next := rests.adds dated
  have standsNext := stands.rests rests dated
  have data (id : DeclaratorId) :=
    (dates_dataDeclarator specs declarator id List.mem_cons_self).leads adds standsNext
      fun _ => .inl
  split
  · have refuses : Dates limit False hosts [] (refuseName : ParseM InitDeclarator) :=
      .reads onlyReads_refuseName
    exact refuses.leads adds next.stands_nil fun _ => .inl
  · rename_i id _
    split
    · rename_i parameters given
      split
      · exact data id
      · obtain ⟨ascending, within⟩ := (passed parameters given).starts dated.aligned
        -- All of the parameters are read before the first one gets its node.
        have places : next.Stands ((parameters.map ParsedParameter.start).map .timely) := by
          apply Dates.stands_timely
          intro place member
          obtain ⟨parameter, inside, rfl⟩ := List.mem_map.1 member
          obtain ⟨after, before⟩ := within parameter inside
          refine ⟨before, fun id birth found => .inl ?_⟩
          exact Nat.le_trans (dated.started id birth (rests.births ▸ found)) after
        have function : Dates limit False hosts
            (.declared start :: (parameters.map ParsedParameter.start).map .timely)
            (functionRest rules specs declarator id parameters start) := by
          refine dates_functionRest date.toReads specs declarator id List.mem_cons_self ascending ?_
          intro parameter member
          exact ⟨List.mem_cons_of_mem _ (List.mem_map_of_mem (List.mem_map_of_mem member)),
            Nat.le_trans reached.passed (within parameter member).1⟩
        exact function.leads adds (ParseState.stands_cons.2
          ⟨standsNext _ (List.mem_singleton.2 rfl), places⟩) fun _ => .inl
    · exact data id

/-- A declarator behind a comma starts at the token behind the comma. -/
theorem gives_declaratorItem (specs : DeclSpecs) (start : Span) (state : ParseState) :
    Gives (declaratorItem rules specs start) state fun outcome next =>
      outcome.Keeps (fun place after => place = after.cursor.peek.span) (fun _ _ => True) next := by
  apply (leads_anywhere _ state).bind
  intro declared first _
  split
  · trivial
  · rw [leads_check]
    split
    · apply (leads_anywhere _ first).bind
      intro _ second _
      apply (leads_anywhere _ second).bind
      intro _ third _
      rfl
    · apply (leads_anywhere _ first).bind
      intro terminated second _
      apply (leads_anywhere _ second).bind
      intro _ third _
      apply (leads_anywhere _ third).bind
      intro _ fourth _
      trivial

theorem dates_declaratorItem (date : rules.Date limit) (specs : DeclSpecs) (start : Span) :
    Dates limit False hosts [.declared start] (declaratorItem rules specs start) := by
  have finish (declared : InitDeclarator) : Resting (finishDeclarator declared) := by
    unfold finishDeclarator
    split
    · exact resting_finishNode _
    · exact .pure _
  refine (dates_initDeclarator date specs start).bind fun declared => .ite (.pure _) ?_
  refine .behind (onlyReads_check _) fun more => .ite ?_ ?_
  · exact .after (finish declared) fun _ => .behind (onlyReads_skip 1) fun _ =>
      .behind onlyReads_peek fun _ => .pure _
  · exact .after (Resting.reads (onlyReads_expect _)).attempt fun terminated =>
      .after (finish declared) fun _ => .after (.resume terminated) fun _ => .pure _

/-- The declarators of a declaration: nothing was created in front of the first one but classes
and enums, and the others start behind all that was created. -/
theorem dates_declarators (date : rules.Date limit) (specs : DeclSpecs) (start : Span) :
    Dates limit False hosts [.declared start] (iterate (declaratorItem rules specs) start) := by
  intro state dated stands
  refine leads_iterate (fun place next => state.Adds limit False hosts next ∧
    next.Stands [.declared place]) ⟨(ParseState.Rests.refl state).adds dated, stands⟩ ?_
  rintro place next ⟨adds, standsNext⟩
  have item : Dates limit False hosts [.declared place] (declaratorItem rules specs place) :=
    dates_declaratorItem date specs place
  have round := (item next adds.dated standsNext).and (gives_declaratorItem specs place next)
  refine round.mono ?_ fun _ both => adds.trans both.1 fun _ => .inl
  rintro outcome after ⟨further, keeps⟩
  have whole := adds.trans further fun _ => .inl
  cases outcome with
  | done value => exact whole
  | again following =>
      obtain rfl : following = after.cursor.peek.span := keeps
      exact ⟨whole, ParseState.stands_cons.2 ⟨whole.dated.reached_peek, after.stands_nil⟩⟩

theorem dates_simpleDeclaration (date : rules.Date limit) {start : Span}
    (starts : .timely start ∈ known) :
    Dates limit False hosts known (simpleDeclaration rules start) := by
  refine .afterTags starts (dates_specifiers date .declaration) fun specs => .ite ?_ ?_
  · exact .reads onlyReads_synchronize
  · refine .behind (onlyReads_eat _) fun ended => .ite ?_ ?_
    · split
      · exact .rests (resting_declareForward _)
      · exact .pure _
    · exact dates_declarators date specs start

/-! ## Templates -/

/-- A change of the template declaration that a node is. -/
theorem resting_amend (node : NodeId) (change : TemplateDecl → TemplateDecl) :
    Resting (modify fun state =>
      { state with tree := state.tree.updateTemplate node change }) :=
  resting_modify (fun _ => rfl) (fun state => state.tree.birth?_updateTemplate node change)
    fun _ => rfl

theorem dates_templateParameter (reads : rules.Reads) {node : NodeId} (host : node ∈ hosts)
    (template : SymbolId) :
    Dates limit tags hosts known (templateParameter rules node template) := by
  refine .atToken fun token => .behind (onlyReads_parameterHead reads) fun head =>
    .behind (onlyReads_eat _) fun hasDefault => ?_
  have rest : Dates limit tags hosts (.timely token.span :: known) (do
      let unit ← unit
      let symbol ← changeTable token.span fun table =>
        table.addParameter template
          { name := head.name.getD "", kind := .templateParameter head.kind, unit := some unit }
      let parameter ← addNodeUnder node
        (.templateParameter ⟨head.name, head.kind, head.type, some symbol, hasDefault,
          head.isVariadic⟩) token.span
      finishNode parameter
      modify fun state =>
        { state with
          tree := state.tree.updateTemplate node (TemplateDecl.addParameter · parameter) }) :=
    .behind onlyReads_unit fun unit => .after (resting_changeTable _ _) fun symbol =>
      .addNodeUnder host List.mem_cons_self [] (by simp) fun parameter =>
        .after (resting_finishNode parameter) fun _ => .rests (resting_amend node _)
  split
  · exact .behind onlyReads_skipParameterDefault fun _ => rest
  · exact rest

theorem dates_templateContent (date : rules.Date limit) {node : NodeId} (host : node ∈ hosts)
    (template : SymbolId) :
    Dates limit False hosts known (templateContent rules node template) := by
  have item (start : Unit) :
      Dates limit False hosts [] (templateParameterItem rules node template start) :=
    (dates_templateParameter date.toReads host template).bind fun _ =>
      .behind (onlyReads_eat _) fun _ => .ite (.pure _) (.pure _)
  have parameters : Dates limit False hosts known (templateParameters rules node template) :=
    .behind (onlyReads_expect _) fun _ => .behind (onlyReads_check _) fun _ =>
      .behind (onlyReads_check _) fun _ => .ite (.reads onlyReads_expectClosingAngle)
        ((Dates.iterate item ()).bind fun _ => .reads onlyReads_expectClosingAngle)
  refine parameters.bind fun _ => .behind onlyReads_skipConstraint fun _ =>
    .atToken fun token => .ite ?_ (.ite ?_ ?_)
  · exact ((date.templateDeclaration _ _).mono id (List.nil_subset hosts) fun _ => id).bind
      fun _ => .pure _
  · exact .behind onlyReads_synchronize fun _ => .pure _
  · exact date.declaration.always.bind fun _ => .pure _

theorem resting_discardPending (factory : FactoryId) (template : SymbolId) (start : Span)
    (parsed : Except ParseError Bool) :
    Resting (discardPending factory template start parsed) := by
  refine .behind onlyReads_table fun table => .ite ((resting_setTable _).bind fun _ => ?_) (.pure _)
  split
  · exact resting_complain _ _
  · exact .pure _

theorem resting_bindOwned (node : NodeId) : Resting (bindOwned node) := by
  intro state
  unfold bindOwned
  simp only [leads_get]
  split
  · exact .refl state
  · split
    · exact .refl state
    · split
      · exact ⟨.refl _, state.tree.birth?_updateTemplate node _, rfl⟩
      · exact resting_complain _ _ state

theorem dates_openedTemplate (date : rules.Date limit) {start : Span}
    (starts : .timely start ∈ known) (exported : Bool) :
    Dates limit False hosts known (openedTemplate rules start exported) := by
  have factory : Resting (prefixFactory start) := by
    refine .behind onlyReads_frame fun frame => ?_
    split
    · exact .pure _
    · exact (resting_changeTable _ _).bind fun _ => .pure _
  refine .behind (onlyReads_checkNesting _) fun _ => .after factory fun ⟨factory, container⟩ =>
    .behind onlyReads_unit fun unit => .after (resting_changeTable _ _) fun template =>
      .behind onlyReads_frame fun frame => .addNode False.elim (.inl starts) [] (by simp)
        fun node => ?_
  refine .scope List.mem_cons_self (dates_templateContent date List.mem_cons_self template).attempt
    (.attempt _) fun parsed => .rests ?_
  exact (resting_discardPending factory template start parsed).bind fun _ =>
    (resting_bindOwned node).bind fun _ => (resting_finishNode node).bind fun _ =>
      (Resting.resume parsed).bind fun _ => .pure _

theorem dates_templateDeclaration (date : rules.Date limit) {start : Span}
    (starts : .timely start ∈ known) (exported : Bool) :
    Dates limit False hosts known (templateDeclaration rules start exported) :=
  .behind (onlyReads_expect _) fun _ => .behind (onlyReads_check _) fun _ =>
    .ite (dates_openedTemplate date starts exported) (.reads onlyReads_synchronize)

end ParseM

/-! ## Namespaces one inside the other -/

namespace ParseState

variable {limit : Nat} {origin state next : ParseState} {nodes : List NodeId}

/-- A state inside namespaces that were entered one in the other, innermost first, and are all
new. -/
inductive Entered (limit : Nat) (origin : ParseState) : List NodeId → ParseState → Prop
  | outside {state : ParseState} (adds : origin.Adds limit False [] state) :
      Entered limit origin [] state
  | enter {nodes : List NodeId} {before middle state : ParseState} {frame : ScopeFrame}
      (entered : Entered limit origin nodes before) (created : before.Adds limit False [] middle)
      (new : before.tree.birth? frame.node = none)
      (inside : (middle.enter frame).Adds limit False [frame.node] state) :
      Entered limit origin (frame.node :: nodes) state

namespace Entered

theorem dated (entered : Entered limit origin nodes state) : state.Dated limit := by
  cases entered with
  | outside adds => exact adds.dated
  | enter _ _ _ inside => exact inside.dated

theorem behind (entered : Entered limit origin nodes state)
    (adds : state.Adds limit False [] next) : Entered limit origin nodes next := by
  cases entered with
  | outside before => exact .outside (before.trans adds fun _ => .inl)
  | enter outer created new inside =>
      exact .enter outer created new (inside.trans (adds.mono id (List.nil_subset _)) fun _ => .inl)

theorem leave {node : NodeId} (entered : Entered limit origin (node :: nodes) state) :
    Entered limit origin nodes state.leave := by
  cases entered with
  | enter outer created new inside =>
      refine outer.behind (created.trans inside.leave ?_)
      intro host member
      obtain rfl := List.mem_singleton.1 member
      exact .inr new

/-- A change that creates no node. -/
theorem rests (entered : Entered limit origin nodes state) (rests : state.Rests next) :
    Entered limit origin nodes next :=
  entered.behind (rests.adds entered.dated)

end Entered

theorem rests_withTable (state : ParseState) (table : SymbolTable) :
    state.Rests (state.withTable table) :=
  ⟨.refl _, rfl, rfl⟩

end ParseState

namespace ParseM

variable {limit : Nat} {hosts : List NodeId} {known : List Footing} {rules : Rules}
  {origin state : ParseState} {nodes : List NodeId}

/-- A namespace gets its node in the innermost scope and becomes the innermost one; another one in
it may start at the same place. -/
theorem enters_namespace (entered : origin.Entered limit nodes state) {start : Span}
    (reached : state.Reached (fun _ => False) start) (declaration : NamespaceDecl)
    (symbol : SymbolId) :
    Leads (do
      let node ← addNode (.namespaceScope declaration) start
      pushScope ⟨node, symbol, .container, .namespaceScope⟩
      return node) state
      (fun node next => origin.Entered limit (node :: nodes) next ∧
        next.Reached (fun _ => False) start ∧ next.cursor = state.cursor)
      (origin.Entered limit nodes) := by
  let kind : NodeKind := .namespaceScope declaration
  let added := state.addNode state.scopes.inner.node kind start
  unfold addNode
  simp only [bind_assoc, leads_frame]
  apply (leads_addNodeUnder_present state _ kind start).bind
  rintro node next ⟨present, same⟩
  obtain ⟨rfl, rfl⟩ := Prod.mk.inj same
  have created : state.Adds limit False [] added.2 :=
    reached.adds entered.dated present (fun _ never => never.elim) (.inl ⟨rfl, False.elim⟩)
  have later : added.2.Reached (fun _ => False) start := reached.addNode (Nat.le_refl _)
  have inside : (added.2.enter ⟨added.1, symbol, .container, .namespaceScope⟩).Dated limit :=
    { created.dated with }
  exact ⟨.enter entered created state.tree.birth?_fresh ((ParseState.Rests.refl _).adds inside),
    ⟨later.passed, later.started⟩, rfl⟩

theorem enters_openNamespace (entered : origin.Entered limit nodes state) {start : Span}
    (reached : state.Reached (fun _ => False) start) (name : String) (isInline : Bool) :
    Leads (openNamespace start name isInline) state
      (fun node next => origin.Entered limit (node :: nodes) next ∧
        next.Reached (fun _ => False) start ∧ next.cursor = state.cursor)
      (origin.Entered limit nodes) := by
  unfold openNamespace checkNesting
  simp only [bind_assoc, leads_get]
  split
  · exact entered
  · simp only [pure_bind, leads_lookupScope, leads_unit]
    apply leads_changeTable
    · intro symbol table _
      have rests := state.rests_withTable table
      have reachedNext := reached.rests rests entered.dated
      split
      · simp only [leads_table]
        refine (leads_of_ok rfl).2 ?_
        have further := (state.withTable table).rests_withTable
          (table.addUsing state.scopes.inner.symbol symbol)
        exact enters_namespace ((entered.rests rests).rests further)
          (reachedNext.rests further (rests.dated entered.dated)) _ symbol
      · exact enters_namespace (entered.rests rests) reachedNext _ symbol
    · exact entered

/-- Namespaces that are left are finished, innermost first. -/
theorem leaves_closeNamespaces {refusal : ParseState → Prop}
    (entered : origin.Entered limit nodes state) :
    Leads (closeNamespaces nodes) state (fun _ => origin.Adds limit False []) refusal := by
  induction nodes generalizing state with
  | nil =>
      cases entered with
      | outside adds => exact adds
  | cons node outer ih =>
      have finishes : state.leave.Rests (state.leave.finishNode node state.cursor.previousSpan) :=
        resting_finishNodeAt node _ state.leave
      exact ih (entered.leave.rests finishes)

/-- Namespaces start at one place and are entered without reading anything, or all those entered
are left again. -/
theorem enters_openNamespaces {start : Span} (segments : List (String × Bool)) :
    ∀ {state : ParseState} {nodes : List NodeId}, origin.Entered limit nodes state →
      state.Reached (fun _ => False) start →
        Leads (openNamespaces start nodes segments) state
          (fun opened next => origin.Entered limit opened next ∧ next.cursor = state.cursor)
          (origin.Adds limit False []) := by
  induction segments with
  | nil =>
      intro state nodes entered reached
      exact ⟨entered, rfl⟩
  | cons segment rest ih =>
      intro state nodes entered reached
      apply (enters_openNamespace entered reached segment.1 segment.2).attempt.bind
      rintro outcome next ⟨inside, outside⟩
      cases outcome with
      | ok node =>
          obtain ⟨further, reachedNext, same⟩ := inside node rfl
          exact (ih further reachedNext).imp fun opened last both => ⟨both.1, both.2.trans same⟩
      | error error =>
          apply (leaves_closeNamespaces (outside error rfl)).bind
          intro _ last adds
          exact adds

/-- A namespace from behind its word: its brace is ahead before any scope is entered. -/
theorem dates_namespaceBody (date : rules.Date limit) {start : Span}
    (starts : .timely start ∈ known) (isInline : Bool) :
    Dates limit False [] known (namespaceBody rules start isInline) := by
  refine .behind (onlyReads_namespaceSegments _) fun segments =>
    .behind onlyReads_skipAttributes fun _ => ?_
  intro state dated stands
  have outside : state.Adds limit False [] state := (ParseState.Rests.refl state).adds dated
  simp only [leads_check]
  split
  · rename_i missing
    apply leads_expect
    · intro brace
      simp [brace] at missing
    · exact fun _ => outside
  · rename_i brace
    have brace : state.cursor.peek.kind = .punct .leftBrace := by simpa using brace
    apply (enters_openNamespaces segments (.outside outside) (stands _ starts)).bind
    rintro nodes first ⟨entered, same⟩
    rw [← same] at brace
    refine (leads_of_ok (expect_of_eq brace)).2 ?_
    have inside := entered.rests first.reads_next.rests
    have content := (date.declarations true first.next inside.dated first.next.stands_nil).and
      (date.unrefused true first.next)
    apply (content.mono (fun _ _ both => both.1) fun _ refused => refused.2.elim).bind
    intro _ second adds
    apply leads_eat
    · intro _
      exact leaves_closeNamespaces ((inside.behind adds).rests second.reads_next.rests)
    · intro _
      exact leaves_closeNamespaces (inside.behind adds)

theorem dates_namespaceDeclaration (date : rules.Date limit) {start : Span}
    (starts : .timely start ∈ known) (isInline : Bool) :
    Dates limit False hosts known (namespaceDeclaration rules start isInline) :=
  .behind (onlyReads_expect _) fun _ => .behind onlyReads_skipAttributes fun _ =>
    .behind (onlyReads_check _) fun _ => .behind (onlyReads_checkAhead _ _) fun _ =>
      .ite (.reads onlyReads_synchronize)
        ((dates_namespaceBody date starts isInline).mono id (List.nil_subset hosts) fun _ => id)

/-! ## Declarations -/

theorem dates_linkageDeclaration (date : rules.Date limit) {start : Span}
    (starts : .timely start ∈ known) :
    Dates limit False hosts known (linkageDeclaration rules start) := by
  have content {hosts : List NodeId} : Dates limit False hosts [] (linkageContent rules) :=
    .behind (onlyReads_eat _) fun _ => .ite ((date.declarations true).always.bind fun _ =>
      .behind (onlyReads_eat _) fun _ => .pure _) date.declaration.always
  refine .behind (onlyReads_expect _) fun _ => .behind (onlyReads_expect _) fun literal =>
    .behind (onlyReads_checkNesting _) fun _ => .behind onlyReads_lookupScope fun symbol =>
      .addNode False.elim (.inl starts) [] (by simp) fun node => ?_
  exact .scope List.mem_cons_self content.attempt (.attempt _) fun result =>
    .rests ((resting_finishNode node).bind fun _ => .resume result)

theorem dates_usingDirective {start : Span} (starts : .timely start ∈ known) :
    Dates limit False hosts known (usingDirective start) := by
  have target (path : NamePath) : OnlyReads (resolveNamespace? path) := by
    refine .bind (onlyReads_resolve? path) fun found => ?_
    split
    · exact .pure _
    · refine .bind onlyReads_table fun table => ?_
      split
      · exact .pure _
      · exact .stuck
  refine .behind onlyReads_namePath fun path =>
    .after (Resting.reads (onlyReads_expect _)).attempt fun terminated =>
      .behind onlyReads_lookupScope fun scope => .behind (target path) fun found => ?_
  have rest : Dates limit False hosts known (do
      let node ← addNode (.usingDirective ⟨path.text, found⟩) start
      finishNode node
      let _ ← resume terminated) :=
    .addNode False.elim (.inl starts) [] (by simp) fun node =>
      .rests ((resting_finishNode node).bind fun _ => (Resting.resume terminated).bind fun _ =>
        .pure _)
  split
  · exact .behind onlyReads_table fun table => .after (resting_setTable _) fun _ => rest
  · exact rest

theorem dates_aliasDeclaration (reads : rules.Reads) {start : Span}
    (starts : .timely start ∈ known) :
    Dates limit False hosts known (aliasDeclaration rules start) := by
  refine .behind onlyReads_expectIdentifier fun name => .behind onlyReads_skipAttributes fun _ =>
    .behind (onlyReads_expect _) fun _ => .behind (onlyReads_specifiers (by simp)) fun specs => ?_
  have rest : Dates limit False hosts known (do
      let declarator ← declarator rules .abstract
      let symbol ← declare { name := name.lexeme, kind := .typedef } none name.span
      let node ← addNode (.typedef ⟨name.lexeme, specs.typeRef declarator, symbol⟩) start
      let terminated ← attempt (expect (.punct .semicolon))
      finishNode node
      let _ ← resume terminated) :=
    .behind (onlyReads_declarator reads _) fun _ => .after (resting_declare _ _ _) fun _ =>
      .addNode False.elim (.inl starts) [] (by simp) fun node =>
        .rests ((Resting.reads (onlyReads_expect _)).attempt.bind fun terminated =>
          (resting_finishNode node).bind fun _ => (Resting.resume terminated).bind fun _ => .pure _)
  split
  · exact .behind onlyReads_peek fun _ => .after (.refuse _ _) fun _ => rest
  · exact rest

theorem dates_keywordDeclaration (date : rules.Date limit) {start : Span}
    (starts : .timely start ∈ known) (word : Keyword) (next : TokenKind) :
    Dates limit False hosts known (keywordDeclaration rules start word next) := by
  have simple : Dates limit False hosts known (simpleDeclaration rules start) :=
    dates_simpleDeclaration date starts
  have uses : Dates limit False hosts known (usingDeclaration rules start) :=
    .behind (onlyReads_expect _) fun _ => .behind (onlyReads_eat _) fun _ =>
      .ite (dates_usingDirective starts) (.behind onlyReads_aliasAhead fun _ =>
        .ite (dates_aliasDeclaration date.toReads starts) (.reads onlyReads_synchronize))
  have exported : Dates limit False hosts known (exportedDeclarations rules) :=
    .behind (onlyReads_skip 1) fun _ => .behind (onlyReads_eat _) fun _ =>
      .ite ((date.declarations true).always.bind fun _ => .behind (onlyReads_expect _) fun _ =>
        .pure _) date.declaration.always
  unfold keywordDeclaration
  split
  · exact dates_namespaceDeclaration date starts false
  · exact .ite (.behind (onlyReads_skip 1) fun _ => dates_namespaceDeclaration date starts true)
      simple
  · exact .ite (dates_linkageDeclaration date starts)
      (.ite (.reads onlyReads_synchronize) simple)
  · exact .ite (.behind (onlyReads_skip 1) fun _ => dates_templateDeclaration date starts true)
      exported
  · exact dates_templateDeclaration date starts false
  · exact uses
  · exact .reads onlyReads_synchronize
  · exact .reads onlyReads_synchronize
  · exact .ite (.reads (onlyReads_skip 2)) simple
  · exact .ite (.reads (onlyReads_skip 2)) simple
  · exact .ite (.reads (onlyReads_skip 2)) simple
  · exact simple

theorem dates_declaration (date : rules.Date limit) :
    Dates limit False hosts known (declaration rules) := by
  refine .behind onlyReads_skipAttributes fun _ => .atToken fun token =>
    .behind (onlyReads_ahead _) fun next => ?_
  split
  · exact .reads (onlyReads_skip 1)
  · exact dates_keywordDeclaration date List.mem_cons_self _ _
  · exact .ite (.reads onlyReads_synchronize) (dates_simpleDeclaration date List.mem_cons_self)
  · exact dates_simpleDeclaration date List.mem_cons_self

theorem dates_declarations (date : rules.Date limit) (closing : Bool) :
    Dates limit False hosts known (declarations rules closing) := by
  refine .iterate (fun start => .behind onlyReads_peek fun token => ?_) ()
  split
  · split
    · exact .after (resting_complain _ _) fun _ => .pure _
    · exact .pure _
  · refine .ite (.pure _) (.behind (onlyReads_skip 1) fun _ =>
      .after (resting_complain _ _) fun _ => .pure _)
  · refine (dates_declaration date).attempt.bind fun outcome => ?_
    cases outcome with
    | ok value => exact .pure _
    | error error =>
        exact .after (resting_report error) fun _ => .behind onlyReads_synchronize fun _ => .pure _

/-- Rules for any depth of nesting create nodes in order. -/
theorem date_ofDepth (limit depth : Nat) : (Rules.ofDepth depth).Date limit := by
  induction depth with
  | zero => exact ⟨steady_ofDepth 0, .reads .stuck, fun _ _ => .reads .stuck,
      fun _ => .reads .stuck, fun _ _ => trivial⟩
  | succ depth date =>
      exact ⟨steady_ofDepth (depth + 1), dates_declaration date,
        fun _ exported => dates_templateDeclaration date List.mem_cons_self exported,
        dates_declarations date, unrefused_declarations _⟩

end ParseM

/-! ## Parsed units -/

/-- At first there is the translation unit only. -/
theorem chronicle_empty (unit : UnitId) : Chronicle (Tree.empty unit).birth? := by
  constructor
  case closed =>
    intro id birth parent found around
    obtain ⟨node, there, rfl⟩ := Option.map_eq_some_iff.1 found
    obtain rfl := List.mem_singleton.1 (Array.mem_toList_iff.2 (Array.mem_of_getElem? there))
    cases around
  case ordered =>
    intro id other first second _ there before
    have only : other.index < 1 := Tree.lt_size_of_birth? there
    omega

theorem ParseState.dated_start (options : ParseOptions) (table : SymbolTable) (unit : UnitId)
    (source : String) : (ParseState.start options table unit source).Dated source.utf8ByteSize where
  sound := sound_startCursor options.dialect source
  aligned := aligned_startCursor options.dialect source
  chronicle := chronicle_empty unit
  started id birth found := by
    obtain ⟨node, there, rfl⟩ := Option.map_eq_some_iff.1 found
    obtain rfl := List.mem_singleton.1 (Array.mem_toList_iff.2 (Array.mem_of_getElem? there))
    exact Nat.zero_le _

/-- A parse of a whole unit creates nodes in order. -/
theorem ParseState.Finished.chronicle {options : ParseOptions} {table : SymbolTable}
    {unit : UnitId} {source : String} {final : ParseState}
    (finished : (ParseState.start options table unit source).Finished final) :
    Chronicle final.tree.birth? := by
  have dates : ParseM.Dates source.utf8ByteSize False [] [] ParseM.translationUnit :=
    .behind .get fun state => (ParseM.date_ofDepth _ _).declarations false
  have leads := dates _ (dated_start options table unit source) (stands_nil _)
  unfold ParseM.Leads ParseM.Meets at leads
  rw [finished.run] at leads
  exact leads.dated.chronicle

namespace Tree

variable {tree : Tree} {length line : Nat}

theorem birth?_finishRoot (tree : Tree) {id : NodeId} (inner : id ≠ root) :
    (tree.finishRoot length line).birth? id = tree.birth? id := by
  unfold birth? finishRoot
  rw [get?_update, if_neg (Ne.symm inner)]

section Geometry

variable {id other tag outer : NodeId} (rooted : tree.Rooted) (nested : tree.Nested length)
include rooted nested

theorem liesIn_outward (inward : Relation.ReflTransGen tree.Holds outer id)
    (present : tree.Has id) : tree.LiesIn id outer := by
  induction inward using Relation.ReflTransGen.head_induction_on with
  | refl => exact .refl present
  | head held _ inside => exact inside.trans (liesIn_of_holds rooted nested held)

/-- A node that starts in front of an earlier one covers what the earlier one stands inside, next
to it. -/
theorem within_of_starts_before (sequenced : tree.Sequenced) {first second node : Node}
    (found : tree.get? id = some first) (there : tree.get? other = some second)
    (known : tree.get? tag = some node) (before : id.index < other.index)
    (held : tree.Holds outer tag) (heldOther : tree.Holds outer other)
    (inward : Relation.ReflTransGen tree.Holds tag id)
    (earlier : second.range.startOffset < first.range.startOffset) :
    node.range.Within second.range := by
  have inner := ne_root_of_holds rooted held
  have reaches : tag.index ≤ id.index := by
    rcases Relation.reflTransGen_iff_eq_or_transGen.1 inward with rfl | deeper
    · exact Nat.le_refl _
    · exact Nat.le_of_lt (rooted.index_lt deeper)
  have below : id ≠ root := by
    rintro rfl
    exact absurd (Nat.lt_of_lt_of_le (rooted.inward outer tag held).1 reaches) (Nat.not_lt_zero _)
  rcases sequenced tag other node second known there inner (Nat.lt_of_le_of_lt reaches before)
    with front | within | deeper
  · obtain ⟨same, around, foundSame, foundTag, starts, ends⟩ :=
      liesIn_outward rooted nested inward (has_of_get? found)
    obtain rfl := Option.some.inj (foundSame.symm.trans found)
    obtain rfl := Option.some.inj (foundTag.symm.trans known)
    have covers := (nested.covered id same found below).1
    unfold SourceRange.Before at front
    omega
  · exact within
  · -- The other node stands next to it, so not inside.
    obtain ⟨middle, reachesMiddle, heldMiddle⟩ := Relation.TransGen.tail'_iff.1 deeper
    obtain rfl := rooted.unique other middle outer heldMiddle heldOther
    have outside := (rooted.inward middle tag held).1
    rcases Relation.reflTransGen_iff_eq_or_transGen.1 reachesMiddle with rfl | inside
    · exact absurd outside (Nat.lt_irrefl _)
    · exact absurd (Nat.lt_trans outside (rooted.index_lt inside)) (Nat.lt_irrefl _)

end Geometry

/-- Whether nodes stand in document order, apart from what declarators declare: a node that starts
in front of an earlier one is declared by a declarator, and covers a class or enum next to it,
which the earlier one is or stands inside.  So template declarations stand in document order. -/
structure Chronological (tree : Tree) : Prop where
  ordered : ∀ id other first second, tree.get? id = some first → tree.get? other = some second →
    id.index < other.index → first.range.startOffset ≤ second.range.startOffset ∨
      (second.kind.isDeclared = true ∧ ∃ tag node outer, tree.get? tag = some node ∧
        node.kind.isTag = true ∧ tree.Holds outer tag ∧ tree.Holds outer other ∧
          Relation.ReflTransGen tree.Holds tag id ∧ node.range.Within second.range)
  templates : tree.templateDecls.Pairwise fun id other => ∀ first second,
    tree.get? id = some first → tree.get? other = some second →
      first.range.startOffset ≤ second.range.startOffset

theorem pairwise_ids (tree : Tree) :
    tree.ids.Pairwise fun first second => first.index < second.index :=
  List.pairwise_map.2 List.pairwise_lt_range

/-- Nodes that no declarator declares stand in document order if only declarators depart from
it. -/
theorem pairwise_templateDecls (ordered : ∀ id other first second, tree.get? id = some first →
    tree.get? other = some second → id.index < other.index →
      first.range.startOffset ≤ second.range.startOffset ∨ second.kind.isDeclared = true) :
    tree.templateDecls.Pairwise fun id other => ∀ first second, tree.get? id = some first →
      tree.get? other = some second → first.range.startOffset ≤ second.range.startOffset := by
  refine (tree.pairwise_ids.filter _).imp_of_mem ?_
  intro id other _ member before first second found there
  refine (ordered id other first second found there before).resolve_right fun declared => ?_
  obtain ⟨_, template⟩ := List.mem_filter.1 member
  rw [there, Option.any_some] at template
  cases kind : second.kind <;> simp_all [NodeKind.isDeclared, NodeKind.templateDecl?]

section Finishing

variable {limit : Nat} (chronicle : Chronicle tree.birth?)
include chronicle

/-- A node that is created in another one is still there when the unit is finished. -/
theorem exists_of_birth {outer inner : NodeId} {birth : Birth}
    (nested : (tree.finishRoot length line).Nested limit) (found : tree.birth? inner = some birth)
    (stands : birth.parent = some outer) :
    (tree.finishRoot length line).Holds outer inner ∧
      ∃ node, (tree.finishRoot length line).get? inner = some node ∧ node.birth = birth := by
  have below : inner ≠ root := by
    rintro rfl
    exact absurd (chronicle.closed _ birth outer found stands).1 (Nat.not_lt_zero _)
  obtain ⟨node, there, rfl⟩ :=
    Option.map_eq_some_iff.1 ((birth?_finishRoot tree below).trans found)
  obtain ⟨parent, around, known, foundAround, member, _⟩ := nested.parent inner node there below
  obtain rfl := Option.some.inj (stands.symm.trans known)
  exact ⟨(holds_iff foundAround).2 member, node, there, rfl⟩

theorem chronological_finishRoot (rooted : (tree.finishRoot length line).Rooted)
    (nested : (tree.finishRoot length line).Nested limit)
    (sequenced : (tree.finishRoot length line).Sequenced) :
    (tree.finishRoot length line).Chronological := by
  have ordered (id other : NodeId) (first second : Node)
      (found : (tree.finishRoot length line).get? id = some first)
      (there : (tree.finishRoot length line).get? other = some second)
      (before : id.index < other.index) :
      first.range.startOffset ≤ second.range.startOffset ∨
        (second.kind.isDeclared = true ∧ ∃ tag node outer,
          (tree.finishRoot length line).get? tag = some node ∧ node.kind.isTag = true ∧
            (tree.finishRoot length line).Holds outer tag ∧
              (tree.finishRoot length line).Holds outer other ∧
                Relation.ReflTransGen (tree.finishRoot length line).Holds tag id ∧
                  node.range.Within second.range) := by
    by_cases top : id = root
    · obtain ⟨unit, foundUnit, _, starts, _⟩ := nested.whole
      rw [top, foundUnit] at found
      obtain rfl := Option.some.inj found
      exact .inl (starts ▸ Nat.zero_le _)
    · have below : other ≠ root := by
        rintro rfl
        exact absurd before (Nat.not_lt_zero _)
      have birth : tree.birth? id = some first.birth := by
        rw [← birth?_finishRoot tree top, birth?, found, Option.map_some]
      have birthOther : tree.birth? other = some second.birth := by
        rw [← birth?_finishRoot tree below, birth?, there, Option.map_some]
      rcases Nat.lt_or_ge second.range.startOffset first.range.startOffset with earlier | later
      · rcases chronicle.ordered id other _ _ birth birthOther before with
          early | ⟨declared, outer, parent, tag, birthTag, foundTag, isTag, parentTag, inward⟩
        · exact absurd earlier (Nat.not_lt.2 early)
        · obtain ⟨held, node, known, rfl⟩ := exists_of_birth chronicle nested foundTag parentTag
          have heldOther := (exists_of_birth chronicle nested birthOther parent).1
          have inside : Relation.ReflTransGen (tree.finishRoot length line).Holds tag id := by
            revert inward
            apply Relation.ReflTransGen.mono
            rintro around inner ⟨inward, foundInner, stands⟩
            exact (exists_of_birth chronicle nested foundInner stands).1
          have within := within_of_starts_before rooted nested sequenced found there known before
            held heldOther inside earlier
          exact .inr ⟨declared, tag, node, outer, known, isTag, held, heldOther, inside, within⟩
      · exact .inl later
  exact ⟨ordered, pairwise_templateDecls fun id other first second found there before =>
    (ordered id other first second found there before).imp_right And.left⟩

end Finishing

end Tree

/-- The nodes of a parsed unit stand in document order, apart from what declarators declare behind
a class or enum among their specifiers. -/
theorem chronological_parseUnit (options : ParseOptions) {table : SymbolTable}
    (reached : table.Reachable) (unit : UnitId) (source : String) :
    (parseUnit options table unit source).tree.Chronological := by
  obtain ⟨rooted, nested⟩ := rooted_parseUnit options reached unit source
  have sequenced := sequenced_parseUnit options reached unit source
  obtain ⟨final, finished⟩ := ParseState.exists_finished options reached unit source
  simp only [parseUnit, ParseState.parsed, ParseState.finish_eq finished]
    at rooted nested sequenced ⊢
  exact Tree.chronological_finishRoot finished.chronicle rooted nested sequenced

-- `B` starts with the declaration, in front of `A` and its member `x`, which are there before it.
example : ((parseSource "typedef struct A { int x; } B;").tree.nodes.map fun node =>
    node.range.startOffset) = #[0, 8, 19, 0] := by
  decide +kernel

/-- This is the order of the nodes of every unit whose source has less than 2 ^ 32 - 1 bytes. -/
theorem chronological_parseUnit? (options : ParseOptions) {table : SymbolTable}
    (reached : table.Reachable) (unit : UnitId) {source : String}
    (short : source.utf8ByteSize < counterRange - 1) :
    ∃ parsed, parseUnit? options table unit source = some parsed ∧ parsed.tree.Chronological :=
  ⟨_, parseUnit?_eq options table unit short, chronological_parseUnit options reached unit source⟩

/-- A name for a class that is defined in front of it, in a second unit. -/
theorem chronological_parseUnit?_second_unit :
    (parseSource "template<class T> void f(A<A<T>> x); int;").table.Reachable ∧
      "typedef struct A { int x; } B;".utf8ByteSize < counterRange - 1 ∧
      ∃ parsed, parseUnit? {} (parseSource "template<class T> void f(A<A<T>> x); int;").table ⟨1⟩
        "typedef struct A { int x; } B;" = some parsed ∧ parsed.tree.Chronological :=
  ⟨reachable_parseUnit {} .empty ⟨0⟩ _, by decide +kernel,
    chronological_parseUnit? {} (reachable_parseUnit {} .empty ⟨0⟩ _) ⟨1⟩ (by decide +kernel)⟩

end DeclTree
