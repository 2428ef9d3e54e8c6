import DeclTree.Proofs.SpecifierRun

/-!
# Functions, variables and names for types in a run

The node of a declarator is started where the declaration starts, or at the declarator
itself behind a comma, and outlives the rule that starts it: it is finished with the
declaration, unless a function body has ended it.  The parameters of a function get
their nodes when all of them have been read.
-/

namespace DeclTree

/-- What a declarator leaves behind: a node that waits for the end of the declaration,
or a function that is finished. -/
inductive InitDeclarator.Left (stage : Stage) (start : Cursor) : InitDeclarator → Stage → Prop
  | waiting {node : NodeId} {after : Stage}
      (leaves : stage.Leaves (⟨start, some node⟩ :: stage.opened) after)
      (read : after.state.cursor.weight < start.weight) : Left stage start ⟨some node, false⟩ after
  | ended {after : Stage} (leaves : stage.Leaves stage.opened after) :
      Left stage start ⟨none, true⟩ after

theorem InitDeclarator.Left.behind {base : Nat} {stage after last : Stage} {start : Cursor}
    {declared : InitDeclarator} (left : declared.Left stage start after)
    (follows : after.Follows base last) : declared.Left stage start last := by
  cases left with
  | waiting leaves read =>
      exact .waiting (leaves.trans (leaves.opened ▸ follows.leaves))
        (Nat.lt_of_le_of_lt follows.weight_le read)
  | ended leaves => exact .ended (leaves.trans (leaves.opened ▸ follows.leaves))

theorem InitDeclarator.Left.lead {base : Nat} {stage after last : Stage} {start : Cursor}
    {declared : InitDeclarator} (follows : stage.Follows base after)
    (left : declared.Left after start last) : declared.Left stage start last := by
  have opened := follows.leaves.opened
  cases left with
  | waiting leaves read => exact .waiting (follows.leaves.trans (opened ▸ leaves)) read
  | ended leaves => exact .ended (follows.leaves.trans (opened ▸ leaves))

namespace Stage

variable {base : Nat} {stage after last : Stage}

theorem Stays.trans (left : stage.Stays after) (right : after.Stays last) : stage.Stays last :=
  ⟨right.cursor.trans left.cursor, right.settled.trans left.settled⟩

/-- What lies ahead of the finished nodes and has been read: the parameters of a function
that have no nodes yet. -/
structure Awaits (stage : Stage) (parameters : List ParsedParameter) (here : Cursor) : Prop where
  settled : stage.settled.Moves here
  inside : ∀ opening ∈ stage.opened, opening.start.Moves here
  passes : here.Passes parameters stage.state.cursor

theorem Awaits.reads {parameters : List ParsedParameter} {here : Cursor}
    (awaits : stage.Awaits parameters here) (reads : stage.Reads after) :
    after.Awaits parameters here where
  settled := by
    rw [reads.settled]
    exact awaits.settled
  inside := by
    rw [reads.opened]
    exact awaits.inside
  passes := awaits.passes.follow reads.state.1

theorem Awaits.stays {parameters : List ParsedParameter} {here : Cursor}
    (awaits : stage.Awaits parameters here) (stays : stage.Stays after)
    (inside : ∀ opening ∈ after.opened, opening.start.Moves here) :
    after.Awaits parameters here where
  settled := by
    rw [stays.settled]
    exact awaits.settled
  inside := inside
  passes := by
    rw [stays.cursor]
    exact awaits.passes

end Stage

namespace ParseM

open Stage (Run)

variable {base : Nat} {stage : Stage} {rules : Rules}

/-! ## Function parameters -/

theorem succeeds_parameterSymbol (ready : stage.Ready base) (function : SymbolId)
    (parameter : ParsedParameter) :
    Succeeds base (parameterSymbol function parameter) stage fun symbol after =>
      stage.Stays after ∧ ∀ id, symbol = some id → ∃ name, parameter.name = some name ∧
        after.state.table.Declared base name .parameter id := by
  unfold parameterSymbol
  split
  · exact succeeds_pure ⟨⟨rfl, rfl⟩, by simp⟩
  · rename_i name named
    simp only [leads_unit]
    let operation := TableOperation.declare function
      { name := name, kind := .parameter, unit := some stage.state.tree.unit }
    have admitted : stage.state.table.Admits operation := rfl
    have confined : operation.Confines base False := by simp [operation, TableOperation.Confines]
    apply Performs.bind ready
      (performs_changeTable operation admitted confined rfl).attempt
    rintro outcome after _ _ ⟨accepted, refused⟩
    cases outcome with
    | ok symbol =>
        obtain ⟨table, done, rfl⟩ := accepted symbol rfl
        have declared := SymbolTable.declared_declare ready.large done
        refine performs_pure ⟨⟨rfl, .refl _⟩, ⟨rfl, rfl⟩, ?_⟩
        rintro _ ⟨⟩
        exact ⟨name, named, declared⟩
    | error error =>
        obtain rfl := refused error rfl
        apply (succeeds_report error).bind ready
        rintro _ _ _ rfl
        exact performs_pure ⟨⟨rfl, .refl _⟩, ⟨rfl, rfl⟩, by simp⟩

/-- The node of a parameter covers what was read of it. -/
theorem succeeds_addParameter (ready : stage.Ready base) {node : NodeId}
    (around : stage.around = node) (function : SymbolId) {parameter : ParsedParameter}
    {first last : Cursor} (settled : stage.settled.Moves first)
    (inside : ∀ opening ∈ stage.opened, opening.start.Moves first)
    (moves : first.Moves last) (read : last.weight < first.weight)
    (passed : last.Moves stage.state.cursor) (opens : parameter.start = first.peek.span)
    (closes : parameter.last = last.previousSpan) :
    Succeeds base (addParameter node function parameter) stage fun _ after =>
      after.settled = last ∧ after.state.cursor = stage.state.cursor := by
  apply (succeeds_parameterSymbol ready function parameter).bind ready
  rintro symbol second follows ⟨stays, declared⟩
  have place : second.Place first := by
    refine ⟨?_, ?_, .inl ?_⟩
    · rw [follows.leaves.opened]
      exact inside
    · rw [stays.cursor]
      exact moves.trans passed
    · rw [stays.settled]
      exact settled
  have stands : (NodeKind.parameter ⟨parameter.name, parameter.type, symbol, parameter.hasDefault,
      parameter.isVariadic⟩).Stands base second.state.table := by
    cases symbol with
    | none => exact .of_none rfl (by simp)
    | some id =>
        obtain ⟨name, named, added⟩ := declared id rfl
        refine .of_declared added (by simp) (by simp) (by simp) rfl ?_
        intro given same
        exact ⟨Option.some.inj (same.symm.trans named), rfl⟩
  rw [opens, closes, ← around, ← follows.leaves.around]
  apply Performs.bind follows.ready (performs_addNodeUnder place stands)
  intro entered third _ _ enters
  refine ⟨third.finished entered last second.opened, rfl, ?_, ?_⟩
  · refine .single (.finish enters.opened ?_ ?_ moves read)
    · rw [enters.settled, stays.settled]
      exact settled.trans moves
    · rw [enters.cursor, stays.cursor]
      exact passed
  · have leaves : second.Leaves second.opened (third.finished entered last second.opened) :=
      enters.leaves ⟨rfl, .refl _⟩
    refine ⟨follows.leaves.trans (follows.leaves.opened ▸ leaves), rfl, ?_⟩
    exact enters.cursor.trans stays.cursor

theorem succeeds_addParameters {node : NodeId} (function : SymbolId)
    {parameters : List ParsedParameter} :
    ∀ {stage : Stage} {here : Cursor}, stage.Ready base → stage.around = node →
      stage.Awaits parameters here →
        Succeeds base (addParameters node function parameters) stage fun _ after =>
          after.state.cursor = stage.state.cursor := by
  induction parameters with
  | nil =>
      intro stage here _ _ _
      exact succeeds_pure rfl
  | cons parameter rest ih =>
      intro stage here ready around awaits
      obtain ⟨settled, inside, passes⟩ := awaits
      cases passes with
      | @cons _ first last _ _ _ lead moves read opens closes others =>
          have insideFirst : ∀ opening ∈ stage.opened, opening.start.Moves first :=
            fun opening member => (inside opening member).trans lead
          apply (succeeds_addParameter ready around function (settled.trans lead) insideFirst moves
            read others.moves opens closes).bind ready
          rintro _ second follows ⟨settledSecond, cursorSecond⟩
          have awaitsSecond : second.Awaits rest last := by
            refine ⟨?_, ?_, ?_⟩
            · rw [settledSecond]
              exact .refl _
            · rw [follows.leaves.opened]
              exact fun opening member => (insideFirst opening member).trans moves
            · rw [cursorSecond]
              exact others
          apply (ih follows.ready (follows.leaves.around.trans around) awaitsSecond).mono
          · rintro _ after ⟨leaves, same⟩
            exact ⟨follows.leaves.trans (follows.leaves.opened ▸ leaves), same.trans cursorSecond⟩
          · intro _ refused
            exact refused

/-! ## Declarators -/

/-- A declarator whose node starts where a declaration does that the parse is inside. -/
abbrev Binds (base : Nat) (parse : ParseM InitDeclarator) (stage : Stage) (start : Cursor) :
    Prop :=
  Performs base parse stage (fun declared after => declared.Left stage start after)
    (stage.Leaves stage.opened)

theorem Proceeds.binds {α : Type} {first : ParseM α} {rest : α → ParseM InitDeclarator}
    {middle : α → Stage → Prop} {start : Cursor} (proceeds : Proceeds base first stage middle)
    (ready : stage.Ready base)
    (continued : ∀ value after, stage.Follows base after → middle value after →
      Binds base (rest value) after start) : Binds base (first >>= rest) stage start := by
  apply Performs.bind ready proceeds
  rintro value after run readyAfter ⟨leaves, reached⟩
  have follows : stage.Follows base after := ⟨run, readyAfter, leaves⟩
  apply (continued value after follows reached).mono
  · intro declared last left
    exact left.lead follows
  · intro last further
    exact leaves.trans (leaves.opened ▸ further)

/-- A declarator that gets a node and waits. -/
theorem binds_node (ready : stage.Ready base) (located : stage.Located) {opening : Opening}
    (head : opening ∈ stage.opened.head?) (read : stage.state.cursor.weight < opening.start.weight)
    {kind : NodeKind} (stands : kind.Stands base stage.state.table) :
    Binds base (do
      let node ← addNode kind opening.start.peek.span
      return ⟨some node, false⟩) stage opening.start := by
  apply Performs.bind ready (performs_addNode ready located head stands)
  intro node inside _ _ enters
  apply performs_pure
  apply InitDeclarator.Left.waiting (enters.leaves ⟨enters.opened, .refl _⟩)
  rw [enters.cursor]
  exact read

theorem binds_functionBody (ready : stage.Ready base) {start : Cursor} {node : NodeId}
    {outer : List Opening} (running : stage.opened = ⟨start, some node⟩ :: outer)
    (read : stage.state.cursor.weight < start.weight) :
    Performs base (functionBody node) stage
      (fun declared after => declared = ⟨none, true⟩ ∧ stage.Leaves outer after)
      (stage.Leaves outer) := by
  apply (onlyReads_skipBody.proceeds stage).attempt.bind ready
  intro skipped first follows _
  exact performs_finishResume follows running read fun _ _ leaves => performs_pure ⟨rfl, leaves⟩

/-- A function from behind its parameters, which get their nodes inside its own. -/
theorem binds_functionRest (reads : rules.Reads) (ready : stage.Ready base)
    (located : stage.Located) {opening : Opening} (head : opening ∈ stage.opened.head?)
    (read : stage.state.cursor.weight < opening.start.weight) {parameters : List ParsedParameter}
    {here : Cursor} (awaits : stage.Awaits parameters here) (specs : DeclSpecs)
    (declarator : Declarator) (id : DeclaratorId) :
    Binds base (functionRest rules specs declarator id parameters opening.start.peek.span) stage
      opening.start := by
  apply ((OnlyReads.iterate (onlyReads_functionItem reads) _).reading stage).binds ready
  intro tail first followsTail readTail
  apply (onlyReads_functionMark.reading first).binds followsTail.ready
  intro given second followsMark readMark
  apply (onlyReads_bodyAhead.reading second).binds followsMark.ready
  intro hasBody third followsBody readBody
  apply ((onlyReads_qualifierScope id).reading third).binds followsBody.ready
  intro scope fourth followsScope readScope
  apply (proceeds_declare followsScope.ready rfl (by simp) scope id.span).binds
    followsScope.ready
  rintro symbol fifth followsSymbol ⟨declared, stays⟩
  have follows :=
    (((followsTail.trans followsMark).trans followsBody).trans followsScope).trans followsSymbol
  have awaitsFourth := (((awaits.reads readTail).reads readMark).reads readBody).reads readScope
  have headFifth : opening ∈ fifth.opened.head? := follows.leaves.opened ▸ head
  have stands (returnType : Option TypeRef) (specifiers : Specifiers) (defined : Bool) :
      (NodeKind.function ⟨id.name, id.qualifier.map Qualifier.text, returnType, specifiers, symbol,
        defined⟩).Stands base fifth.state.table :=
    .of_declared declared (by simp) (by simp) (by simp) rfl (by rintro _ ⟨⟩; exact ⟨rfl, rfl⟩)
  apply Performs.bind follows.ready
    (performs_addNode follows.ready (follows.leaves.located located) headFifth (stands _ _ _))
  intro node inside _ readyInside enters
  have readInside := enters.read (Nat.lt_of_le_of_lt follows.weight_le read)
  have awaitsInside : inside.Awaits parameters here := by
    apply awaitsFourth.stays (stays.trans enters.toStays)
    intro other member
    rw [enters.opened] at member
    rcases List.mem_cons.1 member with rfl | outer
    · exact awaits.inside opening (List.mem_of_mem_head? head)
    · exact awaits.inside other (follows.leaves.opened ▸ outer)
  apply (succeeds_addParameters symbol readyInside enters.around awaitsInside).bind readyInside
  intro _ sixth followsParameters same
  have running := followsParameters.leaves.opened.trans enters.opened
  have readSixth : sixth.state.cursor.weight < opening.start.weight := by
    rw [same]
    exact readInside
  have leavesSixth := enters.leaves followsParameters.leaves
  split
  · apply (binds_functionBody followsParameters.ready running readSixth).mono
    · rintro _ last ⟨rfl, leaves⟩
      exact .ended (leavesSixth.trans leaves)
    · intro last leaves
      exact leavesSixth.trans leaves
  · exact performs_pure (.waiting (enters.opened ▸ leavesSixth) readSixth)

theorem binds_typedefDeclarator (ready : stage.Ready base) (located : stage.Located)
    {opening : Opening} (head : opening ∈ stage.opened.head?)
    (read : stage.state.cursor.weight < opening.start.weight) (specs : DeclSpecs)
    (declarator : Declarator) (id : DeclaratorId) :
    Binds base (typedefDeclarator specs declarator id opening.start.peek.span) stage
      opening.start := by
  apply (proceeds_declare ready rfl (by simp) none id.span).binds ready
  rintro symbol first follows ⟨declared, _⟩
  apply binds_node follows.ready (follows.leaves.located located) (follows.leaves.opened ▸ head)
    (Nat.lt_of_le_of_lt follows.weight_le read)
  exact .of_declared declared (by simp) (by simp) (by simp) rfl (by rintro _ ⟨⟩; exact ⟨rfl, rfl⟩)

theorem binds_variableDeclarator (ready : stage.Ready base) (located : stage.Located)
    {opening : Opening} (head : opening ∈ stage.opened.head?)
    (read : stage.state.cursor.weight < opening.start.weight) (specs : DeclSpecs)
    (declarator : Declarator) (id : DeclaratorId) :
    Binds base (variableDeclarator specs declarator id opening.start.peek.span) stage
      opening.start := by
  have rest (first : Stage) (follows : stage.Follows base first) : Binds base (do
      let hasInitializer ← initializer declarator
      let scope ← qualifierScope id
      let declarationOnly ← isDeclarationOnly specs id hasInitializer
      let symbol ← declare
        { name := id.name
          kind := .var
          defined := !declarationOnly
          specialization := id.hasArguments } scope id.span
      let node ← addNode
        (.var ⟨id.name, id.qualifier.map Qualifier.text, specs.typeRef declarator,
          specs.specifiers, symbol, hasInitializer⟩) opening.start.peek.span
      return ⟨some node, false⟩) first opening.start := by
    apply ((onlyReads_initializer declarator).proceeds first).binds follows.ready
    intro hasInitializer second followsInitializer _
    apply ((onlyReads_qualifierScope id).proceeds second).binds followsInitializer.ready
    intro scope third followsScope _
    apply ((onlyReads_isDeclarationOnly specs id hasInitializer).proceeds third).binds
      followsScope.ready
    intro declarationOnly fourth followsChoice _
    apply (proceeds_declare followsChoice.ready rfl (by simp) scope id.span).binds
      followsChoice.ready
    rintro symbol fifth followsSymbol ⟨declared, _⟩
    have whole := (((follows.trans followsInitializer).trans followsScope).trans
      followsChoice).trans followsSymbol
    apply binds_node whole.ready (whole.leaves.located located) (whole.leaves.opened ▸ head)
      (Nat.lt_of_le_of_lt whole.weight_le read)
    exact .of_declared declared (by simp) (by simp) (by simp) rfl
      (by rintro _ ⟨⟩; exact ⟨rfl, rfl⟩)
  apply ((onlyReads_eat _).proceeds stage).binds ready
  intro hasWidth first follows _
  split
  · apply ((onlyReads_skipExpression _).proceeds first).binds follows.ready
    intro _ second followsWidth _
    exact rest second (follows.trans followsWidth)
  · exact rest first follows

theorem binds_dataDeclarator (ready : stage.Ready base) (located : stage.Located)
    {opening : Opening} (head : opening ∈ stage.opened.head?)
    (read : stage.state.cursor.weight < opening.start.weight) (specs : DeclSpecs)
    (declarator : Declarator) (id : DeclaratorId) :
    Binds base (dataDeclarator specs declarator id opening.start.peek.span) stage
      opening.start := by
  unfold dataDeclarator
  split
  · exact ⟨stage, rfl, .refl, .refl stage⟩
  · split
    · exact binds_typedefDeclarator ready located head read specs declarator id
    · exact binds_variableDeclarator ready located head read specs declarator id

/-- A declarator with what follows it. -/
theorem binds_initDeclarator (steady : rules.Steady) (ready : stage.Ready base)
    (located : stage.Located) {opening : Opening} (head : opening ∈ stage.opened.head?)
    (specs : DeclSpecs) :
    Binds base (initDeclarator rules specs opening.start.peek.span) stage opening.start := by
  have started : opening.start.Moves stage.state.cursor :=
    ready.opened opening (List.mem_of_mem_head? head)
  apply ((onlyReads_declarator steady.toReads .named).proceeds_reading
    (gives_declarator steady ready.cursor .named)).binds ready
  rintro declarator first follows ⟨reads, passes, named⟩
  have read : first.state.cursor.weight < opening.start.weight :=
    Nat.lt_of_lt_of_le (named rfl) started.weight_le
  have locatedFirst := follows.leaves.located located
  have headFirst : opening ∈ first.opened.head? := follows.leaves.opened ▸ head
  split
  · exact ⟨first, rfl, .refl, .refl first⟩
  · rename_i id _
    split
    · rename_i parameters found
      split
      · exact binds_dataDeclarator follows.ready locatedFirst headFirst read specs declarator id
      · have awaits : first.Awaits parameters stage.state.cursor := by
          refine ⟨?_, ?_, passes parameters found⟩
          · rw [reads.settled]
            exact ready.settled
          · rw [reads.opened]
            exact ready.opened
        exact binds_functionRest steady.toReads follows.ready locatedFirst headFirst read awaits
          specs declarator id
    · exact binds_dataDeclarator follows.ready locatedFirst headFirst read specs declarator id

/-! ## Declarations -/

theorem performs_finishDeclarator {declared : InitDeclarator} {start : Cursor} {after : Stage}
    (ready : after.Ready base) (left : declared.Left stage start after) {refusal : Stage → Prop} :
    Performs base (finishDeclarator declared) after (fun _ last => stage.Leaves stage.opened last)
      refusal := by
  cases left with
  | waiting leaves read =>
      apply (performs_finishNode ready leaves.opened read).mono
      · rintro _ last ⟨further, _⟩
        exact leaves.trans further
      · intro _ refused
        exact refused
  | ended leaves => exact performs_pure leaves

/-- One declarator inside a declaration that waits where the declarator's node starts.
Behind a comma the next one starts at the next token. -/
theorem proceeds_declaratorItem (steady : rules.Steady) (ready : stage.Ready base)
    (located : stage.Located) {opening : Opening} (head : opening ∈ stage.opened.head?)
    (specs : DeclSpecs) :
    Proceeds base (declaratorItem rules specs opening.start.peek.span) stage fun outcome after =>
      ∀ start, outcome = .again start → start = after.state.cursor.peek.span := by
  apply Performs.bind ready (binds_initDeclarator steady ready located head specs)
  intro declared first _ readyFirst left
  split
  · rename_i hasBody
    cases left with
    | waiting => cases hasBody
    | ended leaves => exact performs_pure ⟨leaves, by simp⟩
  · simp only [leads_check]
    split
    · apply Performs.bind readyFirst (performs_finishDeclarator readyFirst left)
      intro _ second _ _ leaves
      apply performs_skip_one
      simp only [leads_peek]
      refine performs_pure ⟨leaves.trans (leaves.opened ▸ second.reads_next.leaves), ?_⟩
      rintro _ ⟨⟩
      rfl
    · apply ((onlyReads_expect _).proceeds first).attempt.bind readyFirst
      intro terminated second follows _
      apply Performs.bind follows.ready
        (performs_finishDeclarator follows.ready (left.behind follows))
      intro _ third _ _ leaves
      cases terminated with
      | error error => exact ⟨third, rfl, .refl, leaves⟩
      | ok _ => exact performs_pure ⟨leaves, by simp⟩

theorem proceeds_declareForward (ready : stage.Ready base) (forward : ForwardTag) :
    Proceeds base (declareForward forward) stage fun _ _ => True := by
  have plain : forward.kind.symbolKind.templateInfo? = none := by
    cases forward.kind <;> rfl
  have proper : forward.kind.symbolKind ≠ .namespaceScope := by
    cases forward.kind <;> simp [TagKind.symbolKind]
  apply ((onlyReads_pathScope forward.path).proceeds stage).bind ready
  intro scope first follows _
  apply (proceeds_declare follows.ready plain proper scope forward.path.span).bind follows.ready
  intro _ last _ _
  exact proceeds_pure trivial

/-- The declarators of a declaration, each of which may get a node. -/
theorem proceeds_declarators (steady : rules.Steady) (ready : stage.Ready base)
    (located : stage.Located) {start : Span} (starts : stage.Starts start) (specs : DeclSpecs) :
    Proceeds base (iterate (declaratorItem rules specs) start) stage fun _ _ => True := by
  obtain ⟨opening, head, rfl⟩ := starts
  refine proceeds_iterate ready (fun start after => ∃ place : Cursor,
    after.Place place ∧ place.peek.span = start) ⟨_, ready.place_head head, rfl⟩ ?_
  rintro _ after follows ⟨place, placed, rfl⟩
  have awaits : Run base after (after.awaiting place) := .single (.await placed)
  have locatedAfter : (after.awaiting place).Located := follows.leaves.located located
  have item := Proceeds.awaiting placed
    (fun outcome next => ∀ start, outcome = Step.again start → start = next.cursor.peek.span)
    (proceeds_declaratorItem steady (awaits.ready follows.ready) locatedAfter rfl specs)
  apply (item.ready follows.ready).imp
  rintro outcome last ⟨readyLast, next⟩
  cases outcome with
  | again start => exact ⟨last.state.cursor, readyLast.place, (next start rfl).symm⟩
  | done => trivial

/-- A declaration of specifiers and declarators inside a declaration that waits at its
first token. -/
theorem proceeds_simpleDeclaration (runs : rules.Runs base) (ready : stage.Ready base)
    (located : stage.Located) {start : Span} (starts : stage.Starts start) :
    Proceeds base (simpleDeclaration rules start) stage fun _ _ => True := by
  apply (proceeds_specifiers runs ready located).bind ready
  intro specs first follows _
  split
  · exact succeeds_synchronize.proceeds.imp fun _ _ _ => trivial
  · apply performs_ifEat
    · intro _
      apply Proceeds.behind _ first.reads_next.leaves
      split
      · exact proceeds_declareForward (first.reads_next.follows follows.ready).ready _
      · exact proceeds_pure trivial
    · intro _
      exact proceeds_declarators runs.toSteady follows.ready (follows.leaves.located located)
        (follows.leaves.starts starts) specs

end ParseM

end DeclTree
