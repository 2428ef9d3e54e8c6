import DeclTree.Proofs.SpecifierRun

/-!
# Templates in a run

The node of a template starts at its first word.  It holds the nodes of its parameters,
which start where they are written, and the declaration behind the prefix.
-/

namespace DeclTree

namespace ParseM

open Stage (Run)

variable {base : Nat} {stage : Stage} {rules : Rules}

/-! ## Parameters -/

theorem succeeds_amend (node : NodeId) (change : TemplateDecl → TemplateDecl)
    (same : ∀ found declaration, stage.state.tree.get? node = some found →
      found.kind = .template declaration → (change declaration).template = declaration.template) :
    Succeeds base (modify fun state =>
      { state with tree := state.tree.updateTemplate node change }) stage fun _ _ => True := by
  refine ⟨{ stage with state :=
    { stage.state with tree := stage.state.tree.updateTemplate node change } }, rfl, ?_⟩
  exact ⟨.single (.amend same), ⟨rfl, .refl _⟩, trivial⟩

theorem proceeds_templateParameter (steady : rules.Steady) (ready : stage.Ready base)
    {node : NodeId} (inside : stage.around = node) {template : SymbolId}
    (late : base ≤ template.index) :
    Proceeds base (templateParameter rules node template) stage fun _ _ => True := by
  apply Proceeds.within ready
  let waiting := stage.awaiting stage.state.cursor
  have awaits : Run base stage waiting := .single (.await ready.place)
  have readyWaiting := awaits.ready ready
  unfold templateParameter
  simp only [leads_peek]
  apply ((onlyReads_parameterHead steady.toReads).proceeds_giving
    (consumes_parameterHead steady.toReads readyWaiting.cursor)).bind readyWaiting
  intro head first followsHead read
  apply ((onlyReads_eat _).proceeds first).bind followsHead.ready
  intro hasDefault second followsMark _
  have rest (third : Stage) (follows : first.Follows base third) : Proceeds base (do
      let unit ← unit
      let symbol ← changeTable stage.state.cursor.peek.span fun table =>
        table.addParameter template
          { name := head.name.getD "", kind := .templateParameter head.kind, unit := some unit }
      let parameter ← addNodeUnder node
        (.templateParameter ⟨head.name, head.kind, head.type, some symbol, hasDefault,
          head.isVariadic⟩) stage.state.cursor.peek.span
      finishNode parameter
      modify fun state =>
        { state with
          tree := state.tree.updateTemplate node (TemplateDecl.addParameter · parameter) }) third
        fun _ _ => True := by
    simp only [leads_unit]
    let operation := TableOperation.addParameter template
      { name := head.name.getD "", kind := .templateParameter head.kind,
        unit := some third.state.tree.unit }
    have admitted : third.state.table.Admits operation := rfl
    have confined : operation.Confines base False := ⟨late, by simp⟩
    apply (proceeds_changeTable operation admitted confined rfl).bind follows.ready
    rintro symbol _ followsSymbol ⟨table, done, rfl⟩
    have declared := SymbolTable.declared_addParameter follows.ready.large rfl late done
    have whole := (followsHead.trans follows).trans followsSymbol
    have around : (third.withTable table).around = node := whole.leaves.around.trans inside
    have headThird : { start := stage.state.cursor } ∈ (third.withTable table).opened.head? := by
      rw [whole.leaves.opened]
      rfl
    have stands : (NodeKind.templateParameter ⟨head.name, head.kind, head.type, some symbol,
        hasDefault, head.isVariadic⟩).Stands base table := by
      refine .of_declared declared (by simp) (by simp) (by simp) rfl ?_
      intro given named
      have known : head.name = some given := named
      exact ⟨by rw [known]; rfl, rfl⟩
    rw [← around]
    apply Performs.bind whole.ready
      (performs_addNodeUnder (whole.ready.place_head headThird) stands)
    intro parameter fourth _ readyFourth enters
    have readFourth := enters.read (Nat.lt_of_le_of_lt (follows.trans followsSymbol).weight_le read)
    apply Performs.bind readyFourth (performs_finishNode readyFourth enters.opened readFourth)
    rintro _ fifth _ _ ⟨leaves, _⟩
    apply (succeeds_amend _ (TemplateDecl.addParameter · parameter) fun _ _ _ _ => rfl).mono
    · rintro _ last ⟨further, _⟩
      exact ⟨(enters.leaves leaves).trans (leaves.opened ▸ further), trivial⟩
    · intro _ refused
      exact refused.elim
  split
  · apply (onlyReads_skipParameterDefault.proceeds second).bind followsMark.ready
    intro _ third followsDefault _
    exact rest third (followsMark.trans followsDefault)
  · exact rest second followsMark

theorem proceeds_templateParameters (steady : rules.Steady) (ready : stage.Ready base)
    {node : NodeId} (inside : stage.around = node) {template : SymbolId}
    (late : base ≤ template.index) :
    Proceeds base (templateParameters rules node template) stage fun _ _ => True := by
  apply ((onlyReads_expect _).proceeds stage).bind ready
  intro _ first follows _
  simp only [leads_check]
  split
  · exact onlyReads_expectClosingAngle.proceeds first
  · have items : Proceeds base (iterate (templateParameterItem rules node template) ()) first
        fun _ _ => True := by
      apply proceeds_rounds follows.ready
      intro _ second further
      have whole := follows.trans further
      apply (proceeds_templateParameter steady whole.ready
        (whole.leaves.around.trans inside) late).bind whole.ready
      intro _ third _ _
      exact proceeds_separated
    apply items.bind follows.ready
    intro _ last _ _
    exact onlyReads_expectClosingAngle.proceeds last

/-! ## The declaration behind the prefix -/

theorem proceeds_templatedDeclaration (runs : rules.Runs base) (ready : stage.Ready base)
    (located : stage.Located) :
    Proceeds base (templatedDeclaration rules) stage fun _ _ => True := by
  apply (onlyReads_skipConstraint.proceeds stage).bind ready
  intro _ first follows _
  have locatedFirst := follows.leaves.located located
  simp only [leads_peek]
  split
  · -- A prefix behind this one has a node that starts at its own word.
    have nested : Proceeds base (rules.templateDeclaration first.state.cursor.peek.span false) first
        fun _ _ => True := by
      apply Proceeds.within follows.ready
      have awaits : Run base first (first.awaiting first.state.cursor) :=
        .single (.await follows.ready.place)
      exact runs.templateDeclaration _ _ false (awaits.ready follows.ready) locatedFirst
        ⟨_, rfl, rfl⟩
    apply nested.bind follows.ready
    intro _ last _ _
    exact proceeds_pure trivial
  · split
    · apply succeeds_synchronize.proceeds.bind follows.ready
      intro _ last _ _
      exact proceeds_pure trivial
    · apply (runs.declaration first follows.ready locatedFirst).bind follows.ready
      intro _ last _ _
      exact proceeds_pure trivial

theorem proceeds_templateContent (runs : rules.Runs base) (ready : stage.Ready base)
    (located : stage.Located) {node : NodeId} (inside : stage.around = node) {template : SymbolId}
    (late : base ≤ template.index) :
    Proceeds base (templateContent rules node template) stage fun _ _ => True := by
  apply (proceeds_templateParameters runs.toSteady ready inside late).bind ready
  intro _ first follows _
  exact proceeds_templatedDeclaration runs follows.ready (follows.leaves.located located)

/-! ## Opening and closing -/

theorem proceeds_prefixFactory (ready : stage.Ready base) (span : Span) :
    Proceeds base (prefixFactory span) stage fun _ _ => True := by
  unfold prefixFactory
  simp only [leads_frame]
  split
  · exact proceeds_pure trivial
  · let operation := TableOperation.factoryFor stage.state.scopes.inner.symbol
    have admitted : stage.state.table.Admits operation := trivial
    apply (proceeds_changeTable operation admitted trivial rfl).bind ready
    intro _ last _ _
    exact proceeds_pure trivial

theorem succeeds_discardPending (factory : FactoryId) (template : SymbolId) (start : Span)
    (parsed : Except ParseError Bool) :
    Succeeds base (discardPending factory template start parsed) stage fun _ _ => True := by
  unfold discardPending
  simp only [leads_table]
  split
  · let operation := TableOperation.discardFrames factory template
    have admitted : stage.state.table.Admits operation := trivial
    have step : Run base stage (stage.withTable (stage.state.table.perform operation)) :=
      .single (.change admitted trivial)
    apply performs_setTable step
    split
    · apply (succeeds_complain .nothingDeclared start).mono
      · rintro _ last ⟨leaves, _⟩
        exact ⟨⟨leaves.opened, leaves.scopes⟩, trivial⟩
      · intro _ refused
        exact refused
    · exact performs_pure ⟨⟨rfl, .refl _⟩, trivial⟩
  · exact succeeds_pure trivial

/-- Attaching the owned declaration does not change which template a node is. -/
theorem succeeds_bindOwned (node : NodeId) :
    Succeeds base (bindOwned node) stage fun _ _ => True := by
  unfold bindOwned
  simp only [leads_get]
  split
  · exact succeeds_pure trivial
  · split
    · exact succeeds_pure trivial
    · rename_i owned _ declaration known
      split
      · rename_i bound done
        refine succeeds_amend node (fun _ => bound) ?_
        intro found same there kind
        have here : declaration = same := by
          rw [there, Option.bind_some, kind] at known
          exact (Option.some.inj known).symm
        rw [← here]
        unfold TemplateDecl.bind at done
        split at done
        · rw [← Except.ok.inj done]
        · cases done
      · exact succeeds_complain _ _

theorem proceeds_openedTemplate (runs : rules.Runs base) (ready : stage.Ready base)
    (located : stage.Located) {opening : Opening} (head : opening ∈ stage.opened.head?)
    (read : stage.state.cursor.weight < opening.start.weight) (exported : Bool) :
    Proceeds base (openedTemplate rules opening.start.peek.span exported) stage
      fun _ _ => True := by
  apply ((onlyReads_checkNesting _).proceeds stage).bind ready
  intro _ first followsNesting _
  apply (proceeds_prefixFactory followsNesting.ready _).bind followsNesting.ready
  rintro ⟨factory, container⟩ second followsFactory _
  simp only [leads_unit]
  let operation := TableOperation.openTemplate factory (some second.state.tree.unit)
  have admitted : second.state.table.Admits operation := trivial
  apply (proceeds_changeTable operation admitted trivial rfl).bind followsFactory.ready
  rintro template _ followsTemplate ⟨table, done, rfl⟩
  have declared := SymbolTable.declared_openTemplate followsFactory.ready.large done
  have follows := (followsNesting.trans followsFactory).trans followsTemplate
  simp only [leads_frame]
  refine proceeds_node follows.ready (follows.leaves.located located)
    (follows.leaves.opened ▸ head) ?_ ?_
  · exact .of_declared declared (by simp) (by simp) (by simp) rfl (by rintro _ ⟨⟩)
  · intro node inside enters readyInside
    apply performs_scope readyInside enters.around
    · intro inner readyInner locatedInner around
      have content :=
        proceeds_templateContent runs readyInner locatedInner around declared.late
      exact content.attempt.mono (fun _ _ reached => ⟨reached.1, trivial⟩) fun _ refused => refused
    · intro parsed outside followsContent
      apply (succeeds_discardPending factory template _ parsed).bind followsContent.ready
      intro _ third followsGiven _
      apply (succeeds_bindOwned node).bind followsGiven.ready
      intro _ fourth followsOwned _
      have whole := (followsContent.trans followsGiven).trans followsOwned
      have readInside := enters.read (Nat.lt_of_le_of_lt follows.weight_le read)
      exact performs_finishResume whole enters.opened readInside fun _ _ leaves =>
        performs_pure leaves

/-- A template declaration inside a declaration that waits at its first word. -/
theorem proceeds_templateDeclaration (runs : rules.Runs base) (ready : stage.Ready base)
    (located : stage.Located) {start : Span} (starts : stage.Starts start) (exported : Bool) :
    Proceeds base (templateDeclaration rules start exported) stage fun _ _ => True := by
  obtain ⟨opening, head, rfl⟩ := starts
  apply proceeds_introduced (by simp) ready located head
  intro _ after readyAfter locatedAfter headAfter read
  simp only [leads_check]
  split
  · exact proceeds_openedTemplate runs readyAfter locatedAfter headAfter read exported
  · exact succeeds_synchronize.proceeds.imp fun _ _ _ => trivial

end ParseM

end DeclTree
