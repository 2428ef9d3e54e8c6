import DeclTree.Proofs.BindingRun

/-!
# Classes, enums and specifiers in a run

A class or enum with a body is declared among the specifiers of a declaration.  Its node
starts at the word that introduces it and ends with its body.
-/

namespace DeclTree

/-- Rules that leave the declarations a parse is inside as they are. -/
structure Rules.Runs (base : Nat) (rules : Rules) : Prop extends rules.Steady where
  declaration : ∀ stage : Stage, stage.Ready base → stage.Located →
    ParseM.Proceeds base rules.declaration stage fun _ _ => True
  templateDeclaration : ∀ (stage : Stage) (start : Span) (exported : Bool), stage.Ready base →
    stage.Located → stage.Starts start →
      ParseM.Proceeds base (rules.templateDeclaration start exported) stage fun _ _ => True
  declarations : ∀ (stage : Stage) (closing : Bool), stage.Ready base → stage.Located →
    ParseM.Succeeds base (rules.declarations closing) stage fun _ _ => True

namespace ParseM

open Stage (Run)

variable {base : Nat} {stage : Stage} {rules : Rules}

/-! ## Classes -/

theorem performs_classBody (runs : rules.Runs base) (ready : stage.Ready base) {start : Cursor}
    {node : NodeId} {outer : List Opening} (running : stage.opened = ⟨start, some node⟩ :: outer)
    (read : stage.state.cursor.weight < start.weight) (name : String) (symbol : SymbolId) :
    Performs base (classBody rules name symbol node) stage
      (fun _ after => stage.Leaves outer after) (stage.Leaves outer) := by
  apply ((onlyReads_expect _).proceeds stage).attempt.bind ready
  intro opened after follows _
  split
  · exact performs_finishNode_resume follows running read _
  · have around : after.around = node := by
      unfold Stage.around
      rw [follows.leaves.opened, running]
      rfl
    apply performs_scope follows.ready around
    · intro inner readyInner locatedInner _
      exact runs.declarations inner true readyInner locatedInner
    · intro _ inside further
      apply (succeeds_eat _).bind further.ready
      intro _ last final _
      have whole := (follows.trans further).trans final
      have runningLast := whole.leaves.opened.trans running
      have readLast := Nat.lt_of_le_of_lt whole.weight_le read
      apply (performs_finishNode whole.ready runningLast readLast).mono
      · rintro _ finished ⟨leaves, _⟩
        exact whole.leaves.trans leaves
      · intro finished leaves
        exact leaves

/-- A node that is started inside the innermost declaration and finished by the rest. -/
theorem proceeds_node {α : Type} (ready : stage.Ready base) (located : stage.Located)
    {opening : Opening} (head : opening ∈ stage.opened.head?) {kind : NodeKind}
    (stands : kind.Stands base stage.state.table) {rest : NodeId → ParseM α}
    (continued : ∀ node inside, stage.Enters opening.start node inside → inside.Ready base →
      Performs base (rest node) inside (fun _ after => inside.Leaves stage.opened after)
        (inside.Leaves stage.opened)) :
    Proceeds base (addNode kind opening.start.peek.span >>= rest) stage fun _ _ => True := by
  apply Performs.bind ready (performs_addNode ready located head stands)
  intro node inside _ readyInside enters
  apply (continued node inside enters readyInside).mono
  · intro _ after leaves
    exact ⟨enters.leaves leaves, trivial⟩
  · intro after leaves
    exact enters.leaves leaves

theorem proceeds_classDefinition (runs : rules.Runs base) (ready : stage.Ready base)
    (located : stage.Located) {opening : Opening} (head : opening ∈ stage.opened.head?)
    (read : stage.state.cursor.weight < opening.start.weight) (specs : DeclSpecs) {key : Token}
    (starts : key = opening.start.peek) (path : Option NamePath) (isFinal : Bool) :
    Proceeds base (classDefinition rules specs key path isFinal) stage fun _ _ => True := by
  subst starts
  apply (onlyReads_baseClause.proceeds stage).bind ready
  intro bases first followsBases _
  apply ((onlyReads_checkNesting _).proceeds first).bind followsBases.ready
  intro _ second followsNesting _
  apply ((onlyReads_tagPlace path _).proceeds second).bind followsNesting.ready
  rintro ⟨scope, name, span⟩ third followsPlace _
  apply (proceeds_declare followsPlace.ready rfl (by simp) scope span).bind followsPlace.ready
  rintro symbol fourth followsSymbol ⟨declared, _⟩
  have follows := ((followsBases.trans followsNesting).trans followsPlace).trans followsSymbol
  have headFourth : opening ∈ fourth.opened.head? := follows.leaves.opened ▸ head
  refine proceeds_node follows.ready (follows.leaves.located located) headFourth ?_ ?_
  · exact .of_declared declared (by simp) (by simp) (by simp) rfl (by rintro _ ⟨⟩; exact ⟨rfl, rfl⟩)
  · intro node inside enters readyInside
    have readInside := enters.read (Nat.lt_of_le_of_lt follows.weight_le read)
    apply Performs.bind readyInside
      (performs_classBody runs readyInside enters.opened readInside name symbol)
    intro _ after _ _ leaves
    exact performs_pure leaves

/-- A class or enum specifier may get a node that starts at its first word. -/
theorem proceeds_specifier {parse : Token → ParseM DeclSpecs} (ready : stage.Ready base)
    (located : stage.Located) (more : stage.state.cursor.peek.kind ≠ .eof)
    (continued : ∀ (opening : Opening) (after : Stage), after.Ready base → after.Located →
      opening ∈ after.opened.head? → after.state.cursor.weight < opening.start.weight →
        Proceeds base (parse opening.start.peek) after fun _ _ => True) :
    Proceeds base (advance >>= parse) stage fun _ _ => True := by
  let waiting := stage.awaiting stage.state.cursor
  have awaits : Run base stage waiting := .single (.await ready.place)
  have follows : waiting.Follows base waiting.next :=
    waiting.reads_next.follows (awaits.ready ready)
  have less : waiting.next.state.cursor.weight < stage.state.cursor.weight :=
    ParseState.weight_next ready.cursor more
  have locatedNext : waiting.next.Located := follows.leaves.located located
  have proceeds : Proceeds base (advance >>= parse) waiting fun _ _ => True := by
    apply performs_advance
    have next := continued { start := stage.state.cursor } waiting.next follows.ready locatedNext
      rfl less
    exact next.behind follows.leaves
  exact Proceeds.within ready proceeds

theorem proceeds_classSpecifier (runs : rules.Runs base) (ready : stage.Ready base)
    (located : stage.Located) (more : stage.state.cursor.peek.kind ≠ .eof) (specs : DeclSpecs) :
    Proceeds base (classSpecifier rules specs true) stage fun _ _ => True := by
  apply proceeds_specifier ready located more
  intro opening first readyFirst locatedFirst head read
  apply (onlyReads_skipAttributes.proceeds first).bind readyFirst
  intro _ second followsAttributes _
  apply (onlyReads_tagPath?.proceeds second).bind followsAttributes.ready
  intro path third followsPath _
  have follows := followsAttributes.trans followsPath
  simp only [leads_checkWord]
  have rest (isFinal : Bool) (fourth : Stage) (followsWord : third.Follows base fourth) :
      Proceeds base (do
        let pathTokens := (path.map NamePath.tokens).getD []
        let specs :=
          { specs with hasType := true, tokens := specs.tokens ++ opening.start.peek :: pathTokens }
        if true && ((← check (.punct .leftBrace)) || (← check (.punct .colon))) then
          classDefinition rules specs opening.start.peek path isFinal
        else
          forwardTag specs path (.classTag (classKeyOf opening.start.peek.kind))) fourth
            fun _ _ => True := by
    have whole := follows.trans followsWord
    simp only [leads_check]
    split
    · exact proceeds_classDefinition runs whole.ready (whole.leaves.located locatedFirst)
        (whole.leaves.opened ▸ head) (Nat.lt_of_le_of_lt whole.weight_le read) _ rfl path isFinal
    · exact (onlyReads_forwardTag _ path _).proceeds fourth
  split
  · apply performs_skip_one
    exact (rest _ _ (third.reads_next.follows follows.ready)).behind third.reads_next.leaves
  · exact rest _ _ ⟨.refl, follows.ready, .refl third⟩

/-! ## Enums -/

theorem proceeds_enumerator (ready : stage.Ready base) {parent : NodeId}
    (inside : stage.around = parent) (scope : SymbolId) :
    Proceeds base (enumerator parent scope) stage fun _ _ => True := by
  apply Proceeds.within ready
  let waiting := stage.awaiting stage.state.cursor
  have awaits : Run base stage waiting := .single (.await ready.place)
  have readyWaiting := awaits.ready ready
  apply (onlyReads_expectIdentifier.proceeds_giving
    (gives_expectIdentifier readyWaiting.cursor)).bind readyWaiting
  rintro name first followsName ⟨rfl, read⟩
  apply (onlyReads_skipAttributes.proceeds first).bind followsName.ready
  intro _ second followsAttributes _
  apply ((onlyReads_eat _).proceeds second).bind followsAttributes.ready
  intro hasValue third followsMark _
  have before := (followsName.trans followsAttributes).trans followsMark
  have rest (fourth : Stage) (follows : first.Follows base fourth) : Proceeds base (do
      let unit ← unit
      let symbol ← changeTable stage.state.cursor.peek.span fun table =>
        table.declare scope
          { name := stage.state.cursor.peek.lexeme, kind := .enumerator, unit := some unit }
      let node ← addNodeUnder parent
        (.enumerator ⟨stage.state.cursor.peek.lexeme, symbol, hasValue⟩)
        stage.state.cursor.peek.span
      finishNode node) fourth fun _ _ => True := by
    simp only [leads_unit]
    let operation := TableOperation.declare scope
      { name := stage.state.cursor.peek.lexeme, kind := .enumerator,
        unit := some fourth.state.tree.unit }
    have admitted : fourth.state.table.Admits operation := rfl
    apply (proceeds_changeTable operation admitted (by simp [operation, TableOperation.Confines])
      rfl).bind follows.ready
    rintro symbol _ followsSymbol ⟨table, done, rfl⟩
    have declared := SymbolTable.declared_declare follows.ready.large done
    have whole := (followsName.trans follows).trans followsSymbol
    have around : (fourth.withTable table).around = parent := whole.leaves.around.trans inside
    have head : { start := stage.state.cursor } ∈ (fourth.withTable table).opened.head? := by
      rw [whole.leaves.opened]
      rfl
    have stands : (NodeKind.enumerator ⟨stage.state.cursor.peek.lexeme, symbol, hasValue⟩).Stands
        base table :=
      .of_declared declared (by simp) (by simp) (by simp) rfl (by rintro _ ⟨⟩; exact ⟨rfl, rfl⟩)
    rw [← around]
    apply Performs.bind whole.ready (performs_addNodeUnder (whole.ready.place_head head) stands)
    intro node last _ readyLast enters
    have readLast := enters.read (Nat.lt_of_le_of_lt (follows.trans followsSymbol).weight_le read)
    apply (performs_finishNode readyLast enters.opened readLast).mono
    · rintro _ finished ⟨leaves, _⟩
      exact ⟨enters.leaves leaves, trivial⟩
    · intro finished leaves
      exact leaves
  split
  · apply ((onlyReads_skipExpression _).proceeds third).bind before.ready
    intro _ fourth followsValue _
    exact rest fourth ((followsAttributes.trans followsMark).trans followsValue)
  · exact rest third (followsAttributes.trans followsMark)

/-- A choice by the next token that only tells whether a loop goes on. -/
theorem proceeds_separated {α β : Type} {kind : TokenKind} {next : α} {final : β} :
    Proceeds base (do if ← eat kind then return Step.again next else return Step.done final) stage
      fun _ _ => True := by
  apply performs_ifEat
  · intro _
    exact performs_pure ⟨stage.reads_next.leaves, trivial⟩
  · intro _
    exact performs_pure ⟨.refl stage, trivial⟩

theorem proceeds_enumeratorItem (ready : stage.Ready base) {parent : NodeId}
    (inside : stage.around = parent) (scope : SymbolId) :
    Proceeds base (enumeratorItem parent scope ()) stage fun _ _ => True := by
  unfold enumeratorItem
  simp only [leads_peek]
  split
  · exact proceeds_pure trivial
  · apply (proceeds_enumerator ready inside scope).attempt.bind ready
    intro outcome first follows _
    split
    · exact proceeds_separated.behind follows.leaves
    · apply (succeeds_report _).bind follows.ready
      rintro _ second followsReport _
      simp only [leads_unread]
      have before := follows.trans followsReport
      apply Proceeds.behind _ before.leaves
      apply ((onlyReads_pass _).proceeds second).bind before.ready
      intro _ third followsRest _
      exact proceeds_separated

theorem proceeds_enumerators (ready : stage.Ready base) {parent : NodeId}
    (inside : stage.around = parent) (scope : SymbolId) :
    Proceeds base (enumerators parent scope) stage fun _ _ => True := by
  have items : Proceeds base (iterate (enumeratorItem parent scope) ()) stage fun _ _ => True := by
    apply proceeds_rounds ready
    intro _ after follows
    exact proceeds_enumeratorItem follows.ready (follows.leaves.around.trans inside) scope
  apply items.bind ready
  intro _ after follows _
  apply ((onlyReads_expect _).proceeds after).bind follows.ready
  intro _ last _ _
  exact proceeds_pure trivial

theorem performs_enumBody (ready : stage.Ready base) {start : Cursor} {node : NodeId}
    {outer : List Opening} (running : stage.opened = ⟨start, some node⟩ :: outer)
    (read : stage.state.cursor.weight < start.weight) (symbol : SymbolId) :
    Performs base (enumBody symbol node) stage (fun _ after => stage.Leaves outer after)
      (stage.Leaves outer) := by
  apply ((onlyReads_expect _).proceeds stage).attempt.bind ready
  intro opened first followsBrace _
  split
  · exact performs_finishNode_resume followsBrace running read _
  · have inside : first.around = node := by
      unfold Stage.around
      rw [followsBrace.leaves.opened, running]
      rfl
    apply (proceeds_enumerators followsBrace.ready inside symbol).attempt.bind followsBrace.ready
    intro closed second followsItems _
    exact performs_finishNode_resume (followsBrace.trans followsItems) running read closed

theorem proceeds_enumDefinition (ready : stage.Ready base) (located : stage.Located)
    {opening : Opening} (head : opening ∈ stage.opened.head?)
    (read : stage.state.cursor.weight < opening.start.weight) (specs : DeclSpecs)
    (path : Option NamePath) (isScoped : Bool) (underlying : Option TypeRef) :
    Proceeds base (enumDefinition specs opening.start.peek path isScoped underlying) stage
      fun _ _ => True := by
  apply ((onlyReads_checkNesting _).proceeds stage).bind ready
  intro _ first followsNesting _
  apply ((onlyReads_tagPlace path _).proceeds first).bind followsNesting.ready
  rintro ⟨scope, name, span⟩ second followsPlace _
  apply (proceeds_declare followsPlace.ready rfl (by simp) scope span).bind followsPlace.ready
  rintro symbol third followsSymbol ⟨declared, _⟩
  have follows := (followsNesting.trans followsPlace).trans followsSymbol
  have headThird : opening ∈ third.opened.head? := follows.leaves.opened ▸ head
  refine proceeds_node follows.ready (follows.leaves.located located) headThird ?_ ?_
  · exact .of_declared declared (by simp) (by simp) (by simp) rfl (by rintro _ ⟨⟩; exact ⟨rfl, rfl⟩)
  · intro node inside enters readyInside
    have readInside := enters.read (Nat.lt_of_le_of_lt follows.weight_le read)
    apply Performs.bind readyInside (performs_enumBody readyInside enters.opened readInside symbol)
    intro _ after _ _ leaves
    exact performs_pure leaves

theorem proceeds_enumSpecifier (runs : rules.Runs base) (ready : stage.Ready base)
    (located : stage.Located) (more : stage.state.cursor.peek.kind ≠ .eof) (specs : DeclSpecs) :
    Proceeds base (enumSpecifier rules specs true) stage fun _ _ => True := by
  apply proceeds_specifier ready located more
  intro opening first readyFirst locatedFirst head read
  apply (onlyReads_scopedWord.proceeds first).bind readyFirst
  intro scopedTokens second followsWord _
  apply (onlyReads_skipAttributes.proceeds second).bind followsWord.ready
  intro _ third followsAttributes _
  apply (onlyReads_tagPath?.proceeds third).bind followsAttributes.ready
  intro path fourth followsPath _
  apply ((onlyReads_underlyingType runs.toReads true).proceeds fourth).bind followsPath.ready
  intro underlying fifth followsType _
  have follows := ((followsWord.trans followsAttributes).trans followsPath).trans followsType
  simp only [leads_check]
  split
  · exact proceeds_enumDefinition follows.ready (follows.leaves.located locatedFirst)
      (follows.leaves.opened ▸ head) (Nat.lt_of_le_of_lt follows.weight_le read) _ path _ underlying
  · exact (onlyReads_forwardTag _ path _).proceeds fifth

/-! ## Specifiers -/

theorem proceeds_keywordSpecifier (runs : rules.Runs base) (ready : stage.Ready base)
    (located : stage.Located) {word : Keyword}
    (here : stage.state.cursor.peek.kind = .keyword word) (specs : DeclSpecs) :
    Proceeds base (keywordSpecifier rules .declaration specs word) stage fun _ _ => True := by
  have more : stage.state.cursor.peek.kind ≠ .eof := by simp [here]
  have again {parse : ParseM DeclSpecs} (proceeds : Proceeds base parse stage fun _ _ => True) :
      Proceeds base (do return .again (← parse) : ParseM (Step DeclSpecs DeclSpecs)) stage
        fun _ _ => True := by
    apply proceeds.bind ready
    intro _ after _ _
    exact proceeds_pure trivial
  have classes : Proceeds base (if specs.hasType then return Step.done specs
      else return .again (← classSpecifier rules specs true)) stage fun _ _ => True := by
    split
    · exact proceeds_pure trivial
    · exact again (proceeds_classSpecifier runs ready located more specs)
  unfold keywordSpecifier
  split
  · exact again ((onlyReads_markedSpecifier specs word _).proceeds stage)
  · split
    · exact again ((onlyReads_typeWord specs false).proceeds stage)
    · split
      · exact again ((onlyReads_typeWord specs true).proceeds stage)
      · split
        · exact OnlyReads.proceeds (by simp) stage
        · exact OnlyReads.proceeds (by simp) stage
        · exact OnlyReads.proceeds (by simp) stage
        · exact classes
        · exact classes
        · exact classes
        · split
          · exact proceeds_pure trivial
          · exact again (proceeds_enumSpecifier runs ready located more specs)
        · exact OnlyReads.proceeds (by simp) stage
        · exact proceeds_pure trivial

/-- The specifiers of a declaration, where classes and enums may have a body. -/
theorem proceeds_specifiers (runs : rules.Runs base) (ready : stage.Ready base)
    (located : stage.Located) :
    Proceeds base (specifiers rules .declaration) stage fun _ _ => True := by
  apply proceeds_rounds ready
  intro specs after follows
  unfold nextSpecifier
  simp only [leads_peek]
  split
  · rename_i word here
    exact proceeds_keywordSpecifier runs follows.ready (follows.leaves.located located) here specs
  · exact OnlyReads.proceeds (by simp) after
  · exact OnlyReads.proceeds (by simp) after
  · exact (onlyReads_nameSpecifier .declaration specs).proceeds after
  · exact proceeds_pure trivial

end ParseM

end DeclTree
