import DeclTree.Proofs.ParseTermination
import DeclTree.Proofs.SimpleRun
import DeclTree.Proofs.TemplateRun

/-!
# Declarations in a run

Every rule of the grammar leaves the declarations that a parse is inside as they are,
and the declarations of a scope are never refused.  Namespaces whose names stand in one
declaration all start at its first word and are left together.  By induction on the depth
of nesting, a whole parse is a run from the start of the text to its end, behind which no
declaration is left open.
-/

namespace DeclTree

/-- Scopes that were entered one in the other, innermost first, around others. -/
inductive ScopeStack.Inside (outer : ScopeStack) : List NodeId → ScopeStack → Prop
  | none {after : ScopeStack} (remain : outer.Remain after) : Inside outer [] after
  | enter {nodes : List NodeId} {middle after : ScopeStack} {frame : ScopeFrame}
      (inside : Inside outer nodes middle) (remain : (middle.push frame).Remain after) :
      Inside outer (frame.node :: nodes) after

theorem ScopeStack.Inside.behind {outer before after : ScopeStack} {nodes : List NodeId}
    (inside : outer.Inside nodes before) (remain : before.Remain after) :
    outer.Inside nodes after := by
  cases inside with
  | none first => exact .none (first.trans remain)
  | enter inner first => exact .enter inner (first.trans remain)

namespace Stage

/-- A stage inside the nodes of namespaces that start at one place, innermost first. -/
structure Inside (origin : Stage) (start : Cursor) (nodes : List NodeId) (after : Stage) :
    Prop where
  opened : after.opened = nodes.map (⟨start, some ·⟩) ++ origin.opened
  scopes : origin.state.scopes.Inside nodes after.state.scopes

variable {base : Nat} {origin stage after : Stage} {start : Cursor} {nodes : List NodeId}

theorem Inside.follows (inside : origin.Inside start nodes stage)
    (follows : stage.Follows base after) : origin.Inside start nodes after :=
  ⟨follows.leaves.opened.trans inside.opened, inside.scopes.behind follows.leaves.scopes⟩

theorem Inside.located (inside : origin.Inside start nodes stage) (located : origin.Located) :
    stage.Located := by
  obtain ⟨opened, scopes⟩ := inside
  unfold Located around
  cases scopes with
  | none remain =>
      rw [opened, remain.node_inner]
      exact located
  | enter _ remain =>
      rw [opened, remain.node_inner]
      rfl

theorem Inside.head (inside : origin.Inside start nodes stage)
    (head : ∃ opening ∈ origin.opened.head?, opening.start = start) :
    ∃ opening ∈ stage.opened.head?, opening.start = start := by
  rw [inside.opened]
  cases nodes with
  | nil => exact head
  | cons node outer => exact ⟨_, rfl, rfl⟩

end Stage

namespace ParseM

open Stage (Run)

variable {base : Nat} {stage : Stage} {rules : Rules}

/-! ## Namespaces -/

theorem performs_checkNesting {β : Type} {span : Span} {rest : Unit → ParseM β}
    {accept : β → Stage → Prop} {refusal : Stage → Prop} (refused : refusal stage)
    (continued : Performs base (rest ()) stage accept refusal) :
    Performs base (checkNesting span >>= rest) stage accept refusal := by
  unfold checkNesting
  simp only [bind_assoc, leads_get]
  split
  · exact ⟨stage, rfl, .refl, refused⟩
  · exact continued

theorem leads_changeTable {α β : Type} {state : ParseState} {span : Span}
    {change : SymbolTable → Except SymbolError (α × SymbolTable)} {rest : α → ParseM β}
    {accept : β → ParseState → Prop} {refusal : ParseState → Prop}
    (done : ∀ value table, change state.table = .ok (value, table) →
      Leads (rest value) (state.withTable table) accept refusal) (refused : refusal state) :
    Leads (changeTable span change >>= rest) state accept refusal := by
  unfold changeTable
  simp only [bind_assoc, leads_table]
  split
  · rename_i value table changed
    exact done value table changed
  · exact refused

/-- A namespace is opened together with its node. -/
theorem performs_openNamespace {origin : Stage} {start : Cursor} {nodes : List NodeId}
    (inside : origin.Inside start nodes stage) (ready : stage.Ready base)
    (located : stage.Located) (head : ∃ opening ∈ stage.opened.head?, opening.start = start)
    (name : String) (isInline : Bool) :
    Performs base (openNamespace start.peek.span name isInline) stage
      (fun node after => origin.Inside start (node :: nodes) after ∧
        after.state.cursor = stage.state.cursor) (origin.Inside start nodes) := by
  obtain ⟨opening, first, rfl⟩ := head
  apply performs_checkNesting inside
  simp only [leads_lookupScope, leads_unit]
  refine leads_changeTable ?_ ⟨stage, rfl, .refl, inside⟩
  intro symbol opened opens
  have begins (table : SymbolTable)
      (introduces : (NodeKind.namespaceScope ⟨name, isInline, symbol⟩).Introduces base
        stage.state.table table) :
      Leads (do
        let node ← addNode (.namespaceScope ⟨name, isInline, symbol⟩) opening.start.peek.span
        pushScope ⟨node, symbol, .container, .namespaceScope⟩
        return node) (stage.state.withTable table)
        (fun node next => ∃ after : Stage, after.state = next ∧ Run base stage after ∧
          origin.Inside opening.start (node :: nodes) after ∧
            after.state.cursor = stage.state.cursor)
        fun next => ∃ after : Stage, after.state = next ∧ Run base stage after ∧
          origin.Inside opening.start nodes after := by
    unfold addNode
    simp only [bind_assoc, leads_frame]
    have around : stage.around = (stage.state.withTable table).scopes.inner.node := located
    rw [← around]
    apply Leads.bind (leads_addNodeUnder (ready.place_head first) introduces)
    rintro node _ ⟨after, rfl, run, enters⟩
    let frame : ScopeFrame := ⟨node, symbol, .container, .namespaceScope⟩
    refine ⟨after.noting after.state.errors (after.state.scopes.push frame), rfl,
      run.trans (run_noting _ _), ⟨?_, ?_⟩, enters.cursor⟩
    · change after.opened = _
      rw [enters.opened, inside.opened]
      rfl
    · have scopes : origin.state.scopes.Inside nodes after.state.scopes :=
        enters.scopes ▸ inside.scopes
      have entered : origin.state.scopes.Inside (frame.node :: nodes)
          (after.state.scopes.push frame) := .enter scopes (.refl _)
      exact entered
  have opensHere : (NodeKind.namespaceScope ⟨name, isInline, symbol⟩).Introduces base
      stage.state.table (if isInline then opened.addUsing stage.state.scopes.inner.symbol symbol
        else opened) := .opened opens
  split
  · rename_i usesInner
    rw [if_pos usesInner] at opensHere
    simp only [leads_table]
    exact begins _ opensHere
  · rename_i plain
    rw [if_neg plain] at opensHere
    exact begins _ opensHere

/-- The nodes of namespaces that are left are finished, innermost first. -/
theorem performs_closeNamespaces {origin : Stage} {start : Cursor} {refusal : Stage → Prop}
    {nodes : List NodeId} :
    ∀ {stage : Stage}, origin.Inside start nodes stage → stage.Ready base →
      stage.state.cursor.weight < start.weight →
        Performs base (closeNamespaces nodes) stage
          (fun _ after => origin.Leaves origin.opened after) refusal := by
  induction nodes with
  | nil =>
      intro stage inside _ _
      obtain ⟨opened, scopes⟩ := inside
      cases scopes with
      | none remain => exact performs_pure ⟨opened, remain⟩
  | cons node outer ih =>
      intro stage inside ready read
      obtain ⟨opened, scopes⟩ := inside
      cases scopes with
      | @enter _ middle _ frame inner remain =>
          apply performs_popScope
          let left := stage.noting stage.state.errors stage.state.scopes.pop
          have readyLeft : left.Ready base := (run_noting _ _).ready ready
          apply Performs.bind readyLeft (performs_finishNode readyLeft opened read)
          rintro _ finished _ readyFinished ⟨leaves, same⟩
          have insideFinished : origin.Inside start outer finished :=
            ⟨leaves.opened, (inner.behind remain.pop).behind leaves.scopes⟩
          apply ih insideFinished readyFinished
          rw [same]
          exact read

/-- Namespaces are entered without reading anything, or all those entered are left
again. -/
theorem performs_openNamespaces {origin : Stage} {start : Cursor} (located : origin.Located)
    (head : ∃ opening ∈ origin.opened.head?, opening.start = start)
    (segments : List (String × Bool)) :
    ∀ {stage : Stage} {nodes : List NodeId}, origin.Inside start nodes stage → stage.Ready base →
      stage.state.cursor.weight < start.weight →
        Performs base (openNamespaces start.peek.span nodes segments) stage
          (fun opened after => origin.Inside start opened after ∧
            after.state.cursor = stage.state.cursor) (origin.Leaves origin.opened) := by
  induction segments with
  | nil =>
      intro stage nodes inside _ _
      exact performs_pure ⟨inside, rfl⟩
  | cons segment rest ih =>
      intro stage nodes inside ready read
      obtain ⟨name, isInline⟩ := segment
      have opening := performs_openNamespace inside ready (inside.located located)
        (inside.head head) name isInline
      apply Performs.bind ready opening.attempt
      rintro outcome after run readyAfter ⟨entered, refused⟩
      cases outcome with
      | ok node =>
          obtain ⟨insideAfter, same⟩ := entered node rfl
          apply (ih insideAfter readyAfter (same ▸ read)).mono
          · rintro opened last ⟨all, still⟩
            exact ⟨all, still.trans same⟩
          · intro last leaves
            exact leaves
      | error error =>
          have readAfter := Nat.lt_of_le_of_lt run.moves.weight_le read
          apply Performs.bind readyAfter
            (performs_closeNamespaces (refused error rfl) readyAfter readAfter)
          intro _ last _ _ leaves
          exact ⟨last, rfl, .refl, leaves⟩

/-- A namespace from behind its word.  Its brace is looked for before the namespaces are
entered, so they are left in any case. -/
theorem proceeds_namespaceBody (runs : rules.Runs base) (ready : stage.Ready base)
    (located : stage.Located) {opening : Opening} (head : opening ∈ stage.opened.head?)
    (read : stage.state.cursor.weight < opening.start.weight) (isInline : Bool) :
    Proceeds base (namespaceBody rules opening.start.peek.span isInline) stage
      fun _ _ => True := by
  apply ((onlyReads_namespaceSegments isInline).proceeds stage).bind ready
  intro segments first followsNames _
  apply (onlyReads_skipAttributes.proceeds first).bind followsNames.ready
  intro _ second followsAttributes _
  have follows := followsNames.trans followsAttributes
  have readSecond := Nat.lt_of_le_of_lt follows.weight_le read
  simp only [leads_check]
  split
  · rename_i missing
    apply performs_expect
    · intro brace
      simp [brace] at missing
    · intro _
      exact .refl second
  · rename_i brace
    have brace : second.state.cursor.peek.kind = .punct .leftBrace := by simpa using brace
    have headSecond : opening ∈ second.opened.head? := follows.leaves.opened ▸ head
    apply Performs.bind follows.ready (performs_openNamespaces
      (follows.leaves.located located) ⟨opening, headSecond, rfl⟩ segments
      ⟨rfl, .none (.refl _)⟩ follows.ready readSecond)
    rintro nodes third _ readyThird ⟨inside, same⟩
    apply performs_expect
    · intro _
      have followsBrace := third.reads_next.follows readyThird
      have locatedNext :=
        followsBrace.leaves.located (inside.located (follows.leaves.located located))
      apply (runs.declarations third.next true followsBrace.ready locatedNext).bind
        followsBrace.ready
      intro _ fourth followsContent _
      apply (succeeds_eat _).bind followsContent.ready
      intro _ fifth followsCloser _
      have whole := (followsBrace.trans followsContent).trans followsCloser
      have readFifth : fifth.state.cursor.weight < opening.start.weight := by
        apply Nat.lt_of_le_of_lt whole.weight_le
        rw [same]
        exact readSecond
      apply (performs_closeNamespaces (inside.follows whole) whole.ready readFifth).mono
      · intro _ last leaves
        exact ⟨leaves, trivial⟩
      · intro _ leaves
        exact leaves
    · intro other
      rw [same] at other
      exact absurd brace other

theorem proceeds_namespaceDeclaration (runs : rules.Runs base) (ready : stage.Ready base)
    (located : stage.Located) {opening : Opening} (head : opening ∈ stage.opened.head?)
    (isInline : Bool) :
    Proceeds base (namespaceDeclaration rules opening.start.peek.span isInline) stage
      fun _ _ => True := by
  apply proceeds_introduced (by simp) ready located head
  intro _ first readyFirst locatedFirst headFirst read
  apply (onlyReads_skipAttributes.proceeds first).bind readyFirst
  intro _ second follows _
  simp only [leads_check, leads_checkAhead]
  split
  · exact succeeds_synchronize.proceeds.imp fun _ _ _ => trivial
  · exact proceeds_namespaceBody runs follows.ready (follows.leaves.located locatedFirst)
      (follows.leaves.opened ▸ headFirst) (Nat.lt_of_le_of_lt follows.weight_le read) isInline

/-! ## Linkage -/

theorem proceeds_linkageContent (runs : rules.Runs base) (ready : stage.Ready base)
    (located : stage.Located) : Proceeds base (linkageContent rules) stage fun _ _ => True := by
  apply performs_ifEat
  · intro _
    have follows := stage.reads_next.follows ready
    apply Proceeds.behind _ follows.leaves
    apply (runs.declarations stage.next true follows.ready
      (follows.leaves.located located)).proceeds.bind follows.ready
    intro _ after followsContent _
    apply ((onlyReads_eat _).proceeds after).bind followsContent.ready
    intro _ last _ _
    exact proceeds_pure trivial
  · intro _
    exact runs.declaration stage ready located

theorem proceeds_linkageDeclaration (runs : rules.Runs base) (ready : stage.Ready base)
    (located : stage.Located) {opening : Opening} (head : opening ∈ stage.opened.head?) :
    Proceeds base (linkageDeclaration rules opening.start.peek.span) stage fun _ _ => True := by
  apply proceeds_introduced (by simp) ready located head
  intro _ first readyFirst locatedFirst headFirst read
  apply ((onlyReads_expect _).proceeds first).bind readyFirst
  intro literal second followsLiteral _
  apply ((onlyReads_checkNesting _).proceeds second).bind followsLiteral.ready
  intro _ third followsNesting _
  have follows := followsLiteral.trans followsNesting
  simp only [leads_lookupScope]
  refine proceeds_node follows.ready (follows.leaves.located locatedFirst)
    (follows.leaves.opened ▸ headFirst) (.of_none rfl (by simp)) ?_
  intro node inside enters readyInside
  apply performs_scope readyInside enters.around
  · intro inner readyInner locatedInner _
    have content := (proceeds_linkageContent runs readyInner locatedInner).attempt
    exact content.mono (fun _ _ reached => ⟨reached.1, trivial⟩) fun _ refused => refused
  · intro result outside followsContent
    have readInside := enters.read (Nat.lt_of_le_of_lt follows.weight_le read)
    exact performs_finishNode_resume followsContent enters.opened readInside result

/-! ## Using -/

/-- A namespace that a name stands for exists. -/
theorem leads_resolveNamespace? {β : Type} {state : ParseState} {path : NamePath}
    {accept : β → ParseState → Prop} {refusal : ParseState → Prop}
    {rest : Option SymbolId → ParseM β}
    (continued : ∀ target, (∀ id, target = some id → state.table.isNamespace id = true) →
      Leads (rest target) state accept refusal) :
    Leads (resolveNamespace? path >>= rest) state accept refusal := by
  unfold resolveNamespace? resolve?
  simp only [bind_assoc, leads_table, leads_lookupScope, pure_bind]
  split
  · exact continued none (by simp)
  · rename_i target _
    simp only [bind_assoc, leads_table]
    split
    · rename_i symbol found
      apply continued
      intro id named
      split at named
      · rename_i kind
        rw [← Option.some.inj named]
        simp [SymbolTable.isNamespace, found, kind]
      · simp at named
    · trivial

/-- A node that stands for nothing is started and finished behind what was read. -/
theorem proceeds_usingNode (ready : stage.Ready base) (located : stage.Located)
    {opening : Opening} (head : opening ∈ stage.opened.head?)
    (read : stage.state.cursor.weight < opening.start.weight) (declaration : UsingDecl)
    (terminated : Except ParseError Token) :
    Proceeds base (do
      let node ← addNode (.usingDirective declaration) opening.start.peek.span
      finishNode node
      let _ ← resume terminated) stage fun _ _ => True := by
  refine proceeds_node ready located head (.of_none rfl (by simp)) ?_
  intro node inside enters readyInside
  have follows : inside.Follows base inside := ⟨.refl, readyInside, .refl inside⟩
  exact performs_finishResume follows enters.opened (enters.cursor ▸ read) fun _ _ leaves =>
    performs_pure leaves

theorem proceeds_usingDirective (ready : stage.Ready base) (located : stage.Located)
    {opening : Opening} (head : opening ∈ stage.opened.head?)
    (read : stage.state.cursor.weight < opening.start.weight) :
    Proceeds base (usingDirective opening.start.peek.span) stage fun _ _ => True := by
  apply (onlyReads_namePath.proceeds stage).bind ready
  intro path first followsName _
  apply ((onlyReads_expect _).proceeds first).attempt.proceeds.bind followsName.ready
  intro terminated second followsTerminator _
  have follows := followsName.trans followsTerminator
  have locatedSecond := follows.leaves.located located
  have headSecond : opening ∈ second.opened.head? := follows.leaves.opened ▸ head
  have readSecond := Nat.lt_of_le_of_lt follows.weight_le read
  simp only [leads_lookupScope]
  apply leads_resolveNamespace?
  intro target present
  cases target with
  | none => exact proceeds_usingNode follows.ready locatedSecond headSecond readSecond _ _
  | some scope =>
      simp only [leads_table]
      let operation := TableOperation.addUsing second.state.scopes.inner.symbol scope
      have admitted : second.state.table.Admits operation :=
        SymbolTable.has_of_isNamespace (present scope rfl)
      have step : Run base second (second.withTable (second.state.table.perform operation)) :=
        .single (.change admitted trivial)
      apply performs_setTable step
      have node := proceeds_usingNode (step.ready follows.ready) locatedSecond headSecond
        readSecond ⟨path.text, some scope⟩ terminated
      exact node.behind ⟨rfl, .refl _⟩

theorem proceeds_aliasDeclaration (runs : rules.Runs base) (ready : stage.Ready base)
    (located : stage.Located) {opening : Opening} (head : opening ∈ stage.opened.head?)
    (read : stage.state.cursor.weight < opening.start.weight) :
    Proceeds base (aliasDeclaration rules opening.start.peek.span) stage fun _ _ => True := by
  apply (onlyReads_expectIdentifier.proceeds stage).bind ready
  intro name first followsName _
  apply (onlyReads_skipAttributes.proceeds first).bind followsName.ready
  intro _ second followsAttributes _
  apply ((onlyReads_expect _).proceeds second).bind followsAttributes.ready
  intro _ third followsMark _
  apply ((onlyReads_specifiers (by simp)).proceeds third).bind followsMark.ready
  intro specs fourth followsType _
  split
  · simp only [leads_peek]
    exact proceeds_refuse
  · apply ((onlyReads_declarator runs.toReads .abstract).proceeds fourth).bind followsType.ready
    intro declarator fifth followsDeclarator _
    apply (proceeds_declare followsDeclarator.ready rfl (by simp) none name.span).bind
      followsDeclarator.ready
    rintro symbol sixth followsSymbol ⟨declared, _⟩
    have follows := ((((followsName.trans followsAttributes).trans followsMark).trans
      followsType).trans followsDeclarator).trans followsSymbol
    refine proceeds_node follows.ready (follows.leaves.located located)
      (follows.leaves.opened ▸ head) ?_ ?_
    · exact .of_declared declared (by simp) (by simp) (by simp) rfl
        (by rintro _ ⟨⟩; exact ⟨rfl, rfl⟩)
    · intro node inside enters readyInside
      apply ((onlyReads_expect _).proceeds inside).attempt.bind readyInside
      intro terminated seventh followsTerminator _
      have readInside := enters.read (Nat.lt_of_le_of_lt follows.weight_le read)
      exact performs_finishResume followsTerminator enters.opened readInside fun _ _ leaves =>
        performs_pure leaves

theorem proceeds_usingDeclaration (runs : rules.Runs base) (ready : stage.Ready base)
    (located : stage.Located) {opening : Opening} (head : opening ∈ stage.opened.head?) :
    Proceeds base (usingDeclaration rules opening.start.peek.span) stage fun _ _ => True := by
  apply proceeds_introduced (by simp) ready located head
  intro _ first readyFirst locatedFirst headFirst read
  apply performs_ifEat
  · intro _
    have follows := first.reads_next.follows readyFirst
    exact (proceeds_usingDirective follows.ready (follows.leaves.located locatedFirst) headFirst
      (Nat.lt_of_le_of_lt follows.weight_le read)).behind follows.leaves
  · intro _
    apply (onlyReads_aliasAhead.proceeds first).bind readyFirst
    intro ahead second follows _
    split
    · exact proceeds_aliasDeclaration runs follows.ready (follows.leaves.located locatedFirst)
        (follows.leaves.opened ▸ headFirst) (Nat.lt_of_le_of_lt follows.weight_le read)
    · exact succeeds_synchronize.proceeds.imp fun _ _ _ => trivial

/-! ## All declarations -/

theorem proceeds_exportedDeclarations (runs : rules.Runs base) (ready : stage.Ready base)
    (located : stage.Located) :
    Proceeds base (exportedDeclarations rules) stage fun _ _ => True := by
  apply performs_skip_one
  have follows := stage.reads_next.follows ready
  have locatedNext := follows.leaves.located located
  apply Proceeds.behind _ follows.leaves
  apply performs_ifEat
  · intro _
    have followsBrace := stage.next.reads_next.follows follows.ready
    apply Proceeds.behind _ followsBrace.leaves
    apply (runs.declarations _ true followsBrace.ready
      (followsBrace.leaves.located locatedNext)).proceeds.bind followsBrace.ready
    intro _ after followsContent _
    apply ((onlyReads_expect _).proceeds after).bind followsContent.ready
    intro _ last _ _
    exact proceeds_pure trivial
  · intro _
    exact runs.declaration stage.next follows.ready locatedNext

theorem proceeds_keywordDeclaration (runs : rules.Runs base) (ready : stage.Ready base)
    (located : stage.Located) {opening : Opening} (head : opening ∈ stage.opened.head?)
    (word : Keyword) (next : TokenKind) :
    Proceeds base (keywordDeclaration rules opening.start.peek.span word next) stage
      fun _ _ => True := by
  have simple := proceeds_simpleDeclaration runs ready located ⟨opening, head, rfl⟩
  have synchronizes : Proceeds base synchronize stage fun _ _ => True :=
    succeeds_synchronize.proceeds.imp fun _ _ _ => trivial
  have followsWord := stage.reads_next.follows ready
  have locatedNext := followsWord.leaves.located located
  unfold keywordDeclaration
  split
  · exact proceeds_namespaceDeclaration runs ready located head false
  · split
    · apply performs_skip_one
      exact (proceeds_namespaceDeclaration runs followsWord.ready locatedNext head true).behind
        followsWord.leaves
    · exact simple
  · split
    · exact proceeds_linkageDeclaration runs ready located head
    · split
      · exact synchronizes
      · exact simple
  · split
    · apply performs_skip_one
      exact (proceeds_templateDeclaration runs followsWord.ready locatedNext
        ⟨opening, head, rfl⟩ true).behind followsWord.leaves
    · exact proceeds_exportedDeclarations runs ready located
  · exact proceeds_templateDeclaration runs ready located ⟨opening, head, rfl⟩ false
  · exact proceeds_usingDeclaration runs ready located head
  · exact synchronizes
  · exact synchronizes
  · split
    · exact (onlyReads_skip 2).proceeds stage
    · exact simple
  · split
    · exact (onlyReads_skip 2).proceeds stage
    · exact simple
  · split
    · exact (onlyReads_skip 2).proceeds stage
    · exact simple
  · exact simple

/-- A declaration may get a node that starts behind its attributes. -/
theorem proceeds_declaration (runs : rules.Runs base) (ready : stage.Ready base)
    (located : stage.Located) : Proceeds base (declaration rules) stage fun _ _ => True := by
  apply (onlyReads_skipAttributes.proceeds stage).bind ready
  intro _ first follows _
  apply Proceeds.within follows.ready
  let waiting := first.awaiting first.state.cursor
  have awaits : Run base first waiting := .single (.await follows.ready.place)
  have readyWaiting := awaits.ready follows.ready
  have locatedWaiting : waiting.Located := follows.leaves.located located
  have head : { start := first.state.cursor } ∈ waiting.opened.head? := rfl
  have simple := proceeds_simpleDeclaration runs readyWaiting locatedWaiting ⟨_, head, rfl⟩
  simp only [leads_peek, leads_ahead]
  split
  · exact (onlyReads_skip 1).proceeds waiting
  · exact proceeds_keywordDeclaration runs readyWaiting locatedWaiting head _ _
  · split
    · exact succeeds_synchronize.proceeds.imp fun _ _ _ => trivial
    · exact simple
  · exact simple

theorem succeeds_declarationItem (runs : rules.Runs base) (ready : stage.Ready base)
    (located : stage.Located) (closing : Bool) :
    Succeeds base (declarationItem rules closing ()) stage fun _ _ => True := by
  unfold declarationItem
  simp only [leads_peek]
  split
  · split
    · apply (succeeds_complain _ _).bind ready
      intro _ last follows _
      exact performs_pure ⟨follows.leaves, trivial⟩
    · exact succeeds_pure trivial
  · split
    · exact succeeds_pure trivial
    · apply performs_skip_one
      have follows := stage.reads_next.follows ready
      apply (succeeds_complain _ _).bind follows.ready
      intro _ last further _
      exact performs_pure ⟨follows.leaves.trans (follows.leaves.opened ▸ further.leaves), trivial⟩
  · apply (proceeds_declaration runs ready located).attempt.bind ready
    intro outcome first follows _
    cases outcome with
    | ok value => exact performs_pure ⟨follows.leaves, trivial⟩
    | error error =>
        apply (succeeds_report error).bind follows.ready
        intro _ second followsReport _
        apply succeeds_synchronize.bind followsReport.ready
        intro _ last followsRecovery _
        have whole := (follows.trans followsReport).trans followsRecovery
        exact performs_pure ⟨whole.leaves, trivial⟩

theorem succeeds_declarations (runs : rules.Runs base) (ready : stage.Ready base)
    (located : stage.Located) (closing : Bool) :
    Succeeds base (declarations rules closing) stage fun _ _ => True := by
  apply performs_iterate ready (fun _ _ => True) trivial
  intro _ after follows _
  apply (succeeds_declarationItem runs follows.ready (follows.leaves.located located) closing).mono
  · rintro outcome last ⟨leaves, _⟩
    refine ⟨leaves, ?_⟩
    cases outcome <;> trivial
  · intro _ refused
    exact refused

/-- Rules for any depth of nesting leave the declarations that a parse is inside as they
are. -/
theorem runs_ofDepth (base depth : Nat) : (Rules.ofDepth depth).Runs base := by
  induction depth with
  | zero =>
      exact ⟨steady_ofDepth 0, fun _ _ _ => trivial, fun _ _ _ _ _ _ => trivial,
        fun _ _ _ _ => trivial⟩
  | succ depth runs =>
      refine ⟨steady_ofDepth (depth + 1), ?_, ?_, ?_⟩
      · intro stage ready located
        exact proceeds_declaration runs ready located
      · intro stage start exported ready located starts
        exact proceeds_templateDeclaration runs ready located starts exported
      · intro stage closing ready located
        exact succeeds_declarations runs ready located closing

theorem succeeds_translationUnit (ready : stage.Ready base) (located : stage.Located) :
    Succeeds base translationUnit stage fun _ _ => True := by
  unfold translationUnit
  simp only [leads_get]
  exact (runs_ofDepth base _).declarations stage false ready located

/-- The value that a parse is known to yield. -/
theorem Performs.exists_of_ok {α : Type} {parse : ParseM α} {accept : α → Stage → Prop}
    {refusal : Stage → Prop} (performs : Performs base parse stage accept refusal) {value : α}
    {final : ParseState} (done : parse stage.state = .ok value final) :
    ∃ after : Stage, after.state = final ∧ Run base stage after ∧ accept value after := by
  unfold Performs Leads Meets at performs
  rwa [done] at performs

end ParseM

namespace ParseState

def startStage (options : ParseOptions) (table : SymbolTable) (unit : UnitId) (source : String) :
    Stage :=
  let state := start options table unit source
  { state := state, settled := state.cursor }

theorem ready_startStage (options : ParseOptions) {table : SymbolTable} {base : Nat}
    (reached : table.Reachable) (since : table.FramesSince base) (large : base ≤ table.size)
    (unit : UnitId) (source : String) : (startStage options table unit source).Ready base where
  cursor := (sound_start options reached unit source).cursor
  table := reached
  since := since
  large := large
  settled := .refl _
  opened _ member := by cases member
  nested := .nil

/-- A parse is a run from the start of the text to its end, behind which no declaration
is left open. -/
theorem exists_run (options : ParseOptions) {table : SymbolTable} {base : Nat}
    (reached : table.Reachable) (since : table.FramesSince base) (large : base ≤ table.size)
    (unit : UnitId) (source : String) :
    ∃ final settled, Finished (start options table unit source) final ∧
      Stage.Run base (startStage options table unit source)
        { state := final, settled := settled } := by
  obtain ⟨final, finished⟩ := exists_finished options reached unit source
  have ready := ready_startStage options reached since large unit source
  obtain ⟨⟨_, _, settled⟩, rfl, run, ⟨rfl, _⟩, _⟩ :=
    (ParseM.succeeds_translationUnit ready rfl).exists_of_ok finished.run
  exact ⟨_, settled, finished, run⟩

end ParseState

end DeclTree
