import DeclTree.Proofs.ParseCourse

/-!
# Parses that keep to the course

A parse steers if it takes strides only and leaves every scope that it enters, also where it is
refused.  What it has to know of its state for that, such as that there is room for a scope or
that a node takes in new ones, is collected as facts, which the building blocks of a rule supply
and use up.
-/

namespace DeclTree

namespace ParseM

open ParseState (Fact)

/-- Whether a parse that knows some facts takes strides only, and leaves every scope it enters,
also if it is refused. -/
def Steers {α : Type} (known : List Fact) (parse : ParseM α) : Prop :=
  ∀ state : ParseState, state.Steady → state.Grants known →
    Leads parse state (fun _ => state.Reaches) state.Reaches

/-- Whether a parse is never refused. -/
def Unrefused {α : Type} (parse : ParseM α) : Prop :=
  ∀ state, Leads parse state (fun _ _ => True) fun _ => False

namespace Steers

variable {α β : Type} {known : List Fact}

theorem mono {more : List Fact} {parse : ParseM α} (steers : Steers known parse)
    (subset : known ⊆ more) : Steers more parse :=
  fun state steady grants => steers state steady fun fact member => grants fact (subset member)

/-- What takes strides without knowing anything does so in any case. -/
theorem always {parse : ParseM α} (steers : Steers [] parse) : Steers known parse :=
  steers.mono (List.nil_subset known)

/-- What follows behind a course that has made some more facts known. -/
theorem leads_knowing {more : List Fact} {parse : ParseM α} (steers : Steers (more ++ known) parse)
    {state next : ParseState} (steady : state.Steady) (grants : state.Grants known)
    (reaches : state.Reaches next) (gained : next.Grants more) :
    Leads parse next (fun _ => state.Reaches) state.Reaches := by
  have granted : next.Grants (more ++ known) :=
    List.forall_mem_append.2 ⟨gained, grants.reaches steady.reached reaches⟩
  exact (steers next (steady.reaches reaches) granted).mono
    (fun _ _ further => reaches.trans further) fun _ further => reaches.trans further

/-- What follows behind a course. -/
theorem leads {parse : ParseM α} (steers : Steers known parse) {state next : ParseState}
    (steady : state.Steady) (grants : state.Grants known) (reaches : state.Reaches next) :
    Leads parse next (fun _ => state.Reaches) state.Reaches :=
  leads_knowing (List.nil_append known ▸ steers) steady grants reaches (ParseState.grants_nil next)

theorem bind {first : ParseM α} {rest : α → ParseM β} (steers : Steers known first)
    (following : ∀ value, Steers known (rest value)) : Steers known (first >>= rest) := by
  intro state steady grants
  apply (steers state steady grants).bind
  intro value next reaches
  exact (following value).leads steady grants reaches

theorem attempt {parse : ParseM α} (steers : Steers known parse) :
    Steers known (ParseM.attempt parse) := by
  intro state steady grants
  refine (steers state steady grants).attempt.imp ?_
  rintro (error | value) next ⟨yields, refuses⟩
  · exact refuses error rfl
  · exact yields value rfl

theorem loop {step : α → ParseM (Step α β)} (round : ∀ value, Steers known (step value))
    (bound : Nat) (start : α) : Steers known (ParseM.loop step bound start) := by
  induction bound generalizing start with
  | zero => exact fun _ _ _ => trivial
  | succ bound ih =>
      unfold ParseM.loop
      refine (round start).bind fun outcome => ?_
      cases outcome with
      | done final => exact fun state _ _ => .refl state
      | again next => exact ih next

theorem reads {parse : ParseM α} (reads : OnlyReads parse) : Steers known parse :=
  fun state _ _ => (reads.leads state).mono (fun _ _ read => read.reaches)
    fun _ read => read.reaches

/-- What follows behind some reading. -/
theorem behind {first : ParseM α} {rest : α → ParseM β} (reading : OnlyReads first)
    (following : ∀ value, Steers known (rest value)) : Steers known (first >>= rest) :=
  (Steers.reads reading).bind following

theorem pure (value : α) : Steers known (Pure.pure value : ParseM α) :=
  .reads (.pure value)

theorem iterate {step : α → ParseM (Step α β)} (round : ∀ value, Steers known (step value))
    (start : α) : Steers known (ParseM.iterate step start) :=
  .behind .get fun _ => loop round _ start

theorem ite {condition : Prop} [Decidable condition] {first second : ParseM α}
    (left : Steers known first) (right : Steers known second) :
    Steers known (if condition then first else second) := by
  split
  · exact left
  · exact right

theorem refuse (complaint : Complaint) (span : Span) :
    Steers known (ParseM.refuse complaint span : ParseM α) :=
  fun state _ _ => .refl state

theorem resume (outcome : Except ParseError α) : Steers known (ParseM.resume outcome) := by
  cases outcome with
  | ok value => exact .pure value
  | error error => exact fun state _ _ => .refl state

end Steers

section Changes

variable {α β : Type} {known : List Fact}

/-- A change of the state that is one stride and leaves the scopes alone. -/
theorem steers_modify {change : ParseState → ParseState}
    (stride : ∀ state : ParseState, state.Stride (change state))
    (scopes : ∀ state, (change state).scopes = state.scopes) : Steers known (modify change) :=
  fun state _ _ => (stride state).reaches (scopes state)

theorem steers_report (error : ParseError) : Steers known (report error) :=
  steers_modify (fun _ => .report error) fun _ => rfl

theorem steers_complain (complaint : Complaint) (span : Span) :
    Steers known (complain complaint span) :=
  steers_report _

theorem steers_finishNodeAt (node : NodeId) (last : Span) :
    Steers known (finishNodeAt node last) :=
  steers_modify (fun _ => .finish node last) fun _ => rfl

theorem steers_finishNode (node : NodeId) : Steers known (finishNode node) :=
  .behind onlyReads_previousSpan fun _ => steers_finishNodeAt node _

/-! ## The symbol table -/

/-- An operation on the table that may be refused. -/
theorem leads_changeTable_stride {state : ParseState} {span : Span}
    {change : SymbolTable → Except SymbolError (α × SymbolTable)} (operation : TableOperation)
    (admitted : state.table.Admits operation) (ordinary : operation.Ordinary)
    (idle : operation.Idle)
    (performed : state.table.perform operation = state.table.settle (change state.table)) :
    Leads (changeTable span change) state (fun value next => state.Reaches next ∧ ∃ table,
      change state.table = .ok (value, table) ∧ next = state.withTable table) state.Reaches := by
  unfold changeTable
  simp only [leads_table]
  split
  · rename_i value table done
    have stride := ParseState.Stride.change admitted ordinary idle
    rw [performed, settle_eq done] at stride
    exact ⟨stride.reaches rfl, table, done, rfl⟩
  · exact .refl state

theorem steers_changeTable {span : Span}
    {change : SymbolTable → Except SymbolError (α × SymbolTable)} (operation : TableOperation)
    (admitted : ∀ table : SymbolTable, table.Admits operation) (ordinary : operation.Ordinary)
    (idle : operation.Idle)
    (performed : ∀ table : SymbolTable,
      table.perform operation = table.settle (change table)) :
    Steers known (changeTable span change) :=
  fun _ _ _ => (leads_changeTable_stride operation (admitted _) ordinary idle (performed _)).imp
    fun _ _ both => both.1

/-- A declaration in a scope that is given. -/
theorem steers_declareIn {request : SymbolRequest} (plain : request.kind.templateInfo? = none)
    (proper : request.kind ≠ .namespaceScope) (scope : SymbolId) (span : Span) :
    Steers known (changeTable span fun table => table.declare scope request) :=
  steers_changeTable (.declare scope request) (fun _ => plain) proper trivial fun _ => rfl

/-- A declaration in the innermost scope, and what follows with its symbol. -/
theorem steers_declared {request : SymbolRequest} (plain : request.kind.templateInfo? = none)
    (proper : request.kind ≠ .namespaceScope) (qualifier : Option SymbolId) (span : Span)
    {rest : SymbolId → ParseM β}
    (following : ∀ symbol, Steers (.present symbol :: known) (rest symbol)) :
    Steers known (declare request qualifier span >>= rest) := by
  intro state steady grants
  have declares : Leads (declare request qualifier span) state
      (fun symbol next => state.Reaches next ∧ next.table.Has symbol) state.Reaches := by
    unfold declare
    simp only [leads_unit, leads_frame]
    split
    · let operation := TableOperation.declare (qualifier.getD state.scopes.inner.symbol)
        { request with unit := some state.tree.unit }
      have admitted : state.table.Admits operation := plain
      refine (leads_changeTable_stride operation admitted proper trivial rfl).imp ?_
      rintro symbol _ ⟨reaches, table, declared, rfl⟩
      exact ⟨reaches, SymbolTable.has_of_get? (SymbolTable.get?_declared declared).2⟩
    · rename_i factory container _
      let operation := TableOperation.declareTemplated factory (qualifier.getD container)
        { request with unit := some state.tree.unit }
      have admitted : state.table.Admits operation := plain
      have stride : state.Stride (state.withTable (state.table.perform operation)) :=
        .change admitted proper trivial
      have changes := stride.reaches rfl
      simp only [leads_table]
      refine (leads_of_ok rfl).2 ?_
      split
      · rename_i symbol done
        have present := SymbolTable.has_declareTemplated steady.reached done
        exact ⟨changes.trans ⟨.single .consume, ScopeStack.remain_consume _⟩, present⟩
      · exact changes
    · exact .refl state
  apply declares.bind
  rintro symbol next ⟨reaches, present⟩
  have gained : next.Grants [.present symbol] :=
    ParseState.grants_cons.2 ⟨present, ParseState.grants_nil _⟩
  exact (following symbol).leads_knowing steady grants reaches gained

theorem steers_declare {request : SymbolRequest} (plain : request.kind.templateInfo? = none)
    (proper : request.kind ≠ .namespaceScope) (qualifier : Option SymbolId) (span : Span) :
    Steers known (declare request qualifier span) := by
  have declares : Steers known (declare request qualifier span >>= Pure.pure) :=
    steers_declared plain proper qualifier span fun symbol => .pure symbol
  rwa [bind_pure] at declares

/-! ## Nodes -/

/-- A node is started in one that is there, or the parse is stuck. -/
theorem leads_addNodeUnder_present (state : ParseState) (parent : NodeId) (kind : NodeKind)
    (start : Span) {refusal : ParseState → Prop} :
    Leads (addNodeUnder parent kind start) state
      (fun node next => state.tree.Has parent ∧ (node, next) = state.addNode parent kind start)
      refusal := by
  unfold Leads Meets
  by_cases present : state.tree.Has parent
  · rw [addNodeUnder_eq present]
    exact ⟨present, rfl⟩
  · rw [addNodeUnder_stuck present]
    trivial

/-- A node that is started near, where it may stand, and what follows. -/
theorem leads_addNodeUnder_near {state : ParseState} {parent : NodeId} {kind : NodeKind}
    {start : Span} {rest : NodeId → ParseM β} (steady : state.Steady)
    (grants : state.Grants known) (takes : state.tree.Takes parent kind)
    (near : state.Near parent) (bare : kind.Bare)
    (opened : ∀ declaration, kind = .namespaceScope declaration →
      parent = state.scopes.inner.node ∧ state.table.NamespaceIn state.scopes.inner.symbol
        declaration.name declaration.symbol)
    (facts : NodeId → List Fact)
    (gained : (state.addNode parent kind start).2.Grants
      (facts (state.addNode parent kind start).1))
    (following : ∀ node, Steers (facts node ++ known) (rest node)) :
    Leads (addNodeUnder parent kind start >>= rest) state (fun _ => state.Reaches)
      state.Reaches := by
  refine (leads_of_ok (addNodeUnder_eq takes.has kind start)).2 ?_
  have stride : state.Stride (state.addNode parent kind start).2 :=
    .start start takes near bare opened
  exact (following _).leads_knowing steady grants (stride.reaches rfl) gained

/-- A node in one that takes in new ones and that it fits in, and what follows. -/
theorem steers_addNodeUnder {parent : NodeId} {kind around : NodeKind} {start : Span}
    {rest : NodeId → ParseM β} (near : .near parent ∈ known)
    (declares : .declares parent around ∈ known) (fits : kind.fitsIn around = true)
    (bare : kind.Bare) (plain : ∀ declaration, kind ≠ .namespaceScope declaration)
    (following : ∀ node, Steers known (rest node)) :
    Steers known (addNodeUnder parent kind start >>= rest) := by
  intro state steady grants
  exact leads_addNodeUnder_near steady grants ((grants _ declares).takes fits) (grants _ near) bare
    (fun declaration same => absurd same (plain declaration)) (fun _ => [])
    (ParseState.grants_nil _) following

/-- What is known of a node that is new in the innermost scope. -/
theorem grants_addNode {state : ParseState} {kind : NodeKind} {start : Span} {symbol : SymbolId}
    (scope : kind.scopeIn state.scopes.inner.symbol = some symbol)
    (present : state.tree.Has state.scopes.inner.node) :
    (state.addNode state.scopes.inner.node kind start).2.Grants
      [.declares (state.addNode state.scopes.inner.node kind start).1 kind,
        .near (state.addNode state.scopes.inner.node kind start).1,
        .opens (state.addNode state.scopes.inner.node kind start).1 symbol] := by
  have inside : (state.addNode state.scopes.inner.node kind start).1 ∈
      (state.addNode state.scopes.inner.node kind start).2.tree.children
        state.scopes.inner.node :=
    (state.tree.mem_children_add kind present start).2 (.inr ⟨rfl, rfl⟩)
  have found : (state.addNode state.scopes.inner.node kind start).2.tree.kindAt
      (state.addNode state.scopes.inner.node kind start).1 = some kind :=
    state.tree.kindAt_add_new kind state.scopes.inner.node start
  refine ParseState.grants_cons.2 ⟨⟨id, ?_⟩, ParseState.grants_cons.2 ⟨.inr inside,
    ParseState.grants_cons.2 ⟨⟨inside, ?_⟩, ParseState.grants_nil _⟩⟩⟩
  · rw [found, NodeKind.amend_id]
  · exact Option.bind_eq_some_iff.2 ⟨kind, found, scope⟩

/-- A declaration in the innermost scope that has a symbol, and what follows. -/
theorem steers_addNode {kind : NodeKind} {start : Span} {rest : NodeId → ParseM β}
    {symbol : SymbolId}
    (fits : ∀ around : NodeKind, around.isHost = true → kind.fitsIn around = true)
    (bare : kind.Bare) (plain : ∀ declaration, kind ≠ .namespaceScope declaration)
    (scope : ∀ outer, kind.scopeIn outer = some symbol)
    (following : ∀ node,
      Steers (.declares node kind :: .near node :: .opens node symbol :: known) (rest node)) :
    Steers known (addNode kind start >>= rest) := by
  intro state steady grants
  unfold addNode
  simp only [bind_assoc, leads_frame]
  exact leads_addNodeUnder_near steady grants (steady.host.takes fits) (.inl rfl) bare
    (fun declaration same => absurd same (plain declaration))
    (fun node => [.declares node kind, .near node, .opens node symbol])
    (grants_addNode (scope _) steady.host.has) following

/-! ## Scopes -/

/-- What follows if there is room for one more scope. -/
theorem steers_checkNesting {span : Span} {rest : Unit → ParseM β}
    (following : Steers (.room :: known) (rest ())) :
    Steers known (checkNesting span >>= rest) := by
  intro state steady grants
  unfold checkNesting
  simp only [bind_assoc, leads_get]
  split
  · exact .refl state
  · rename_i room
    apply following state steady
    intro fact member
    rcases List.mem_cons.1 member with rfl | old
    · exact Nat.lt_of_not_le room
    · exact grants fact old

theorem steers_lookupScope {rest : SymbolId → ParseM β}
    (following : ∀ symbol, Steers (.scope symbol :: .present symbol :: known) (rest symbol)) :
    Steers known (lookupScope >>= rest) := by
  intro state steady grants
  simp only [leads_lookupScope]
  exact following _ state steady
    (ParseState.grants_cons.2 ⟨rfl, ParseState.grants_cons.2 ⟨steady.inside, grants⟩⟩)

/-- A scope is entered if there is room for it. -/
theorem enters_scope {state : ParseState} (grants : state.Grants known) {frame : ScopeFrame}
    (room : .room ∈ known) (opens : .opens frame.node frame.symbol ∈ known) :
    state.Turn (state.enter frame) :=
  .enter (grants _ room) (grants _ opens).1 (grants _ opens).2

/-- A scope of a node that declarations stand in with its content, and what follows it.  What is
known of more than the innermost scope is known inside as well. -/
theorem steers_scope (kept : List Fact) {frame : ScopeFrame} {kind : NodeKind} {content : ParseM α}
    {rest : α → ParseM β} (room : .room ∈ known) (opens : .opens frame.node frame.symbol ∈ known)
    (declares : .declares frame.node kind ∈ known) (host : kind.isHost = true)
    (present : .present frame.symbol ∈ known) (subset : kept ⊆ known)
    (lasting : ∀ fact ∈ kept, fact.Lasting) (steers : Steers (.near frame.node :: kept) content)
    (unrefused : Unrefused content) (following : ∀ value, Steers known (rest value)) :
    Steers known (do
      pushScope frame
      let value ← content
      popScope
      rest value) := by
  intro state steady grants
  have enters := enters_scope grants room opens
  refine (leads_of_ok rfl).2 ?_
  have inner : (state.enter frame).Steady :=
    ⟨steady.reached, grants _ present, (grants _ declares).hosts host⟩
  have done := (steers (state.enter frame) inner (grants.enter frame subset lasting)).and
    (unrefused (state.enter frame))
  apply (done.mono (fun _ _ both => both.1) fun _ refused => refused.2.elim).bind
  intro value next reaches
  exact (leads_of_ok rfl).2 ((following value).leads steady grants (reaches.leave enters))

end Changes

/-! ## Parses that are never refused -/

theorem leads_anywhere {α : Type} (parse : ParseM α) (state : ParseState) :
    Leads parse state (fun _ _ => True) fun _ => True := by
  unfold Leads Meets
  split <;> trivial

namespace Unrefused

variable {α β : Type}

theorem bind {first : ParseM α} {rest : α → ParseM β} (unrefused : Unrefused first)
    (following : ∀ value, Unrefused (rest value)) : Unrefused (first >>= rest) :=
  fun state => (unrefused state).bind fun value next _ => following value next

theorem pure (value : α) : Unrefused (Pure.pure value : ParseM α) :=
  fun _ => trivial

theorem attempt (parse : ParseM α) : Unrefused (ParseM.attempt parse) := by
  intro state
  exact (leads_anywhere parse state).attempt.imp fun _ _ _ => trivial

/-- A parse that always yields a value, or gets stuck. -/
theorem looks {parse : ParseM α} (sees : ∀ state, ∃ value next, parse state = .ok value next) :
    Unrefused parse := by
  intro state
  obtain ⟨value, next, run⟩ := sees state
  unfold Leads Meets
  rw [run]
  trivial

theorem iterate {step : α → ParseM (Step α β)} (round : ∀ value, Unrefused (step value))
    (start : α) : Unrefused (ParseM.iterate step start) := by
  intro state
  apply leads_iterate (fun _ _ => True) trivial
  intro value next _
  exact (round value next).imp fun outcome _ _ => by cases outcome <;> trivial

end Unrefused

end ParseM

end DeclTree
