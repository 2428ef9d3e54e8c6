import DeclTree.Proofs.ParseRun

/-!
# Scopes, symbols and nodes in a run

What the building blocks of a parse do from a stage on: reading a token, reporting,
entering and leaving a scope, changing the symbol table, and starting and finishing a
node.
-/

namespace DeclTree

namespace SymbolTable

/-- A symbol of some name and kind that was added since the table had `base` of them and
that no node stands for yet. -/
structure Declared (base : Nat) (name : String) (kind : SymbolKind) (id : SymbolId)
    (table : SymbolTable) : Prop where
  late : base ≤ id.index
  symbol : ∃ symbol, table.get? id = some symbol ∧ symbol.name = name ∧ symbol.kind = kind ∧
    symbol.origin = none

variable {base : Nat} {table after : SymbolTable} {request : SymbolRequest}

theorem declared_attach (large : base ≤ table.size) (scope : SymbolId) (request : SymbolRequest) :
    (table.attach scope request).2.Declared base request.name request.kind ⟨table.size⟩ := by
  refine ⟨large, ?_⟩
  rw [get?_attach, if_pos rfl]
  refine ⟨_, rfl, ?_⟩
  split <;> exact ⟨rfl, rfl, rfl⟩

theorem declared_declare (large : base ≤ table.size) {scope id : SymbolId}
    (done : table.declare scope request = .ok (id, after)) :
    after.Declared base request.name request.kind id := by
  obtain ⟨_, attached⟩ := attach_of_declare done
  obtain ⟨rfl, rfl⟩ := Prod.mk.inj attached
  exact declared_attach large scope request

theorem declared_openTemplate (large : base ≤ table.size) {factory : FactoryId}
    {unit : Option UnitId} {template : SymbolId}
    (opened : table.openTemplate factory unit = .ok (template, after)) :
    after.Declared base "" (.template {}) template := by
  obtain ⟨frames, _, rfl, rfl⟩ := openTemplate_ok opened
  obtain ⟨late, found⟩ := declared_attach large (frames.current?.getD frames.container)
    { name := "", kind := .template {}, unit := unit }
  exact ⟨late, found⟩

/-- A symbol keeps its name and kind unless it is a template. -/
theorem Declared.grows {opens : Prop} {name : String} {kind : SymbolKind} {id : SymbolId}
    (declared : table.Declared base name kind id) (plain : kind.templateInfo? = none)
    (grows : Grows base opens table after) : after.Declared base name kind id := by
  obtain ⟨symbol, found, rfl, rfl, origin⟩ := declared.symbol
  obtain ⟨changed, there, further⟩ := grows.symbols id symbol found
  have unwrapped : symbol.isTemplate = false := by simp [Symbol.isTemplate, plain]
  refine ⟨declared.late, changed, there, ?_, ?_, further.origin.trans origin⟩
  · rcases further.named with same | ⟨_, template⟩
    · exact same.1
    · simp [unwrapped] at template
  · rcases further.kind with same | ⟨_, template, _⟩
    · exact same
    · simp [unwrapped] at template

theorem declared_declareTemplated (since : table.FramesSince base) (large : base ≤ table.size)
    {factory : FactoryId} {target id : SymbolId} (plain : request.kind.templateInfo? = none)
    (done : (table.declareTemplated factory target request).1 = .ok id) :
    (table.declareTemplated factory target request).2.Declared base request.name request.kind
      id := by
  cases checked : table.openFrames factory target request with
  | error error => simp [SymbolTable.declareTemplated, checked] at done
  | ok result =>
      obtain ⟨innermost, frames⟩ := result
      rw [declareTemplated_of_openFrames checked] at done ⊢
      have same : id = ⟨table.size⟩ := by
        simp only [Except.map] at done
        split at done
        · cases done
        · exact (Except.ok.inj done).symm
      rw [same]
      have closing : Grows base True (table.attach innermost request).2 _ :=
        since.grows_closeFrames large checked
      exact (declared_attach large innermost request).grows plain closing

theorem declared_addParameter (large : base ≤ table.size) {template id : SymbolId}
    (plain : request.kind.templateInfo? = none) (late : base ≤ template.index)
    (done : table.addParameter template request = .ok (id, after)) :
    after.Declared base request.name request.kind id := by
  obtain ⟨extended, declared, rfl⟩ := addParameter_ok done
  exact (declared_declare large declared).grows plain
    (.mapTemplate extended late : Grows base True extended _)

end SymbolTable

/-- A node may stand for a symbol that was just added. -/
theorem NodeKind.Stands.of_declared {base : Nat} {table : SymbolTable} {name : String}
    {symbolKind : SymbolKind} {symbol : SymbolId} {kind : NodeKind}
    (declared : table.Declared base name symbolKind symbol)
    (proper : symbolKind ≠ .namespaceScope)
    (inner : ∀ unit symbol, kind ≠ .translationUnit unit symbol)
    (plain : ∀ declaration, kind ≠ .namespaceScope declaration)
    (same : kind.symbol? = some symbol)
    (named : ∀ given, kind.name? = some given → given = name ∧ symbolKind.templateInfo? = none) :
    kind.Stands base table := by
  refine ⟨inner, plain, ?_⟩
  intro id found
  obtain rfl := Option.some.inj (same.symm.trans found)
  obtain ⟨late, entry, there, rfl, rfl, origin⟩ := declared
  refine ⟨late, entry, there, origin, proper, ?_⟩
  intro given known
  obtain ⟨rfl, unwrapped⟩ := named given known
  exact ⟨rfl, by simp [Symbol.isTemplate, unwrapped]⟩

/-- A node that stands for no symbol. -/
theorem NodeKind.Stands.of_none {base : Nat} {table : SymbolTable} {kind : NodeKind}
    (none : kind.symbol? = none) (plain : ∀ declaration, kind ≠ .namespaceScope declaration) :
    kind.Stands base table := by
  refine ⟨?_, plain, by simp [none]⟩
  rintro unit symbol rfl
  cases none

theorem ScopeStack.Remain.node_inner {before after : ScopeStack} (remain : before.Remain after) :
    after.inner.node = before.inner.node := by
  cases remain with
  | cons head _ =>
      rcases head with same | ⟨_, changed⟩
      · rw [same]
      · rw [changed]

namespace Stage

variable {base : Nat} {stage after : Stage}

/-- Whether the innermost scope is that of the innermost node. -/
def Located (stage : Stage) : Prop :=
  stage.around = stage.state.scopes.inner.node

/-- Whether the innermost declaration starts at a span. -/
def Starts (stage : Stage) (start : Span) : Prop :=
  ∃ opening ∈ stage.opened.head?, opening.start.peek.span = start

theorem Leaves.located (leaves : stage.Leaves stage.opened after) (located : stage.Located) :
    after.Located := by
  unfold Located around
  rw [leaves.opened, leaves.scopes.node_inner]
  exact located

theorem Leaves.around (leaves : stage.Leaves stage.opened after) :
    after.around = stage.around := by
  unfold Stage.around
  rw [leaves.opened]

theorem Leaves.starts (leaves : stage.Leaves stage.opened after) {start : Span}
    (starts : stage.Starts start) : after.Starts start := by
  unfold Starts
  rw [leaves.opened]
  exact starts

theorem Follows.moves (follows : stage.Follows base after) :
    stage.state.cursor.Moves after.state.cursor :=
  follows.run.moves

theorem Follows.weight_le (follows : stage.Follows base after) :
    after.state.cursor.weight ≤ stage.state.cursor.weight :=
  follows.moves.weight_le

theorem Follows.trans {last : Stage} (left : stage.Follows base after)
    (right : after.Follows base last) : stage.Follows base last :=
  ⟨left.run.trans right.run, right.ready, left.leaves.trans (left.leaves.opened ▸ right.leaves)⟩

theorem Reads.follows (reads : stage.Reads after) (ready : stage.Ready base) :
    stage.Follows base after :=
  ⟨reads.run, reads.run.ready ready, reads.leaves⟩

def next (stage : Stage) : Stage :=
  { stage with state := stage.state.next }

theorem reads_next (stage : Stage) : stage.Reads stage.next :=
  ⟨stage.state.reads_next, rfl, rfl⟩

/-- A stage at the same token, with the same nodes finished. -/
structure Stays (stage after : Stage) : Prop where
  cursor : after.state.cursor = stage.state.cursor
  settled : after.settled = stage.settled

/-- The stage inside a node that was just started. -/
structure Enters (stage : Stage) (start : Cursor) (node : NodeId) (after : Stage) : Prop
    extends stage.Stays after where
  opened : after.opened = ⟨start, some node⟩ :: stage.opened
  scopes : after.state.scopes = stage.state.scopes

theorem Enters.leaves {start : Cursor} {node : NodeId} {last : Stage} {opened : List Opening}
    (enters : stage.Enters start node after) (leaves : after.Leaves opened last) :
    stage.Leaves opened last :=
  ⟨leaves.opened, enters.scopes ▸ leaves.scopes⟩

theorem Enters.around {start : Cursor} {node : NodeId} (enters : stage.Enters start node after) :
    after.around = node := by
  unfold Stage.around
  rw [enters.opened]
  rfl

theorem Enters.read {start : Cursor} {node : NodeId} {bound : Nat}
    (enters : stage.Enters start node after) (read : stage.state.cursor.weight < bound) :
    after.state.cursor.weight < bound := by
  rw [enters.cursor]
  exact read

def noting (stage : Stage) (errors : Array ParseError) (scopes : ScopeStack) : Stage :=
  { stage with state := { stage.state with errors := errors, scopes := scopes } }

def withTable (stage : Stage) (table : SymbolTable) : Stage :=
  { stage with state := stage.state.withTable table }

end Stage

namespace ParseM

open Stage (Run)

variable {α β : Type} {base : Nat} {stage : Stage} {accept : β → Stage → Prop}
  {refusal : Stage → Prop}

/-- A part that is known to yield a value. -/
theorem performs_of_ok {first : ParseM α} {rest : α → ParseM β} {value : α} {after : Stage}
    (done : first stage.state = .ok value after.state) (run : Run base stage after)
    (continued : Performs base (rest value) after accept refusal) :
    Performs base (first >>= rest) stage accept refusal := by
  refine (leads_of_ok done).2 (Leads.mono continued ?_ ?_)
  · rintro final next ⟨last, rfl, further, accepted⟩
    exact ⟨last, rfl, run.trans further, accepted⟩
  · rintro next ⟨last, rfl, further, refused⟩
    exact ⟨last, rfl, run.trans further, refused⟩

/-! ## Tokens -/

theorem performs_skip_one {rest : Unit → ParseM β}
    (continued : Performs base (rest ()) stage.next accept refusal) :
    Performs base (skip 1 >>= rest) stage accept refusal :=
  performs_of_ok (skip_one stage.state) stage.reads_next.run continued

theorem performs_advance {rest : Token → ParseM β}
    (continued : Performs base (rest stage.state.cursor.peek) stage.next accept refusal) :
    Performs base (advance >>= rest) stage accept refusal :=
  performs_of_ok (advance_eq stage.state) stage.reads_next.run continued

theorem performs_eat {kind : TokenKind} {rest : Bool → ParseM β}
    (found : stage.state.cursor.peek.kind = kind →
      Performs base (rest true) stage.next accept refusal)
    (missing : stage.state.cursor.peek.kind ≠ kind →
      Performs base (rest false) stage accept refusal) :
    Performs base (eat kind >>= rest) stage accept refusal := by
  by_cases same : stage.state.cursor.peek.kind = kind
  · exact performs_of_ok (eat_of_eq same) stage.reads_next.run (found same)
  · have done : eat kind stage.state = .ok false stage.state := eat_of_ne same
    exact performs_of_ok done .refl (missing same)

theorem performs_ifEat {kind : TokenKind} {first second : ParseM β}
    (found : stage.state.cursor.peek.kind = kind → Performs base first stage.next accept refusal)
    (missing : stage.state.cursor.peek.kind ≠ kind → Performs base second stage accept refusal) :
    Performs base (do if ← eat kind then first else second) stage accept refusal :=
  performs_eat found missing

theorem performs_expect {kind : TokenKind} {rest : Token → ParseM β}
    (found : stage.state.cursor.peek.kind = kind →
      Performs base (rest stage.state.cursor.peek) stage.next accept refusal)
    (missing : stage.state.cursor.peek.kind ≠ kind → refusal stage) :
    Performs base (expect kind >>= rest) stage accept refusal := by
  by_cases same : stage.state.cursor.peek.kind = kind
  · exact performs_of_ok (expect_of_eq same) stage.reads_next.run (found same)
  · apply leads_expect
    · intro here
      exact absurd here same
    · intro other
      exact ⟨stage, rfl, .refl, missing other⟩

/-- A parse that only reads and is never refused. -/
theorem succeeds_of_leads {parse : ParseM α}
    (leads : Leads parse stage.state (fun _ next => stage.state.Reads next) fun _ => False) :
    Succeeds base parse stage fun _ after => stage.Reads after := by
  apply leads.mono
  · intro _ next read
    have reads : stage.Reads { stage with state := next } := ⟨read, rfl, rfl⟩
    exact ⟨_, rfl, reads.run, reads.leaves, reads⟩
  · intro _ refused
    exact refused.elim

theorem succeeds_synchronize : Succeeds base synchronize stage fun _ after => stage.Reads after :=
  succeeds_of_leads (leads_unread.2 ((leads_skip _ _).imp fun _ _ skipped => skipped.1))

theorem succeeds_eat (kind : TokenKind) :
    Succeeds base (eat kind) stage fun _ after => stage.Reads after := by
  rw [← bind_pure (eat kind)]
  apply performs_eat
  · intro _
    exact performs_pure ⟨stage.reads_next.leaves, stage.reads_next⟩
  · intro _
    exact performs_pure ⟨.refl stage, ⟨.refl _, rfl, rfl⟩⟩

/-! ## Notes -/

theorem run_noting (errors : Array ParseError) (scopes : ScopeStack) :
    Run base stage (stage.noting errors scopes) :=
  .single (.note errors scopes)

theorem succeeds_report (error : ParseError) :
    Succeeds base (report error) stage fun _ after =>
      after = stage.noting (stage.state.errors.push error) stage.state.scopes := by
  refine ⟨stage.noting (stage.state.errors.push error) stage.state.scopes, rfl, ?_⟩
  exact ⟨run_noting _ _, ⟨rfl, .refl _⟩, rfl⟩

theorem succeeds_complain (complaint : Complaint) (span : Span) :
    Succeeds base (complain complaint span) stage fun _ _ => True :=
  (succeeds_report _).mono (fun _ _ reported => ⟨reported.1, trivial⟩) fun _ refused => refused

theorem performs_pushScope {rest : Unit → ParseM β} {frame : ScopeFrame}
    (continued : Performs base (rest ())
      (stage.noting stage.state.errors (stage.state.scopes.push frame)) accept refusal) :
    Performs base (pushScope frame >>= rest) stage accept refusal :=
  performs_of_ok rfl (run_noting _ _) continued

theorem performs_popScope {rest : Unit → ParseM β}
    (continued : Performs base (rest ())
      (stage.noting stage.state.errors stage.state.scopes.pop) accept refusal) :
    Performs base (popScope >>= rest) stage accept refusal :=
  performs_of_ok rfl (run_noting _ _) continued

/-! ## The symbol table -/

theorem performs_setTable {rest : Unit → ParseM β} {table : SymbolTable}
    (run : Run base stage (stage.withTable table))
    (continued : Performs base (rest ()) (stage.withTable table) accept refusal) :
    Performs base (setTable table >>= rest) stage accept refusal :=
  performs_of_ok rfl run continued

/-- An operation on the table that may be refused. -/
theorem performs_changeTable {span : Span}
    {change : SymbolTable → Except SymbolError (α × SymbolTable)} (operation : TableOperation)
    (admitted : stage.state.table.Admits operation) (confined : operation.Confines base False)
    (performed : stage.state.table.perform operation =
      stage.state.table.settle (change stage.state.table)) :
    Performs base (changeTable span change) stage (fun value after => ∃ table,
      change stage.state.table = .ok (value, table) ∧ after = stage.withTable table)
      fun after => after = stage := by
  unfold changeTable
  simp only [leads_table]
  split
  · rename_i value table done
    have step : Run base stage (stage.withTable table) := by
      have step := Stage.Step.change admitted confined
      rw [performed, settle_eq done] at step
      exact .single step
    exact performs_setTable step (performs_pure ⟨table, done, rfl⟩)
  · exact ⟨stage, rfl, .refl, rfl⟩

theorem proceeds_changeTable {span : Span}
    {change : SymbolTable → Except SymbolError (α × SymbolTable)} (operation : TableOperation)
    (admitted : stage.state.table.Admits operation) (confined : operation.Confines base False)
    (performed : stage.state.table.perform operation =
      stage.state.table.settle (change stage.state.table)) :
    Proceeds base (changeTable span change) stage fun value after => ∃ table,
      change stage.state.table = .ok (value, table) ∧ after = stage.withTable table := by
  apply (performs_changeTable operation admitted confined performed).mono
  · rintro value _ ⟨table, done, rfl⟩
    exact ⟨⟨rfl, .refl _⟩, table, done, rfl⟩
  · rintro _ rfl
    exact .refl _

theorem proceeds_declare (ready : stage.Ready base) {request : SymbolRequest}
    (plain : request.kind.templateInfo? = none) (proper : request.kind ≠ .namespaceScope)
    (qualifier : Option SymbolId) (span : Span) :
    Proceeds base (declare request qualifier span) stage fun symbol after =>
      after.state.table.Declared base request.name request.kind symbol ∧ stage.Stays after := by
  unfold declare
  simp only [leads_unit, leads_frame]
  split
  · let operation := TableOperation.declare (qualifier.getD stage.state.scopes.inner.symbol)
      { request with unit := some stage.state.tree.unit }
    have admitted : stage.state.table.Admits operation := plain
    apply (proceeds_changeTable operation admitted proper rfl).imp
    rintro symbol after ⟨table, done, rfl⟩
    have declared := SymbolTable.declared_declare ready.large done
    exact ⟨declared, rfl, rfl⟩
  · rename_i factory container _
    let operation := TableOperation.declareTemplated factory (qualifier.getD container)
      { request with unit := some stage.state.tree.unit }
    have admitted : stage.state.table.Admits operation := plain
    have step : Run base stage (stage.withTable (stage.state.table.perform operation)) :=
      .single (.change admitted proper)
    have declared {symbol : SymbolId} (done : (stage.state.table.declareTemplated factory
        (qualifier.getD container) { request with unit := some stage.state.tree.unit }).1 =
          .ok symbol) :
        (stage.state.table.perform operation).Declared base request.name request.kind symbol :=
      SymbolTable.declared_declareTemplated ready.since ready.large admitted done
    simp only [leads_table]
    apply performs_setTable step
    split
    · rename_i symbol done
      refine ⟨(stage.withTable (stage.state.table.perform operation)).noting stage.state.errors
        stage.state.scopes.consume, rfl, run_noting _ _, ⟨rfl, ?_⟩, declared done, rfl, rfl⟩
      exact ScopeStack.remain_consume _
    · exact ⟨_, rfl, .refl, rfl, .refl _⟩
  · exact proceeds_refuse

/-! ## Nodes -/

theorem addNodeUnder_eq {state : ParseState} {parent : NodeId} (present : state.tree.Has parent)
    (kind : NodeKind) (start : Span) : addNodeUnder parent kind start state =
      .ok (state.addNode parent kind start).1 (state.addNode parent kind start).2 := by
  have within : parent.index < state.tree.size := present
  change (if parent.index < state.tree.size then _ else _ : ParseM NodeId) state = _
  rw [if_pos within]
  rfl

theorem addNodeUnder_stuck {state : ParseState} {parent : NodeId}
    (missing : ¬ state.tree.Has parent) (kind : NodeKind) (start : Span) :
    addNodeUnder parent kind start state = .error .stuck state := by
  have beyond : ¬ parent.index < state.tree.size := missing
  change (if parent.index < state.tree.size then _ else _ : ParseM NodeId) state = _
  rw [if_neg beyond]
  rfl

/-- A node is started where a declaration that the parse is inside starts, in the table
in which it declares something. -/
theorem leads_addNodeUnder {start : Cursor} (place : stage.Place start) {kind : NodeKind}
    {table : SymbolTable} (introduces : kind.Introduces base stage.state.table table) :
    Leads (addNodeUnder stage.around kind start.peek.span) (stage.state.withTable table)
      (fun node next => ∃ after : Stage, after.state = next ∧ Run base stage after ∧
        stage.Enters start node after)
      fun next => ∃ after : Stage, after.state = next ∧ Run base stage after ∧ refusal after := by
  by_cases present : stage.state.tree.Has stage.around
  · have here : (stage.state.withTable table).tree.Has stage.around := present
    rw [Leads, Meets, addNodeUnder_eq here]
    refine ⟨stage.begun start kind table, rfl, ?_, ⟨rfl, rfl⟩, rfl, rfl⟩
    exact .single (.begin place present introduces)
  · have missing : ¬ (stage.state.withTable table).tree.Has stage.around := present
    rw [Leads, Meets, addNodeUnder_stuck missing]
    trivial

theorem performs_addNodeUnder {start : Cursor} (place : stage.Place start) {kind : NodeKind}
    (stands : kind.Stands base stage.state.table) :
    Performs base (addNodeUnder stage.around kind start.peek.span) stage
      (fun node after => stage.Enters start node after) refusal :=
  leads_addNodeUnder place (.declared stands)

theorem performs_addNode (ready : stage.Ready base) (located : stage.Located) {opening : Opening}
    (head : opening ∈ stage.opened.head?) {kind : NodeKind}
    (stands : kind.Stands base stage.state.table) :
    Performs base (addNode kind opening.start.peek.span) stage
      (fun node after => stage.Enters opening.start node after) refusal := by
  unfold addNode
  simp only [leads_frame]
  rw [← located]
  exact performs_addNodeUnder (ready.place_head head) stands

/-- A node that has taken something to read is finished at the last token. -/
theorem performs_finishNode (ready : stage.Ready base) {start : Cursor} {node : NodeId}
    {outer : List Opening} (running : stage.opened = ⟨start, some node⟩ :: outer)
    (read : stage.state.cursor.weight < start.weight) :
    Performs base (finishNode node) stage (fun _ after => stage.Leaves outer after ∧
      after.state.cursor = stage.state.cursor) refusal := by
  have moves := ready.opened ⟨start, some node⟩ (by simp [running])
  refine ⟨stage.finished node stage.state.cursor outer, rfl, ?_, ⟨rfl, .refl _⟩, rfl⟩
  exact .single (.finish running ready.settled (.refl _) moves read)

/-- A declaration that waits at the word that introduces it. -/
theorem proceeds_introduced {kind : TokenKind} (more : kind ≠ .eof) (ready : stage.Ready base)
    (located : stage.Located) {opening : Opening} (head : opening ∈ stage.opened.head?)
    {rest : Token → ParseM α}
    (continued : ∀ (word : Token) (after : Stage), after.Ready base → after.Located →
      opening ∈ after.opened.head? → after.state.cursor.weight < opening.start.weight →
        Proceeds base (rest word) after fun _ _ => True) :
    Proceeds base (expect kind >>= rest) stage fun _ _ => True := by
  have passed : opening.start.Moves stage.state.cursor :=
    ready.opened opening (List.mem_of_mem_head? head)
  apply performs_expect
  · intro word
    have follows := stage.reads_next.follows ready
    have less : stage.next.state.cursor.weight < opening.start.weight :=
      Nat.lt_of_lt_of_le (ParseState.weight_next ready.cursor (by rwa [word])) passed.weight_le
    have locatedNext := follows.leaves.located located
    exact (continued _ stage.next follows.ready locatedNext head less).behind follows.leaves
  · intro _
    exact .refl stage

/-- A running node is finished behind what was read in it.  What came of the reading
decides how the parse goes on. -/
theorem performs_finishResume {after : Stage} (follows : stage.Follows base after) {start : Cursor}
    {node : NodeId} {outer : List Opening} (running : stage.opened = ⟨start, some node⟩ :: outer)
    (read : stage.state.cursor.weight < start.weight) {outcome : Except ParseError α}
    {rest : α → ParseM β} (continued : ∀ value last, stage.Leaves outer last →
      Performs base (rest value) last accept (stage.Leaves outer)) :
    Performs base (do
      finishNode node
      let value ← resume outcome
      rest value) after accept (stage.Leaves outer) := by
  apply Performs.bind follows.ready (performs_finishNode follows.ready
    (follows.leaves.opened.trans running) (Nat.lt_of_le_of_lt follows.weight_le read))
  rintro _ last _ _ ⟨leaves, _⟩
  have whole := follows.leaves.trans leaves
  cases outcome with
  | ok value => exact continued value last whole
  | error error => exact ⟨last, rfl, .refl, whole⟩

theorem performs_finishNode_resume {after : Stage} (follows : stage.Follows base after)
    {start : Cursor} {node : NodeId} {outer : List Opening}
    (running : stage.opened = ⟨start, some node⟩ :: outer)
    (read : stage.state.cursor.weight < start.weight) (outcome : Except ParseError α) :
    Performs base (do
      finishNode node
      resume outcome) after (fun _ last => stage.Leaves outer last) (stage.Leaves outer) := by
  rw [← bind_pure (resume outcome)]
  exact performs_finishResume follows running read fun _ _ leaves => performs_pure leaves

/-- A part of a parse inside a declaration that may get a node. -/
theorem Proceeds.awaiting {parse : ParseM α} {start : Cursor} (place : stage.Place start)
    (result : α → ParseState → Prop)
    (proceeds : Proceeds base parse (stage.awaiting start) fun value after =>
      result value after.state) :
    Proceeds base parse stage fun value after => result value after.state := by
  have awaits : Run base stage (stage.awaiting start) := .single (.await place)
  have closes (after : Stage) (run : Run base (stage.awaiting start) after)
      (leaves : (stage.awaiting start).Leaves (stage.awaiting start).opened after) :
      Run base stage { after with opened := stage.opened } :=
    (awaits.trans run).tail (.cancel leaves.opened)
  apply Leads.mono proceeds
  · rintro value next ⟨after, rfl, run, leaves, holds⟩
    exact ⟨{ after with opened := stage.opened }, rfl, closes after run leaves,
      ⟨rfl, leaves.scopes⟩, holds⟩
  · rintro next ⟨after, rfl, run, leaves⟩
    exact ⟨{ after with opened := stage.opened }, rfl, closes after run leaves,
      rfl, leaves.scopes⟩

/-- The same for a declaration that starts at the cursor. -/
theorem Proceeds.within {parse : ParseM α} (ready : stage.Ready base)
    (proceeds : Proceeds base parse (stage.awaiting stage.state.cursor) fun _ _ => True) :
    Proceeds base parse stage fun _ _ => True :=
  Proceeds.awaiting ready.place (fun _ _ => True) proceeds

/-- A part of a parse inside one more scope. -/
theorem performs_scope {body : ParseM α} {rest : α → ParseM β} {frame : ScopeFrame}
    (ready : stage.Ready base) (around : stage.around = frame.node)
    (succeeds : ∀ inner : Stage, inner.Ready base → inner.Located → inner.around = frame.node →
      Succeeds base body inner fun _ _ => True)
    (continued : ∀ value after, stage.Follows base after →
      Performs base (rest value) after accept refusal) :
    Performs base (do
      pushScope frame
      let value ← body
      popScope
      rest value) stage accept refusal := by
  apply performs_pushScope
  have pushed : Run base stage
      (stage.noting stage.state.errors (stage.state.scopes.push frame)) := run_noting _ _
  have readyPushed := pushed.ready ready
  apply (succeeds _ readyPushed around around).bind readyPushed
  intro value inside follows _
  apply performs_popScope
  have popped : Run base inside (inside.noting inside.state.errors inside.state.scopes.pop) :=
    run_noting _ _
  have run : Run base stage (inside.noting inside.state.errors inside.state.scopes.pop) :=
    (pushed.trans follows.run).trans popped
  apply continued
  exact ⟨run, run.ready ready, follows.leaves.opened, follows.leaves.scopes.pop⟩

/-! ## Loops -/

/-- A round of a loop keeps what holds of the value it goes on with, or is done. -/
def Step.Continues (keeps : α → Stage → Prop) (result : β → Stage → Prop) (after : Stage) :
    Step α β → Prop
  | .again value => keeps value after
  | .done value => result value after

theorem performs_iterate {step : α → ParseM (Step α β)} {start : α} (ready : stage.Ready base)
    (keeps : α → Stage → Prop) {result : β → Stage → Prop} (kept : keeps start stage)
    (round : ∀ value after, stage.Follows base after → keeps value after →
      Performs base (step value) after (fun outcome last => after.Leaves after.opened last ∧
        outcome.Continues keeps result last) refusal) :
    Performs base (iterate step start) stage
      (fun value after => stage.Leaves stage.opened after ∧ result value after) refusal := by
  let reached (value : α) (next : ParseState) : Prop :=
    ∃ after : Stage, after.state = next ∧ stage.Follows base after ∧ keeps value after
  have here : reached start stage.state := ⟨stage, rfl, ⟨.refl, ready, .refl stage⟩, kept⟩
  apply leads_iterate reached here
  rintro value next ⟨after, rfl, follows, still⟩
  apply Leads.mono (round value after follows still)
  · rintro outcome next ⟨last, rfl, run, leaves, continues⟩
    have further := follows.trans ⟨run, run.ready follows.ready, leaves⟩
    cases outcome with
    | again following => exact ⟨last, rfl, further, continues⟩
    | done final => exact ⟨last, rfl, further.run, further.leaves, continues⟩
  · rintro next ⟨last, rfl, run, refused⟩
    exact ⟨last, rfl, follows.run.trans run, refused⟩

theorem proceeds_iterate {step : α → ParseM (Step α β)} {start : α} (ready : stage.Ready base)
    (keeps : α → Stage → Prop) {result : β → Stage → Prop} (kept : keeps start stage)
    (round : ∀ value after, stage.Follows base after → keeps value after →
      Proceeds base (step value) after fun outcome last => outcome.Continues keeps result last) :
    Proceeds base (iterate step start) stage result := by
  apply performs_iterate ready keeps kept
  intro value after follows still
  apply (round value after follows still).mono
  · intro _ _ reached
    exact reached
  · intro last leaves
    exact follows.leaves.trans (follows.leaves.opened ▸ leaves)

theorem proceeds_rounds {step : α → ParseM (Step α β)} {start : α} (ready : stage.Ready base)
    (round : ∀ value after, stage.Follows base after →
      Proceeds base (step value) after fun _ _ => True) :
    Proceeds base (iterate step start) stage fun _ _ => True := by
  apply proceeds_iterate ready (fun _ _ => True) trivial
  intro value after follows _
  apply (round value after follows).imp
  intro outcome last _
  cases outcome <;> trivial

end ParseM

end DeclTree
