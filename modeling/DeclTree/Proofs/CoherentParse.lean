import DeclTree.Proofs.BindingRun
import DeclTree.Proofs.ExportedBlocks
import DeclTree.Proofs.FreeTemplates

/-!
# Parts of a parse that keep its scopes coherent

A part of a parse starts where scopes, nodes and open templates fit together, leaves the parse
inside the same scopes, and ends where they fit together again, whether it yields a value or is
refused.  A parse may be strict: then no declaration is made behind a template prefix unless the
open templates are free, and no error is one of the parse itself.
-/

namespace DeclTree

open TemplateDecl (originOf)

/-- Whether an error says that the open templates cannot take in a declaration: there are none, or
they would end up inside one another. -/
def ParseError.NestingFault (error : ParseError) : Prop :=
  ∃ cause span, (cause = .emptyFactoryStack ∨ ∃ name, cause = .cyclicScope name) ∧
    error = (Complaint.symbol cause).locate span

/-- Whether an error is on account of the source, or says that the open templates cannot take in a
declaration, which does not happen in a strict parse. -/
def ParseError.Tame (strict : Prop) (error : ParseError) : Prop :=
  error.kind = .internalError → ¬ strict ∧ error.NestingFault

theorem ParseError.tame_of_ne {strict : Prop} {error : ParseError}
    (ordinary : error.kind ≠ .internalError) : error.Tame strict :=
  fun internal => absurd internal ordinary

/-- Whether a node is there and is no template. -/
def Tree.Plain (tree : Tree) (id : NodeId) : Prop :=
  ∃ kind, tree.kindAt id = some kind ∧ kind.templateDecl? = none

namespace ParseState

variable {strict : Prop} {state next last : ParseState}

/-- Whether scopes, nodes and open templates fit together, and all errors so far are such as
may be reported. -/
structure Fits (strict : Prop) (state : ParseState) : Prop where
  cursor : state.cursor.Sound
  coherent : Coherent state.tree state.table state.scopes.frames
  tame : ∀ error ∈ state.errors, error.Tame strict

/-- A state behind some part of a parse that leaves it inside the same scopes. -/
structure Continues (strict : Prop) (before after : ParseState) : Prop where
  fits : after.Fits strict
  scopes : before.scopes.Remain after.scopes
  moves : before.cursor.Moves after.cursor
  plain : ∀ id, before.tree.Plain id → after.tree.Plain id

theorem Fits.refl (fits : state.Fits strict) : state.Continues strict state :=
  ⟨fits, .refl _, .refl _, fun _ plain => plain⟩

theorem Continues.trans (left : state.Continues strict next)
    (right : next.Continues strict last) : state.Continues strict last :=
  ⟨right.fits, left.scopes.trans right.scopes, left.moves.trans right.moves,
    fun id plain => right.plain id (left.plain id plain)⟩

theorem Reads.continues (reads : state.Reads next) (fits : state.Fits strict) :
    state.Continues strict next := by
  obtain ⟨moves, same⟩ := reads
  have scopes : next.scopes = state.scopes := by rw [same]
  have tree : next.tree = state.tree := by rw [same]
  have table : next.table = state.table := by rw [same]
  have errors : next.errors = state.errors := by rw [same]
  refine ⟨⟨moves.sound fits.cursor, ?_, ?_⟩, ?_, moves, ?_⟩
  · rw [tree, table, scopes]
    exact fits.coherent
  · rw [errors]
    exact fits.tame
  · rw [scopes]
    exact .refl _
  · rw [tree]
    exact fun _ plain => plain

/-! ## Declarations behind template prefixes -/

/-- Whether declarations do not go through open templates. -/
def Aside (state : ParseState) : Prop :=
  ∀ factory container, state.scopes.inner.target ≠ .template factory container

/-- Whether a strict parse may go on: no template prefix to come is open where a block of exported
declarations starts, nor is the one that the parse stands in, and the open templates are free. -/
def Quiet (strict : Prop) (state : ParseState) : Prop :=
  strict → ¬ Heralds state.cursor.unread ∧ ∀ factory container,
    state.scopes.inner.target = .template factory container →
      ¬ ClosesOnBlock state.cursor.unread ∧ state.table.Free factory

/-- Whether a declaration that goes through open templates of a strict parse does not come to a
block of exported declarations. -/
def Shut (strict : Prop) (state : ParseState) : Prop :=
  strict → ∀ factory container, state.scopes.inner.target = .template factory container →
    ¬ ComesToBlock state.cursor.unread

theorem Shut.of_aside (aside : strict → state.Aside) : state.Shut strict :=
  fun strictly factory container target => absurd target (aside strictly factory container)

theorem Shut.reads (shut : state.Shut strict) (reads : state.Reads next)
    (comes : ComesToBlock next.cursor.unread → ComesToBlock state.cursor.unread) :
    next.Shut strict := by
  have scopes : next.scopes = state.scopes := by rw [reads.2]
  unfold Shut
  rw [scopes]
  exact fun strictly factory container target behind =>
    shut strictly factory container target (comes behind)

theorem Quiet.of_aside (quiet : state.Quiet strict) (moves : state.cursor.Moves next.cursor)
    (aside : next.Aside) : next.Quiet strict := by
  intro strictly
  refine ⟨fun heralds => (quiet strictly).1 (moves.heralds heralds), ?_⟩
  intro factory container target
  exact absurd target (aside factory container)

/-- A change that leaves open templates free keeps a parse quiet. -/
theorem Quiet.keep (quiet : state.Quiet strict) (moves : state.cursor.Moves next.cursor)
    (scopes : next.scopes = state.scopes)
    (free : ∀ factory, state.table.Free factory → next.table.Free factory) :
    next.Quiet strict := by
  intro strictly
  obtain ⟨noHerald, before⟩ := quiet strictly
  refine ⟨fun heralds => noHerald (moves.heralds heralds), ?_⟩
  rw [scopes]
  intro factory container target
  obtain ⟨clear, opened⟩ := before factory container target
  exact ⟨fun closes => clear (moves.closesOnBlock closes), free factory opened⟩

theorem Quiet.reads (quiet : state.Quiet strict) (reads : state.Reads next) :
    next.Quiet strict := by
  obtain ⟨moves, same⟩ := reads
  have scopes : next.scopes = state.scopes := by rw [same]
  have table : next.table = state.table := by rw [same]
  refine quiet.keep moves scopes ?_
  rw [table]
  exact fun _ free => free

theorem Aside.remain (aside : state.Aside) (remain : state.scopes.Remain next.scopes) :
    next.Aside := by
  intro factory container target
  cases remain with
  | cons head _ =>
      rcases head with same | ⟨_, changed⟩
      · rw [same] at target
        exact aside factory container target
      · rw [changed] at target
        cases target

theorem Quiet.continues (quiet : state.Quiet strict) (aside : state.Aside)
    (continues : state.Continues strict next) : next.Quiet strict :=
  quiet.of_aside continues.moves (aside.remain continues.scopes)

/-! ## Entering and leaving scopes -/

/-- A scope that is no template is entered. -/
theorem Fits.enter (fits : state.Fits strict) {frame : ScopeFrame}
    (seated : frame.Seated state.tree state.table) (plain : frame.kind ≠ .template)
    (inside : ∀ outer ∈ state.scopes.frames, frame.Inside outer) :
    (state.enter frame).Fits strict :=
  ⟨fits.cursor, fits.coherent.push seated plain inside, fits.tame⟩

/-- The scopes around one that is left. -/
theorem exists_frames_leave {frame : ScopeFrame}
    (remain : (state.enter frame).scopes.Remain next.scopes) :
    ∃ inner, frame.Remains inner ∧ next.scopes.frames = inner :: next.leave.scopes.frames := by
  change List.Forall₂ _ (frame :: state.scopes.frames) (next.scopes.inner :: next.scopes.outer)
    at remain
  cases remain with
  | cons head tail =>
      refine ⟨next.scopes.inner, head, ?_⟩
      unfold ParseState.leave ScopeStack.pop ScopeStack.frames
      cases outer : next.scopes.outer with
      | nil =>
          rw [outer] at tail
          cases tail
      | cons first rest => rfl

theorem Continues.leave {frame : ScopeFrame}
    (continues : (state.enter frame).Continues strict next) (plain : frame.kind ≠ .template) :
    state.Continues strict next.leave := by
  obtain ⟨inner, remains, frames⟩ := exists_frames_leave continues.scopes
  have kind : inner.kind ≠ .template := by
    rcases remains with rfl | ⟨template, _⟩
    · exact plain
    · exact absurd template plain
  have coherent := continues.fits.coherent
  rw [frames] at coherent
  exact ⟨⟨continues.fits.cursor, coherent.pop kind, continues.fits.tame⟩, continues.scopes.pop,
    continues.moves, continues.plain⟩

/-! ## Changes of the table and the tree -/

/-- Things are added to the table. -/
theorem Fits.withTable (fits : state.Fits strict) {table : SymbolTable}
    (retains : state.table.Retains table) (reached : table.Reachable) :
    state.Continues strict (state.withTable table) :=
  ⟨⟨fits.cursor, fits.coherent.retains retains reached, fits.tame⟩, .refl _, .refl _,
    fun _ plain => plain⟩

theorem Fits.report (fits : state.Fits strict) {error : ParseError} (tame : error.Tame strict) :
    state.Continues strict { state with errors := state.errors.push error } := by
  refine ⟨⟨fits.cursor, fits.coherent, ?_⟩, .refl _, .refl _, fun _ plain => plain⟩
  intro other member
  rcases Array.mem_push.1 member with before | rfl
  · exact fits.tame other before
  · exact tame

theorem plain_of_amends {tree later : Tree} {node : NodeId}
    {change : TemplateDecl → TemplateDecl} (amends : tree.Amends later node change) {id : NodeId}
    (plain : tree.Plain id) : later.Plain id := by
  obtain ⟨kind, found, noTemplate⟩ := plain
  exact ⟨kind, (amends.kindAt_plain noTemplate).2 found, noTemplate⟩

theorem Fits.finishNode (fits : state.Fits strict) (node : NodeId) (span : Span) :
    state.Continues strict (state.finishNode node span) :=
  ⟨⟨fits.cursor, fits.coherent.finish node span, fits.tame⟩, .refl _, .refl _,
    fun _ => plain_of_amends (.finish state.tree node span)⟩

theorem addNode_eq (state : ParseState) (parent : NodeId) (kind : NodeKind) (start : Span) :
    state.addNode parent kind start = (⟨state.tree.size⟩, { state with
      tree := (state.tree.add kind parent start).2
      table := state.table.recorded kind (state.tree.ref ⟨state.tree.size⟩) }) := by
  unfold addNode SymbolTable.recorded
  cases kind.symbol? <;> rfl

theorem reachable_recorded (reached : state.table.Reachable) (parent : NodeId) (kind : NodeKind)
    (start : Span) :
    (state.table.recorded kind (state.tree.ref ⟨state.tree.size⟩)).Reachable := by
  have added := reachable_addNode reached parent kind start
  rwa [addNode_eq] at added

theorem plain_add {tree : Tree} {id : NodeId} (plain : tree.Plain id) (kind : NodeKind)
    (parent : NodeId) (start : Span) : (tree.add kind parent start).2.Plain id := by
  obtain ⟨other, found, noTemplate⟩ := plain
  exact ⟨other, tree.kindAt_add_of_some kind parent start found, noTemplate⟩

/-- A node that is no template is started inside another one. -/
theorem Fits.addNode (fits : state.Fits strict) {kind : NodeKind} {parent : NodeId}
    (belongs : kind.Belongs state.tree state.table parent) (plain : kind.templateDecl? = none)
    (within : ∀ declaration, state.tree.kindAt parent = some (.template declaration) →
      ∃ frame ∈ state.scopes.frames, frame.node = parent) (start : Span) :
    state.Continues strict (state.addNode parent kind start).2 ∧
      (state.addNode parent kind start).2.tree.Plain (state.addNode parent kind start).1 := by
  have reached := reachable_recorded fits.coherent.orderly.reachable parent kind start
  rw [addNode_eq]
  refine ⟨⟨⟨fits.cursor, fits.coherent.add belongs plain within start reached, fits.tame⟩,
    .refl _, .refl _, fun _ before => plain_add before kind parent start⟩, kind, ?_, plain⟩
  exact state.tree.kindAt_add_new kind parent start

/-- A node whose symbol no template wraps is started inside a node that is no template. -/
theorem Fits.addNode_plain (fits : state.Fits strict) {kind : NodeKind} {parent : NodeId}
    (around : state.tree.Plain parent) (plain : kind.templateDecl? = none)
    (unwrapped : ∀ symbol template, kind.symbol? = some symbol →
      state.table.templated? template ≠ some symbol) (start : Span) :
    state.Continues strict (state.addNode parent kind start).2 := by
  obtain ⟨other, found, noTemplate⟩ := around
  have excluded (declaration : TemplateDecl) :
      state.tree.kindAt parent ≠ some (.template declaration) := by
    rw [found]
    rintro ⟨⟩
    cases noTemplate
  refine (fits.addNode ⟨state.tree.has_of_kindAt found, ?_, ?_, ?_⟩ plain ?_ start).1
  · intro symbol template known _ wraps
    exact absurd wraps (unwrapped symbol template known)
  · intro _ declaration there
    exact absurd there (excluded declaration)
  · rintro declaration rfl
    cases plain
  · intro declaration there
    exact absurd there (excluded declaration)

/-! ## Declaring -/

/-- Whether a symbol that was just declared awaits its node: it is behind the symbols of all
scopes, and wrapped by the innermost scope if that is a template, and by nothing else. -/
structure Awaits (state : ParseState) (symbol : SymbolId) : Prop where
  present : state.table.Has symbol
  later : ∀ frame ∈ state.scopes.frames, frame.symbol.index < symbol.index
  wraps : state.scopes.inner.kind = .template →
    state.table.templated? state.scopes.inner.symbol = some symbol
  wrapped : ∀ template, state.table.templated? template = some symbol →
    state.scopes.inner.kind = .template ∧ template = state.scopes.inner.symbol

/-- No template wraps a symbol that is just added. -/
theorem unwrapped_fresh {table after : SymbolTable} (orderly : table.Orderly)
    (retains : table.Retains after) (template : SymbolId) :
    after.templated? template ≠ some ⟨table.size⟩ := by
  intro wraps
  rw [retains.templated?_eq] at wraps
  exact table.not_has_fresh (orderly.reachable.consistent.has_templated wraps)

theorem Fits.symbol_lt (fits : state.Fits strict) {frame : ScopeFrame}
    (member : frame ∈ state.scopes.frames) : frame.symbol.index < state.table.size :=
  (state.table.has_iff_lt _).1 (fits.coherent.seated frame member).present

theorem Fits.seated_inner (fits : state.Fits strict) :
    state.scopes.inner.Seated state.tree state.table :=
  fits.coherent.seated _ List.mem_cons_self

/-- A symbol declared in the scope itself. -/
theorem Fits.awaits_declare (fits : state.Fits strict)
    (target : state.scopes.inner.target = .container) {scope symbol : SymbolId}
    {request : SymbolRequest} (plain : request.kind.templateInfo? = none) {table : SymbolTable}
    (done : state.table.declare scope request = .ok (symbol, table)) :
    (state.withTable table).Awaits symbol := by
  have retains := SymbolTable.Retains.declare plain done
  obtain ⟨_, attached⟩ := SymbolTable.attach_of_declare done
  obtain ⟨rfl, rfl⟩ := Prod.mk.inj attached
  have present : (state.table.attach scope request).2.Has ⟨state.table.size⟩ :=
    (SymbolTable.has_attach _ _ _ _).2 (.inl rfl)
  refine ⟨present, fun frame member => fits.symbol_lt member, ?_, ?_⟩
  · intro isTemplate
    exact absurd target (fits.seated_inner.template isTemplate).1
  · intro template wraps
    exact absurd wraps (unwrapped_fresh fits.coherent.orderly retains template)

section Templated

variable {factory : FactoryId} {container : SymbolId} {table : SymbolTable}
  (fits : state.Fits strict) (target : state.scopes.inner.target = .template factory container)
  (enclosed : state.table.Enclosed table factory (state.table.stackOf factory))

include fits target

theorem Fits.inner_isTemplate : state.scopes.inner.kind = .template := by
  apply fits.seated_inner.isTemplate
  rw [target]
  simp

/-- The innermost open template is the innermost scope. -/
theorem Fits.stack_head {innermost : SymbolId} {outer : List SymbolId}
    (stack : state.table.stackOf factory = innermost :: outer) :
    innermost = state.scopes.inner.symbol := by
  have listed := fits.coherent.opened factory
  have opens : state.scopes.inner.opens factory = true :=
    ScopeFrame.opens_iff.2 ⟨container, target⟩
  unfold ScopeStack.frames at listed
  rw [stack, opensOf_cons, if_pos opens] at listed
  exact (List.cons_prefix_cons.1 listed).1

include enclosed

omit target in
theorem Fits.withEnclosed (reached : table.Reachable) :
    state.Continues strict (state.withTable table) :=
  ⟨⟨fits.cursor, fits.coherent.enclosed enclosed reached, fits.tame⟩, .refl _, .refl _,
    fun _ plain => plain⟩

theorem Fits.consumed (reached : table.Reachable) :
    state.Continues strict { state with table := table, scopes := state.scopes.consume } := by
  have closed : table.stackOf factory = [] := by
    rw [enclosed.closed, if_pos rfl]
  have leads : ∀ frame ∈ state.scopes.frames.head?,
      frame.target = .template factory container := by
    rintro _ ⟨⟩
    exact target
  refine ⟨⟨fits.cursor, ?_, fits.tame⟩, ScopeStack.remain_consume _, .refl _,
    fun _ plain => plain⟩
  rw [ScopeStack.frames_consume]
  exact (fits.coherent.enclosed enclosed reached).consume leads closed

theorem Fits.awaits_enclosed {innermost : SymbolId} {outer : List SymbolId}
    (stack : state.table.stackOf factory = innermost :: outer) :
    { state with table := table, scopes := state.scopes.consume : ParseState }.Awaits
      ⟨state.table.size⟩ := by
  have orderly := fits.coherent.orderly
  have isTemplate := fits.inner_isTemplate target
  have inner : state.scopes.consume.inner =
      { state.scopes.inner with target := .consumed } := by
    rw [ScopeStack.consume, if_pos isTemplate]
  have head := fits.stack_head target stack
  have chain := enclosed.chain
  rw [stack] at chain
  have wraps := (List.isChain_cons_cons.1 chain).1
  refine ⟨enclosed.has_fresh, ?_, ?_, ?_⟩
  · intro frame member
    obtain ⟨earlier, entered, remains⟩ :=
      ScopeStack.exists_remains (ScopeStack.remain_consume state.scopes) member
    have before := fits.symbol_lt entered
    rcases remains with rfl | ⟨_, rfl⟩
    · exact before
    · exact before
  · intro _
    rw [inner, ← head]
    exact wraps
  · intro template wrapped
    rw [inner]
    refine ⟨isTemplate, ?_⟩
    rcases enclosed.templated?_cases wrapped enclosed.chain.tail with
      ⟨_, before⟩ | ⟨first, _⟩ | ⟨inside, _⟩
    · exact absurd (orderly.reachable.consistent.has_templated before)
        state.table.not_has_fresh
    · rw [stack] at first
      exact (Option.some.inj first).symm.trans head
    · exact absurd (orderly.reachable.has_frame inside) state.table.not_has_fresh

end Templated

/-! ## The node of a declaration -/

/-- Whether a node that is no template has just been started for a scope, behind all scopes
around it. -/
structure Placed (state : ParseState) (node : NodeId) (symbol : SymbolId) : Prop where
  plain : state.tree.Plain node
  present : state.table.Has symbol
  behind : ∀ frame ∈ state.scopes.frames,
    frame.node.index < node.index ∧ frame.symbol.index ≤ symbol.index

theorem Placed.reads {node : NodeId} {symbol : SymbolId} (placed : state.Placed node symbol)
    (reads : state.Reads next) : next.Placed node symbol := by
  have same := reads.2
  have scopes : next.scopes = state.scopes := by rw [same]
  have tree : next.tree = state.tree := by rw [same]
  have table : next.table = state.table := by rw [same]
  exact ⟨tree ▸ placed.plain, table ▸ placed.present, scopes ▸ placed.behind⟩

/-- A scope is entered for a node and its symbol. -/
theorem Fits.enter_placed (fits : state.Fits strict) {node : NodeId} {symbol : SymbolId}
    (placed : state.Placed node symbol) {kind : FrameKind} (plain : kind ≠ .template) :
    (state.enter ⟨node, symbol, .container, kind⟩).Fits strict := by
  apply fits.enter _ plain
  · intro outer member
    obtain ⟨earlier, before⟩ := placed.behind outer member
    exact ⟨earlier, before, fun template => absurd template plain⟩
  · exact ⟨placed.present, fun template => absurd template plain, fun _ => ⟨rfl, placed.plain⟩,
      by rintro _ _ ⟨⟩⟩

/-- A new node is behind the nodes of all scopes. -/
theorem Fits.placed_addNode (fits : state.Fits strict) {parent : NodeId} {kind : NodeKind}
    {start : Span} {symbol : SymbolId}
    (plain : (state.addNode parent kind start).2.tree.Plain (state.addNode parent kind start).1)
    (present : state.table.Has symbol)
    (behind : ∀ frame ∈ state.scopes.frames, frame.symbol.index ≤ symbol.index) :
    (state.addNode parent kind start).2.Placed (state.addNode parent kind start).1 symbol := by
  refine ⟨plain, ?_, ?_⟩
  · rw [addNode_eq]
    exact (SymbolTable.has_recorded _ _ _ _).2 present
  · rw [addNode_eq]
    intro frame member
    exact ⟨(fits.coherent.seated frame member).has_node, behind frame member⟩

/-- The node of a declaration is started in the innermost scope. -/
theorem Fits.addEntity (fits : state.Fits strict) {symbol : SymbolId}
    (awaits : state.Awaits symbol) {kind : NodeKind} (entity : kind.isEntity = true)
    (same : kind.symbol? = some symbol) (start : Span) :
    state.Continues strict (state.addNode state.scopes.inner.node kind start).2 ∧
      (state.addNode state.scopes.inner.node kind start).2.Placed
        (state.addNode state.scopes.inner.node kind start).1 symbol := by
  have seated := fits.seated_inner
  have noTemplate : kind.templateDecl? = none := by
    cases kind <;> simp_all [NodeKind.isEntity, NodeKind.templateDecl?]
  have belongs : kind.Belongs state.tree state.table state.scopes.inner.node := by
    refine ⟨seated.has_node, ?_, ?_, ?_⟩
    · intro other template known _ wraps
      obtain rfl := Option.some.inj (same.symm.trans known)
      obtain ⟨isTemplate, rfl⟩ := awaits.wrapped template wraps
      obtain ⟨_, declaration, found, symbol, _⟩ := seated.template isTemplate
      refine ⟨?_, declaration, found, symbol⟩
      cases kind <;> simp_all [NodeKind.isEntity, NodeKind.isTemplateParameter]
    · intro _ declaration found
      by_cases isTemplate : state.scopes.inner.kind = .template
      · obtain ⟨_, other, there, symbol, _⟩ := seated.template isTemplate
        obtain rfl := NodeKind.template.inj (Option.some.inj (there.symm.trans found))
        rw [symbol, same]
        exact awaits.wraps isTemplate
      · obtain ⟨_, other, there, plain⟩ := seated.plain isTemplate
        obtain rfl := Option.some.inj (there.symm.trans found)
        cases plain
    · rintro declaration rfl
      cases noTemplate
  obtain ⟨continues, plain⟩ := fits.addNode belongs noTemplate
    (fun _ _ => ⟨state.scopes.inner, List.mem_cons_self, rfl⟩) start
  exact ⟨continues, fits.placed_addNode plain awaits.present fun frame member =>
    Nat.le_of_lt (awaits.later frame member)⟩

/-- A node that is neither a template nor a declaration made for one is started in the innermost
scope. -/
theorem Fits.addOther (fits : state.Fits strict) {kind : NodeKind}
    (plain : kind.templateDecl? = none) (other : kind.isEntity = false)
    (unwrapped : ∀ symbol template, kind.symbol? = some symbol →
      state.table.templated? template ≠ some symbol) (start : Span) :
    state.Continues strict (state.addNode state.scopes.inner.node kind start).2 ∧
      (state.addNode state.scopes.inner.node kind start).2.tree.Plain
        (state.addNode state.scopes.inner.node kind start).1 := by
  refine fits.addNode ⟨fits.seated_inner.has_node, ?_, ?_, ?_⟩ plain
    (fun _ _ => ⟨state.scopes.inner, List.mem_cons_self, rfl⟩) start
  · intro symbol template known _ wraps
    exact absurd wraps (unwrapped symbol template known)
  · intro entity
    rw [other] at entity
    cases entity
  · rintro declaration rfl
    cases plain

end ParseState

end DeclTree
