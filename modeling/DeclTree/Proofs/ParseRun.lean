import DeclTree.Proofs.DeclarationOutcome
import DeclTree.Proofs.ReadingProgress
import DeclTree.Proofs.TableGrowth
import Mathlib.Logic.Relation

/-!
# Runs of a parse

A parse is a run of small steps: it reads, takes notes, changes the symbol table, and
starts and finishes nodes.  The declarations it is inside form a stack.  A declaration
waits at the place where it starts until it is recognised and gets a node; the node
takes that place as its start, even if other nodes have been finished since, and ends
at a token behind all of them.  What holds of every parse, whatever the grammar, is
shown by one step and then carried along a run.
-/

namespace DeclTree

/-- Whether a node may stand for what it declares: a symbol since the table had `base`
of them that no node stands for yet, of the same name if the node has one. -/
structure NodeKind.Stands (base : Nat) (table : SymbolTable) (kind : NodeKind) : Prop where
  inner : ∀ unit symbol, kind ≠ .translationUnit unit symbol
  plain : ∀ declaration, kind ≠ .namespaceScope declaration
  symbol : ∀ id, kind.symbol? = some id → base ≤ id.index ∧ ∃ symbol,
    table.get? id = some symbol ∧ symbol.origin = none ∧ symbol.kind ≠ .namespaceScope ∧
      ∀ name, kind.name? = some name → symbol.name = name ∧ symbol.isTemplate = false

/-- What a node declares, and the table in which it does: a namespace is opened together
with its node. -/
inductive NodeKind.Introduces (base : Nat) (table : SymbolTable) :
    NodeKind → SymbolTable → Prop
  | declared {kind : NodeKind} (stands : kind.Stands base table) : Introduces base table kind table
  | opened {scope symbol : SymbolId} {name : String} {unit : Option UnitId} {isInline : Bool}
      {changed : SymbolTable}
      (opens : table.openNamespace scope name unit = .ok (symbol, changed)) :
      Introduces base table (.namespaceScope ⟨name, isInline, symbol⟩)
        (if isInline then changed.addUsing scope symbol else changed)

/-- A declaration that the parse is inside: the cursor in front of it, and its node once
it is recognised. -/
structure Opening where
  start : Cursor
  node : Option NodeId := none

/-- A parse on its way: its state, the declarations it is inside, innermost first, and a
place behind all nodes that are finished. -/
structure Stage where
  state : ParseState
  opened : List Opening := []
  settled : Cursor

namespace Stage

/-- The innermost node that is not finished. -/
def around (stage : Stage) : NodeId :=
  (stage.opened.findSome? Opening.node).getD Tree.root

/-- A place where a declaration may start that the parse is inside from now on: behind
all finished nodes, or where the innermost declaration starts. -/
structure Place (stage : Stage) (start : Cursor) : Prop where
  inside : ∀ opening ∈ stage.opened, opening.start.Moves start
  passed : start.Moves stage.state.cursor
  apart : stage.settled.Moves start ∨ ∃ outer ∈ stage.opened.head?, outer.start = start

/-- The stage inside a declaration that is not recognised yet. -/
def awaiting (stage : Stage) (start : Cursor) : Stage :=
  { stage with opened := { start := start } :: stage.opened }

def begun (stage : Stage) (start : Cursor) (kind : NodeKind) (table : SymbolTable) : Stage :=
  let added := (stage.state.withTable table).addNode stage.around kind start.peek.span
  { stage with state := added.2, opened := ⟨start, some added.1⟩ :: stage.opened }

/-- The stage with the node of the innermost declaration finished. -/
def finished (stage : Stage) (node : NodeId) (last : Cursor) (outer : List Opening) : Stage where
  state := stage.state.finishNode node last.previousSpan
  opened := outer
  settled := last

/-- One step of a parse. -/
inductive Step (base : Nat) : Stage → Stage → Prop
  | read {stage : Stage} {cursor : Cursor} (moves : stage.state.cursor.Moves cursor) :
      Step base stage { stage with state := { stage.state with cursor := cursor } }
  | note {stage : Stage} (errors : Array ParseError) (scopes : ScopeStack) :
      Step base stage
        { stage with state := { stage.state with errors := errors, scopes := scopes } }
  | change {stage : Stage} {operation : TableOperation}
      (admitted : stage.state.table.Admits operation) (confined : operation.Confines base False) :
      Step base stage
        { stage with state := stage.state.withTable (stage.state.table.perform operation) }
  | amend {stage : Stage} {node : NodeId} {change : TemplateDecl → TemplateDecl}
      (same : ∀ found declaration, stage.state.tree.get? node = some found →
        found.kind = .template declaration → (change declaration).template = declaration.template) :
      Step base stage
        { stage with
          state := { stage.state with tree := stage.state.tree.updateTemplate node change } }
  | await {stage : Stage} {start : Cursor} (place : stage.Place start) :
      Step base stage (stage.awaiting start)
  | cancel {stage : Stage} {start : Cursor} {outer : List Opening}
      (waiting : stage.opened = { start := start } :: outer) :
      Step base stage { stage with opened := outer }
  | begin {stage : Stage} {start : Cursor} {kind : NodeKind} {table : SymbolTable}
      (place : stage.Place start) (present : stage.state.tree.Has stage.around)
      (introduces : kind.Introduces base stage.state.table table) :
      Step base stage (stage.begun start kind table)
  | finish {stage : Stage} {start last : Cursor} {node : NodeId} {outer : List Opening}
      (running : stage.opened = ⟨start, some node⟩ :: outer) (behind : stage.settled.Moves last)
      (passed : last.Moves stage.state.cursor) (moves : start.Moves last)
      (read : last.weight < start.weight) :
      Step base stage (stage.finished node last outer)

/-- Any number of steps. -/
abbrev Run (base : Nat) : Stage → Stage → Prop :=
  Relation.ReflTransGen (Step base)

/-- What holds at every stage of a parse: the declarations it is inside start behind the
cursor, and so do all finished nodes end. -/
structure Ready (base : Nat) (stage : Stage) : Prop where
  cursor : stage.state.cursor.Sound
  table : stage.state.table.Reachable
  since : stage.state.table.FramesSince base
  large : base ≤ stage.state.table.size
  settled : stage.settled.Moves stage.state.cursor
  opened : ∀ opening ∈ stage.opened, opening.start.Moves stage.state.cursor
  nested : stage.opened.Pairwise fun inner outer => outer.start.Moves inner.start

end Stage

namespace SymbolTable

/-- Recording where a symbol comes from does not touch open templates. -/
theorem FramesSince.recordOrigin {base : Nat} {table : SymbolTable}
    (since : table.FramesSince base) (id : SymbolId) (origin : NodeRef) :
    (table.update id (ParseM.recordOrigin origin)).FramesSince base := by
  apply since.update
  intro symbol
  unfold ParseM.recordOrigin
  split <;> rfl

end SymbolTable

namespace NodeKind.Introduces

variable {base : Nat} {table changed : SymbolTable} {kind : NodeKind}

theorem reachable (introduces : kind.Introduces base table changed) (reached : table.Reachable) :
    changed.Reachable := by
  cases introduces with
  | declared => exact reached
  | @opened scope symbol name unit isInline opened opens =>
      have reachedOpened : opened.Reachable := by
        have performed : (table.perform (.openNamespace scope name unit)).Reachable :=
          reached.perform trivial
        rwa [SymbolTable.perform, ParseM.settle_eq opens] at performed
      have admitted : opened.Admits (.addUsing scope symbol) :=
        SymbolTable.has_of_openNamespace opens
      split
      · exact reachedOpened.perform admitted
      · exact reachedOpened

/-- A namespace is found in the table or added to it. -/
theorem grows (introduces : kind.Introduces base table changed) :
    SymbolTable.Grows base True table changed := by
  cases introduces with
  | declared => exact .refl table
  | @opened scope symbol name unit isInline opened opens =>
      have growsOpened : SymbolTable.Grows base True table opened := by
        rcases SymbolTable.openNamespace_ok opens with ⟨_, rfl⟩ | declared
        · exact .refl _
        · exact .declare (fun _ => trivial) declared
      split
      · exact growsOpened.trans (.addUsing opened scope symbol)
      · exact growsOpened

theorem stacksWithin (introduces : kind.Introduces base table changed) :
    table.StacksWithin changed := by
  cases introduces with
  | declared => exact SymbolTable.stacksWithin_of_eq fun _ => rfl
  | @opened scope symbol name unit isInline opened opens =>
      have same (factory : FactoryId) : opened.stackOf factory = table.stackOf factory := by
        rcases SymbolTable.openNamespace_ok opens with ⟨_, rfl⟩ | declared
        · rfl
        · exact SymbolTable.stackOf_declare declared factory
      apply SymbolTable.stacksWithin_of_eq
      intro factory
      split
      · exact (SymbolTable.stackOf_congr rfl factory).trans (same factory)
      · exact same factory

end NodeKind.Introduces

namespace Stage

variable {base : Nat} {stage after : Stage}

theorem Ready.place (ready : stage.Ready base) : stage.Place stage.state.cursor :=
  ⟨ready.opened, .refl _, .inl ready.settled⟩

/-- A node may start where the innermost declaration does. -/
theorem Ready.place_head (ready : stage.Ready base) {opening : Opening}
    (head : opening ∈ stage.opened.head?) : stage.Place opening.start := by
  obtain ⟨outer, opened⟩ : ∃ outer, stage.opened = opening :: outer := List.head?_eq_some_iff.1 head
  have nested := ready.nested
  rw [opened, List.pairwise_cons] at nested
  refine ⟨?_, ready.opened opening (by simp [opened]), .inr ⟨opening, head, rfl⟩⟩
  intro other member
  rw [opened] at member
  rcases List.mem_cons.1 member with rfl | inside
  · exact .refl _
  · exact nested.1 other inside

theorem Ready.push (ready : stage.Ready base) {start : Cursor} (place : stage.Place start)
    (node : Option NodeId) : Ready base { stage with opened := ⟨start, node⟩ :: stage.opened } where
  cursor := ready.cursor
  table := ready.table
  since := ready.since
  large := ready.large
  settled := ready.settled
  opened opening member := by
    rcases List.mem_cons.1 member with rfl | outer
    · exact place.passed
    · exact ready.opened opening outer
  nested := List.pairwise_cons.2 ⟨fun outer member => place.inside outer member, ready.nested⟩

theorem Ready.pop (ready : stage.Ready base) {opening : Opening} {outer : List Opening}
    (opened : stage.opened = opening :: outer) : Ready base { stage with opened := outer } where
  cursor := ready.cursor
  table := ready.table
  since := ready.since
  large := ready.large
  settled := ready.settled
  opened other member := ready.opened other (opened ▸ List.mem_cons_of_mem _ member)
  nested := (List.pairwise_cons.1 (opened ▸ ready.nested)).2

theorem Ready.introduce (ready : stage.Ready base) {kind : NodeKind} {table : SymbolTable}
    (introduces : kind.Introduces base stage.state.table table) (parent : NodeId) (start : Span) :
    Ready base
      { stage with state := ((stage.state.withTable table).addNode parent kind start).2 } where
  cursor := ready.cursor
  table := ParseState.reachable_addNode (introduces.reachable ready.table) _ _ _
  since := by
    have since := ready.since.grows introduces.grows introduces.stacksWithin
    simp only [ParseState.addNode]
    split
    · exact since.recordOrigin _ _
    · exact since
  large := by
    apply Nat.le_trans ready.large
    apply Nat.le_trans introduces.grows.size_le
    simp only [ParseState.addNode]
    split
    · exact Nat.le_of_eq (SymbolTable.size_update _ _ _).symm
    · exact Nat.le_refl _
  settled := ready.settled
  opened := ready.opened
  nested := ready.nested

/-- Every step keeps a parse ready. -/
theorem Step.ready (step : Step base stage after) (ready : stage.Ready base) :
    after.Ready base := by
  cases step with
  | read moves =>
      exact { ready with
        cursor := moves.sound ready.cursor
        settled := ready.settled.trans moves
        opened := fun opening member => (ready.opened opening member).trans moves }
  | note | amend => exact { ready with }
  | change admitted confined =>
      have grows := SymbolTable.grows_perform ready.since ready.large confined
      exact { ready with
        table := ready.table.perform admitted
        since := ready.since.perform ready.large confined
        large := Nat.le_trans ready.large grows.size_le }
  | await place => exact ready.push place none
  | cancel waiting => exact ready.pop waiting
  | begin place _ introduces =>
      have placed := ready.introduce introduces stage.around
      exact (placed _).push ⟨place.inside, place.passed, place.apart⟩ _
  | finish running _ passed => exact { ready.pop running with settled := passed }

theorem Run.ready (run : Run base stage after) (ready : stage.Ready base) : after.Ready base := by
  induction run with
  | refl => exact ready
  | tail _ step ih => exact step.ready ih

/-- A parse never moves back. -/
theorem Run.moves (run : Run base stage after) : stage.state.cursor.Moves after.state.cursor := by
  induction run with
  | refl => exact .refl _
  | tail _ step ih =>
      cases step with
      | read moves => exact ih.trans moves
      | note | change | amend | await | cancel | begin | finish => exact ih

structure Reads (stage after : Stage) : Prop where
  state : stage.state.Reads after.state
  opened : after.opened = stage.opened
  settled : after.settled = stage.settled

theorem Reads.run {stage after : Stage} (reads : stage.Reads after) : Run base stage after := by
  obtain ⟨next, opened, settled⟩ := after
  obtain ⟨⟨moves, same⟩, rfl, rfl⟩ := reads
  have step : Step base stage
      { stage with state := { stage.state with cursor := next.cursor } } := .read moves
  rw [← same] at step
  exact .single step

/-- What a part of a parse leaves behind: some declarations that it is inside, and the
scopes, apart from templates that are done with. -/
structure Leaves (stage : Stage) (opened : List Opening) (after : Stage) : Prop where
  opened : after.opened = opened
  scopes : stage.state.scopes.Remain after.state.scopes

theorem Leaves.refl (stage : Stage) : stage.Leaves stage.opened stage :=
  ⟨rfl, .refl _⟩

theorem Leaves.trans {last : Stage} {opened : List Opening} {middle : List Opening}
    (left : stage.Leaves middle after) (right : after.Leaves opened last) :
    stage.Leaves opened last :=
  ⟨right.opened, left.scopes.trans right.scopes⟩

theorem Reads.leaves (reads : stage.Reads after) : stage.Leaves stage.opened after := by
  refine ⟨reads.opened, ?_⟩
  rw [reads.state.2]
  exact .refl _

/-- A stage behind some steps that leave the parse inside the same declarations. -/
structure Follows (base : Nat) (stage after : Stage) : Prop where
  run : Run base stage after
  ready : after.Ready base
  leaves : stage.Leaves stage.opened after

end Stage

namespace ParseM

open Stage (Run)

/-- What a parse does from a stage on: it runs to a stage that is accepted together with
its value, or is refused at a stage that is allowed for. -/
abbrev Performs {α : Type} (base : Nat) (parse : ParseM α) (stage : Stage)
    (accept : α → Stage → Prop) (refusal : Stage → Prop) : Prop :=
  Leads parse stage.state
    (fun value next => ∃ after : Stage, after.state = next ∧ Run base stage after ∧
      accept value after)
    fun next => ∃ after : Stage, after.state = next ∧ Run base stage after ∧ refusal after

/-- A parse that leaves the declarations it is inside as they are. -/
abbrev Proceeds {α : Type} (base : Nat) (parse : ParseM α) (stage : Stage)
    (result : α → Stage → Prop) : Prop :=
  Performs base parse stage
    (fun value after => stage.Leaves stage.opened after ∧ result value after)
    (stage.Leaves stage.opened)

/-- A parse that does so and is never refused. -/
abbrev Succeeds {α : Type} (base : Nat) (parse : ParseM α) (stage : Stage)
    (result : α → Stage → Prop) : Prop :=
  Performs base parse stage
    (fun value after => stage.Leaves stage.opened after ∧ result value after)
    fun _ => False

section Rules

variable {α β : Type} {base : Nat} {stage : Stage}

theorem Performs.mono {parse : ParseM α} {accept accept' : α → Stage → Prop}
    {refusal refusal' : Stage → Prop} (performs : Performs base parse stage accept refusal)
    (accepts : ∀ value after, accept value after → accept' value after)
    (refuses : ∀ after, refusal after → refusal' after) :
    Performs base parse stage accept' refusal' := by
  apply Leads.mono performs
  · rintro value next ⟨after, rfl, run, accepted⟩
    exact ⟨after, rfl, run, accepts value after accepted⟩
  · rintro next ⟨after, rfl, run, refused⟩
    exact ⟨after, rfl, run, refuses after refused⟩

/-- What follows a part of a parse starts at the stage it runs to. -/
theorem Performs.bind {first : ParseM α} {rest : α → ParseM β} {middle : α → Stage → Prop}
    {accept : β → Stage → Prop} {refusal : Stage → Prop} (ready : stage.Ready base)
    (performs : Performs base first stage middle refusal)
    (continued : ∀ value after, Run base stage after → after.Ready base → middle value after →
      Performs base (rest value) after accept refusal) :
    Performs base (first >>= rest) stage accept refusal := by
  apply Leads.bind performs
  rintro value next ⟨after, rfl, run, reached⟩
  apply Leads.mono (continued value after run (run.ready ready) reached)
  · rintro final next ⟨last, rfl, further, accepted⟩
    exact ⟨last, rfl, run.trans further, accepted⟩
  · rintro next ⟨last, rfl, further, refused⟩
    exact ⟨last, rfl, run.trans further, refused⟩

/-- The rest of a parse that leaves the declarations it is inside as they are. -/
theorem Proceeds.behind {parse : ParseM α} {after : Stage} {result : α → Stage → Prop}
    (proceeds : Proceeds base parse after result) (leaves : stage.Leaves stage.opened after) :
    Performs base parse after
      (fun value last => stage.Leaves stage.opened last ∧ result value last)
      (stage.Leaves stage.opened) := by
  apply proceeds.mono
  · rintro value last ⟨further, holds⟩
    exact ⟨leaves.trans (leaves.opened ▸ further), holds⟩
  · intro last further
    exact leaves.trans (leaves.opened ▸ further)

theorem Proceeds.bind {first : ParseM α} {rest : α → ParseM β} {middle : α → Stage → Prop}
    {result : β → Stage → Prop} (proceeds : Proceeds base first stage middle)
    (ready : stage.Ready base)
    (continued : ∀ value after, stage.Follows base after → middle value after →
      Proceeds base (rest value) after result) :
    Proceeds base (first >>= rest) stage result := by
  apply Performs.bind ready proceeds
  rintro value after run readyAfter ⟨leaves, reached⟩
  exact (continued value after ⟨run, readyAfter, leaves⟩ reached).behind leaves

/-- What follows a part that is never refused may be refused anywhere. -/
theorem Succeeds.bind {first : ParseM α} {rest : α → ParseM β} {middle : α → Stage → Prop}
    {accept : β → Stage → Prop} {refusal : Stage → Prop}
    (succeeds : Succeeds base first stage middle) (ready : stage.Ready base)
    (continued : ∀ value after, stage.Follows base after → middle value after →
      Performs base (rest value) after accept refusal) :
    Performs base (first >>= rest) stage accept refusal := by
  have allowed : Performs base first stage
      (fun value after => stage.Leaves stage.opened after ∧ middle value after) refusal :=
    succeeds.mono (fun _ _ reached => reached) fun _ refused => refused.elim
  apply Performs.bind ready allowed
  rintro value after run readyAfter ⟨leaves, reached⟩
  exact continued value after ⟨run, readyAfter, leaves⟩ reached

theorem Proceeds.imp {parse : ParseM α} {result result' : α → Stage → Prop}
    (proceeds : Proceeds base parse stage result)
    (implies : ∀ value after, result value after → result' value after) :
    Proceeds base parse stage result' :=
  proceeds.mono (fun value after both => ⟨both.1, implies value after both.2⟩)
    fun _ leaves => leaves

theorem Proceeds.ready {parse : ParseM α} {result : α → Stage → Prop}
    (proceeds : Proceeds base parse stage result) (ready : stage.Ready base) :
    Proceeds base parse stage fun value after => after.Ready base ∧ result value after := by
  apply Leads.mono proceeds
  · rintro value next ⟨after, rfl, run, leaves, holds⟩
    exact ⟨after, rfl, run, leaves, run.ready ready, holds⟩
  · intro next refused
    exact refused

theorem Succeeds.proceeds {parse : ParseM α} {result : α → Stage → Prop}
    (succeeds : Succeeds base parse stage result) : Proceeds base parse stage result :=
  succeeds.mono (fun _ _ both => both) fun _ refused => refused.elim

theorem performs_pure {value : α} {accept : α → Stage → Prop} {refusal : Stage → Prop}
    (accepted : accept value stage) : Performs base (pure value) stage accept refusal :=
  ⟨stage, rfl, .refl, accepted⟩

theorem succeeds_pure {value : α} {result : α → Stage → Prop} (holds : result value stage) :
    Succeeds base (pure value) stage result :=
  performs_pure ⟨.refl stage, holds⟩

theorem proceeds_pure {value : α} {result : α → Stage → Prop} (holds : result value stage) :
    Proceeds base (pure value) stage result :=
  performs_pure ⟨.refl stage, holds⟩

theorem proceeds_refuse {complaint : Complaint} {span : Span} {result : α → Stage → Prop} :
    Proceeds base (refuse complaint span) stage result :=
  ⟨stage, rfl, .refl, .refl stage⟩

/-- A parse that is taken up again is never refused. -/
theorem Performs.attempt {parse : ParseM α} {accept : α → Stage → Prop}
    {refusal refusal' : Stage → Prop} (performs : Performs base parse stage accept refusal) :
    Performs base (attempt parse) stage (fun outcome after =>
      (∀ value, outcome = .ok value → accept value after) ∧
        (∀ error, outcome = .error error → refusal after)) refusal' := by
  apply (Leads.attempt performs).imp
  rintro outcome next ⟨accepted, refused⟩
  cases outcome with
  | ok value =>
      obtain ⟨after, rfl, run, holds⟩ := accepted value rfl
      exact ⟨after, rfl, run, by rintro _ ⟨⟩; exact holds, by simp⟩
  | error error =>
      obtain ⟨after, rfl, run, holds⟩ := refused error rfl
      exact ⟨after, rfl, run, by simp, fun _ _ => holds⟩

theorem Proceeds.attempt {parse : ParseM α} {result : α → Stage → Prop}
    (proceeds : Proceeds base parse stage result) :
    Succeeds base (attempt parse) stage fun outcome after =>
      ∀ value, outcome = .ok value → result value after := by
  apply (Performs.attempt proceeds).mono
  · rintro outcome after ⟨accepted, refused⟩
    cases outcome with
    | ok value =>
        obtain ⟨leaves, holds⟩ := accepted value rfl
        exact ⟨leaves, by rintro _ ⟨⟩; exact holds⟩
    | error error => exact ⟨refused error rfl, by simp⟩
  · intro _ refused
    exact refused

/-! ## Reading -/

/-- A part that only reads. -/
theorem OnlyReads.proceeds_reading {parse : ParseM α} (reads : OnlyReads parse)
    {result : α → ParseState → Prop} (gives : Gives parse stage.state result) :
    Proceeds base parse stage fun value after => stage.Reads after ∧ result value after.state := by
  have reached (next : ParseState) (read : stage.state.Reads next) : ∃ after : Stage,
      after.state = next ∧ Run base stage after ∧ stage.Reads after := by
    have reads : stage.Reads { stage with state := next } := ⟨read, rfl, rfl⟩
    exact ⟨_, rfl, reads.run, reads⟩
  apply ((reads.leads stage.state).and gives).mono
  · rintro value next ⟨read, holds⟩
    obtain ⟨after, rfl, run, reads⟩ := reached next read
    exact ⟨after, rfl, run, reads.leaves, reads, holds⟩
  · rintro next ⟨read, _⟩
    obtain ⟨after, rfl, run, reads⟩ := reached next read
    exact ⟨after, rfl, run, reads.leaves⟩

theorem OnlyReads.proceeds_giving {parse : ParseM α} (reads : OnlyReads parse)
    {result : α → ParseState → Prop} (gives : Gives parse stage.state result) :
    Proceeds base parse stage fun value after => result value after.state :=
  (reads.proceeds_reading gives).imp fun _ _ both => both.2

theorem OnlyReads.reading {parse : ParseM α} (reads : OnlyReads parse) (stage : Stage) :
    Proceeds base parse stage fun _ after => stage.Reads after := by
  have always := (reads.gives stage.state).imp fun _ _ _ => trivial
  exact (reads.proceeds_reading always).imp fun _ _ both => both.1

theorem OnlyReads.proceeds {parse : ParseM α} (reads : OnlyReads parse) (stage : Stage) :
    Proceeds base parse stage fun _ _ => True :=
  reads.proceeds_giving ((reads.gives stage.state).imp fun _ _ _ => trivial)

end Rules

end ParseM

end DeclTree
