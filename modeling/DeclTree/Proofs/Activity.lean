import DeclTree.Proofs.CursorMoves
import DeclTree.Proofs.FrameStacks
import DeclTree.Proofs.TreeGrowth
import Mathlib.Data.List.Forall2

/-!
# What a parse can do

A parse moves its cursor, reports errors, and changes the tree and the symbol
table.  Three things come in pairs around everything done in between: a node is
started and finished, a scope is entered and left, and a template is opened and
given up if it is still open.  What holds of a parse as a whole follows from this
list of activities, not from the grammar.
-/

namespace DeclTree

namespace ParseState

/-- A state whose cursor, table and tree are in order, inside scopes that have a
node in the tree. -/
structure Sound (state : ParseState) : Prop where
  cursor : state.cursor.Sound
  table : state.table.Reachable
  tree : state.tree.Sound
  scopes : ∀ frame ∈ state.scopes.frames, state.tree.Has frame.node

/-- The handle of a node started inside another one, and the state with it. -/
def addNode (state : ParseState) (parent : NodeId) (kind : NodeKind) (start : Span) :
    NodeId × ParseState :=
  let (node, tree) := state.tree.add kind parent start
  let table :=
    match kind.symbol? with
    | some symbol => state.table.update symbol (ParseM.recordOrigin (tree.ref node))
    | none => state.table
  (node, { state with tree := tree, table := table })

def finishNode (state : ParseState) (node : NodeId) (last : Span) : ParseState :=
  { state with tree := state.tree.finish node last }

/-- The state inside one more scope. -/
def enter (state : ParseState) (frame : ScopeFrame) : ParseState :=
  { state with scopes := state.scopes.push frame }

def leave (state : ParseState) : ParseState :=
  { state with scopes := state.scopes.pop }

def withTable (state : ParseState) (table : SymbolTable) : ParseState :=
  { state with table := table }

/-- What leads from one state of a parse to another. -/
inductive Activity : ParseState → ParseState → Prop
  | refl (state : ParseState) : Activity state state
  | trans {first second third : ParseState} (left : Activity first second)
      (right : Activity second third) : Activity first third
  | skip {state : ParseState} {count : Nat}
      (within : count ≤ state.cursor.unread.length ∨ count = 1) :
      Activity state { state with cursor := state.cursor.skip count }
  | split {state : ParseState} (closes : state.cursor.peek.kind = .punct .greaterGreater) :
      Activity state { state with cursor := state.cursor.splitShift }
  | report {state : ParseState} (error : ParseError) :
      Activity state { state with errors := state.errors.push error }
  | perform {state : ParseState} {operation : TableOperation}
      (admitted : state.table.Admits operation) (keeps : operation.KeepsFrames) :
      Activity state (state.withTable (state.table.perform operation))
  | closeTemplates {state : ParseState} {factory : FactoryId} {target : SymbolId}
      {request : SymbolRequest} (plain : request.kind.templateInfo? = none)
      {scopes : ScopeStack} (consumed : scopes = state.scopes ∨ scopes = state.scopes.consume) :
      Activity state { state with
        table := state.table.perform (.declareTemplated factory target request)
        scopes := scopes }
  | amend {state : ParseState} (node : NodeId) (change : TemplateDecl → TemplateDecl) :
      Activity state { state with tree := state.tree.updateTemplate node change }
  | node {state inside : ParseState} {parent : NodeId} {kind : NodeKind} {start last : Span}
      (present : state.tree.Has parent)
      (activity : Activity (state.addNode parent kind start).2 inside) :
      Activity state (inside.finishNode (state.addNode parent kind start).1 last)
  | scope {state inside : ParseState} {frame : ScopeFrame}
      (activity : Activity (state.enter frame) inside) : Activity state inside.leave
  | template {state inside : ParseState} {factory : FactoryId} {unit : Option UnitId}
      {template : SymbolId} {table : SymbolTable}
      (opened : state.table.openTemplate factory unit = .ok (template, table))
      (activity : Activity (state.withTable table) inside) :
      Activity state (inside.withTable (inside.table.discardTemplate factory template))

end ParseState

namespace SymbolTable

/-! ## Recording origins -/

theorem update_congr {table : SymbolTable} {id : SymbolId} {first second : Symbol → Symbol}
    (same : ∀ symbol, table.get? id = some symbol → first symbol = second symbol) :
    table.update id first = table.update id second := by
  unfold update
  congr 1
  apply Array.ext_getElem?
  intro index
  simp only [Array.getElem?_modify]
  split
  · rename_i equal
    subst equal
    cases found : table.symbols[id.index]? with
    | none => rfl
    | some symbol => simp [same symbol found]
  · rfl

theorem update_eq_self {table : SymbolTable} {id : SymbolId} {change : Symbol → Symbol}
    (same : ∀ symbol, table.get? id = some symbol → change symbol = symbol) :
    table.update id change = table := by
  have identity : table.update id (fun symbol => symbol) = table := by
    unfold update
    congr 1
    apply Array.ext_getElem?
    intro index
    simp [Array.getElem?_modify]
  exact (update_congr same).trans identity

/-- Recording the origin of a symbol is an operation on the table, or does
nothing. -/
theorem recordOrigin_cases (table : SymbolTable) (id : SymbolId) (origin : NodeRef) :
    table.update id (ParseM.recordOrigin origin) = table ∨
      table.update id (ParseM.recordOrigin origin) =
        table.perform (.setOrigin id (some origin)) := by
  cases found : table.get? id with
  | none => exact .inl (update_eq_self (by simp [found]))
  | some symbol =>
      by_cases fresh : symbol.origin.isNone
      · right
        simp only [perform, setOrigin, found, Except.map, settle]
        apply update_congr
        intro other present
        obtain rfl := Option.some.inj (found.symm.trans present)
        simp [ParseM.recordOrigin, fresh]
      · left
        apply update_eq_self
        intro other present
        obtain rfl := Option.some.inj (found.symm.trans present)
        simp [ParseM.recordOrigin, fresh]

/-- A template that is not open any more cannot be given up. -/
theorem discardTemplate_of_not_pending {table : SymbolTable} {factory : FactoryId}
    {template : SymbolId}
    (closed : (table.factory? factory).any (TemplateFactory.isPending · template) = false) :
    table.discardTemplate factory template = table := by
  unfold discardTemplate updateFactory
  congr 1
  apply Array.ext_getElem?
  intro index
  rw [Array.getElem?_modify]
  split
  · rename_i equal
    subst equal
    cases found : table.factories[factory.index]? with
    | none => rfl
    | some frames =>
        have inactive : frames.isPending template = false := by
          simpa [factory?, found] using closed
        simp [TemplateFactory.discard, inactive]
  · rfl

end SymbolTable

/-! ## What every activity keeps -/

/-- A scope behind some activity: the same, or that of a template whose declaration
has been made. -/
def ScopeFrame.Remains (before after : ScopeFrame) : Prop :=
  after = before ∨ (before.kind = .template ∧ after = { before with target := .consumed })

theorem ScopeFrame.Remains.trans {first second third : ScopeFrame}
    (left : first.Remains second) (right : second.Remains third) : first.Remains third := by
  rcases left with rfl | ⟨template, rfl⟩
  · exact right
  · rcases right with rfl | ⟨_, rfl⟩
    · exact .inr ⟨template, rfl⟩
    · exact .inr ⟨template, rfl⟩

namespace ScopeStack

/-- Whether the scopes are the same, apart from templates that are done with. -/
def Remain (before after : ScopeStack) : Prop :=
  List.Forall₂ ScopeFrame.Remains before.frames after.frames

theorem Remain.refl (stack : ScopeStack) : stack.Remain stack :=
  List.forall₂_same.2 fun _ _ => .inl rfl

theorem remains_trans {first second third : List ScopeFrame}
    (left : List.Forall₂ ScopeFrame.Remains first second)
    (right : List.Forall₂ ScopeFrame.Remains second third) :
    List.Forall₂ ScopeFrame.Remains first third := by
  induction left generalizing third with
  | nil => exact right
  | cons head _ ih =>
      cases right with
      | cons head' tail => exact .cons (head.trans head') (ih tail)

theorem Remain.trans {first second third : ScopeStack} (left : first.Remain second)
    (right : second.Remain third) : first.Remain third :=
  remains_trans left right

theorem exists_remains {before after : List ScopeFrame}
    (remain : List.Forall₂ ScopeFrame.Remains before after) {frame : ScopeFrame}
    (member : frame ∈ after) : ∃ earlier ∈ before, earlier.Remains frame := by
  induction remain with
  | nil => cases member
  | cons head _ ih =>
      rcases List.mem_cons.1 member with rfl | outer
      · exact ⟨_, List.mem_cons_self, head⟩
      · obtain ⟨earlier, entered, remains⟩ := ih outer
        exact ⟨earlier, List.mem_cons_of_mem _ entered, remains⟩

theorem remains_consumeFrames (frames : List ScopeFrame) :
    List.Forall₂ ScopeFrame.Remains frames (consumeFrames frames) := by
  induction frames with
  | nil => exact .nil
  | cons frame outer ih =>
      unfold consumeFrames
      split
      · exact .cons (.inr ⟨‹_›, rfl⟩) ih
      · exact List.forall₂_same.2 fun _ _ => .inl rfl

theorem remain_consume (stack : ScopeStack) : stack.Remain stack.consume := by
  unfold consume
  split
  · exact .cons (.inr ⟨‹_›, rfl⟩) (remains_consumeFrames stack.outer)
  · exact .refl stack

/-- A scope that was entered can be left again. -/
theorem Remain.pop {stack after : ScopeStack} {frame : ScopeFrame}
    (remain : (stack.push frame).Remain after) : stack.Remain after.pop := by
  unfold Remain at remain ⊢
  cases remain with
  | cons _ tail =>
      unfold ScopeStack.pop
      cases outer : after.outer with
      | nil => simp [outer, ScopeStack.push, frames] at tail
      | cons next rest =>
          rw [outer] at tail
          exact tail

end ScopeStack

namespace ParseState

theorem cursor_addNode (state : ParseState) (parent : NodeId) (kind : NodeKind) (start : Span) :
    (state.addNode parent kind start).2.cursor = state.cursor :=
  rfl

theorem table_addNode (state : ParseState) (parent : NodeId) (kind : NodeKind) (start : Span) :
    (state.addNode parent kind start).2.table = state.table ∨
      ∃ symbol origin, (state.addNode parent kind start).2.table =
        state.table.perform (.setOrigin symbol origin) := by
  unfold addNode
  cases kind.symbol? with
  | none => exact .inl rfl
  | some symbol =>
      rcases state.table.recordOrigin_cases symbol
        ((state.tree.add kind parent start).2.ref (state.tree.add kind parent start).1)
        with same | changed
      · exact .inl same
      · exact .inr ⟨symbol, _, changed⟩

theorem reachable_addNode {state : ParseState} (reached : state.table.Reachable)
    (parent : NodeId) (kind : NodeKind) (start : Span) :
    (state.addNode parent kind start).2.table.Reachable := by
  rcases state.table_addNode parent kind start with same | ⟨symbol, origin, changed⟩
  · rw [same]
    exact reached
  · rw [changed]
    exact reached.perform trivial

theorem size_addNode (state : ParseState) (parent : NodeId) (kind : NodeKind) (start : Span) :
    (state.addNode parent kind start).2.tree.size = state.tree.size + 1 :=
  Tree.size_add _ _ _ _

theorem has_addNode (state : ParseState) (parent : NodeId) (kind : NodeKind) (start : Span) :
    (state.addNode parent kind start).2.tree.Has (state.addNode parent kind start).1 := by
  unfold Tree.Has
  rw [size_addNode]
  exact Nat.lt_succ_self _

theorem Sound.addNode {state : ParseState} (sound : state.Sound) (parent : NodeId)
    (kind : NodeKind) (start : Span) : (state.addNode parent kind start).2.Sound where
  cursor := sound.cursor
  table := reachable_addNode sound.table parent kind start
  tree := sound.tree.add kind parent start
  scopes frame member := by
    apply (sound.scopes frame member).mono
    rw [size_addNode]
    exact Nat.le_succ _

theorem Sound.has_inner {state : ParseState} (sound : state.Sound) :
    state.tree.Has state.scopes.inner.node :=
  sound.scopes _ List.mem_cons_self

/-- A scope is entered at a node of the tree. -/
theorem Sound.enter {state : ParseState} (sound : state.Sound) {frame : ScopeFrame}
    (present : state.tree.Has frame.node) : (state.enter frame).Sound where
  cursor := sound.cursor
  table := sound.table
  tree := sound.tree
  scopes other member := by
    rcases List.mem_cons.1 member with rfl | outer
    · exact present
    · exact sound.scopes other outer

namespace Activity

theorem moves {state next : ParseState} (activity : Activity state next) :
    state.cursor.Moves next.cursor := by
  induction activity with
  | refl => exact .refl _
  | trans _ _ left right => exact left.trans right
  | skip within => exact .skip (.refl _) within
  | split closes => exact .split (.refl _) closes
  | report | perform | closeTemplates | amend => exact .refl _
  | node _ _ ih => exact ih
  | scope _ ih => exact ih
  | template _ _ ih => exact ih

theorem reachable {state next : ParseState} (activity : Activity state next)
    (reached : state.table.Reachable) : next.table.Reachable := by
  induction activity with
  | refl | skip | split | report | amend => exact reached
  | trans _ _ left right => exact right (left reached)
  | perform admitted _ => exact reached.perform admitted
  | @closeTemplates state factory target request plain _ _ =>
      have admitted : state.table.Admits (.declareTemplated factory target request) := plain
      exact reached.perform admitted
  | node _ _ ih => exact ih (reachable_addNode reached _ _ _)
  | scope _ ih => exact ih reached
  | @template state inside factory unit template table opened _ ih =>
      have extended : table = state.table.perform (.openTemplate factory unit) := by
        simp only [SymbolTable.perform, opened, SymbolTable.settle]
      have still : table.Reachable := by
        rw [extended]
        exact reached.perform trivial
      have admitted : inside.table.Admits (.discardFrames factory template) := trivial
      exact (ih still).perform admitted

theorem weight_le {state next : ParseState} (activity : Activity state next) :
    next.cursor.weight ≤ state.cursor.weight :=
  activity.moves.weight_le

/-- No activity leaves a template open that was not open before. -/
theorem stacksWithin {state next : ParseState} (activity : Activity state next) :
    state.table.StacksWithin next.table := by
  induction activity with
  | refl | skip | split | report | amend => exact fun _ => List.suffix_refl _
  | trans _ _ left right => exact left.trans right
  | perform _ keeps =>
      exact SymbolTable.stacksWithin_of_eq (SymbolTable.stackOf_perform _ keeps)
  | closeTemplates => exact SymbolTable.stacksWithin_declareTemplated _ _ _ _
  | @node state inside parent kind start last _ _ ih =>
      apply SymbolTable.StacksWithin.trans _ ih
      apply SymbolTable.stacksWithin_of_eq
      intro factory
      rcases state.table_addNode parent kind start with same | ⟨symbol, origin, changed⟩
      · rw [same]
      · have keeps : (TableOperation.setOrigin symbol origin).KeepsFrames := trivial
        rw [changed, SymbolTable.stackOf_perform _ keeps]
  | scope _ ih => exact ih
  | template opened _ ih => exact SymbolTable.stacksWithin_template opened ih

/-- Every scope that is entered is left again. -/
theorem scopesRemain {state next : ParseState} (activity : Activity state next) :
    state.scopes.Remain next.scopes := by
  induction activity with
  | refl | skip | split | report | perform | amend => exact .refl _
  | trans _ _ left right => exact left.trans right
  | closeTemplates _ consumed =>
      rcases consumed with rfl | rfl
      · exact .refl _
      · exact ScopeStack.remain_consume _
  | node _ _ ih => exact ih
  | scope _ ih => exact ih.pop
  | template _ _ ih => exact ih

/-- Nodes are never removed. -/
theorem size_le {state next : ParseState} (activity : Activity state next) :
    state.tree.size ≤ next.tree.size := by
  induction activity with
  | refl | skip | split | report | perform | closeTemplates => exact Nat.le_refl _
  | trans _ _ left right => exact Nat.le_trans left right
  | amend => exact Nat.le_of_eq (Tree.size_update _ _ _).symm
  | node _ _ ih =>
      rw [size_addNode] at ih
      simp only [finishNode, Tree.finish, Tree.size_update]
      omega
  | scope _ ih => exact ih
  | template _ _ ih => exact ih

theorem tree_sound {state next : ParseState} (activity : Activity state next)
    (sound : state.tree.Sound) : next.tree.Sound := by
  induction activity with
  | refl | skip | split | report | perform | closeTemplates => exact sound
  | trans _ _ left right => exact right (left sound)
  | amend node change => exact sound.updateTemplate node change
  | @node state _ parent kind start _ _ _ ih =>
      apply Tree.Sound.finish (ih (sound.add kind parent start))
      -- The translation unit is there, so a new node is not the first one.
      intro first
      have inhabited : 0 < state.tree.size := sound.has_root
      have fresh : state.tree.size = 0 := congrArg NodeId.index first
      omega
  | scope _ ih => exact ih sound
  | template _ _ ih => exact ih sound

theorem sound {state next : ParseState} (activity : Activity state next)
    (sound : state.Sound) : next.Sound where
  cursor := activity.moves.sound sound.cursor
  table := activity.reachable sound.table
  tree := activity.tree_sound sound.tree
  scopes frame member := by
    obtain ⟨before, entered, remains⟩ := ScopeStack.exists_remains activity.scopesRemain member
    have present := (sound.scopes before entered).mono activity.size_le
    rcases remains with rfl | ⟨_, rfl⟩
    · exact present
    · exact present

end Activity

/-! ## Nodes that wait to be finished -/

/-- A state behind some activity in which a node was started that waits to be
finished. -/
def Pending (origin : ParseState) (node : NodeId) (next : ParseState) : Prop :=
  ∃ (begun : ParseState) (parent : NodeId) (kind : NodeKind) (start : Span),
    Activity origin begun ∧ begun.tree.Has parent ∧
      (begun.addNode parent kind start).1 = node ∧
        Activity (begun.addNode parent kind start).2 next

namespace Pending

variable {origin state next : ParseState} {node : NodeId}

theorem start (activity : Activity origin state) {parent : NodeId}
    (present : state.tree.Has parent) (kind : NodeKind) (start : Span) :
    Pending origin (state.addNode parent kind start).1 (state.addNode parent kind start).2 :=
  ⟨state, parent, kind, start, activity, present, rfl, .refl _⟩

theorem after (activity : Activity origin state) (pending : Pending state node next) :
    Pending origin node next := by
  obtain ⟨begun, parent, kind, start, before, rest⟩ := pending
  exact ⟨begun, parent, kind, start, activity.trans before, rest⟩

theorem andThen (pending : Pending origin node state) (activity : Activity state next) :
    Pending origin node next := by
  obtain ⟨begun, parent, kind, start, before, present, started, after⟩ := pending
  exact ⟨begun, parent, kind, start, before, present, started, after.trans activity⟩

theorem finish (pending : Pending origin node state) (last : Span) :
    Activity origin (state.finishNode node last) := by
  obtain ⟨begun, parent, kind, start, before, present, rfl, after⟩ := pending
  exact before.trans (.node present after)

/-- A node that waits is in the tree. -/
theorem has (pending : Pending origin node state) : state.tree.Has node := by
  obtain ⟨begun, parent, kind, start, _, _, rfl, after⟩ := pending
  exact (begun.has_addNode parent kind start).mono after.size_le

theorem sound (pending : Pending origin node state) (sound : origin.Sound) : state.Sound := by
  obtain ⟨begun, parent, kind, start, before, _, _, after⟩ := pending
  exact after.sound ((before.sound sound).addNode parent kind start)

theorem weight_le (pending : Pending origin node state) :
    state.cursor.weight ≤ origin.cursor.weight := by
  obtain ⟨begun, parent, kind, start, before, _, _, after⟩ := pending
  exact Nat.le_trans after.weight_le before.weight_le

end Pending

end ParseState

end DeclTree
