import DeclTree.Proofs.CountedUnits
import DeclTree.Proofs.DeclarationRun
import DeclTree.Proofs.Overrun
import DeclTree.Proofs.TokenSpans
import Mathlib.Logic.Function.Basic

/-!
# How nodes lie in the source

Nodes that are finished cover at least one byte, and two of them lie behind each other or
one inside the other.  While a declaration waits for its node, or a node for its end, no
finished node lies across the place where it starts: the nodes finished since then start
behind that place, and those from before end in front of it or start behind it.  So a
later node is behind an earlier one, around it, or inside it, and it is inside only if it
was started there.
-/

namespace DeclTree

/-- Where a node stands: the node around it, and what it covers. -/
structure Spot where
  parent : Option NodeId
  range : SourceRange

def Tree.spot? (tree : Tree) (id : NodeId) : Option Spot :=
  (tree.get? id).map fun node => ⟨node.parent, node.range⟩

/-- The nodes that are not finished, innermost first. -/
def runningNodes (opened : List Opening) : List NodeId :=
  opened.filterMap Opening.node

def innermostNode (opened : List Opening) : NodeId :=
  (runningNodes opened).headD Tree.root

def Opening.offset (opening : Opening) : Nat :=
  opening.start.offset

namespace SourceRange

def Before (first second : SourceRange) : Prop :=
  first.endOffset ≤ second.startOffset

def Within (inner outer : SourceRange) : Prop :=
  outer.startOffset ≤ inner.startOffset ∧ inner.endOffset ≤ outer.endOffset

theorem Within.refl (range : SourceRange) : range.Within range :=
  ⟨Nat.le_refl _, Nat.le_refl _⟩

end SourceRange

/-- How two finished nodes lie, the second of which was started later: it is behind the
first, around it, or inside it, and then it was started inside. -/
inductive Spot.Apart (id : NodeId) (first second : Spot) : Prop
  | behind (after : first.range.Before second.range) : Apart id first second
  | around (holds : first.range.Within second.range) : Apart id first second
  | inside (held : second.range.Within first.range)
      (started : ∃ parent, second.parent = some parent ∧ id.index ≤ parent.index) :
      Apart id first second

/-- How nodes lie while some declarations are not at their end and all finished nodes end
in front of an offset. -/
structure Layout (spots : NodeId → Option Spot) (opened : List Opening) (reach : Nat) :
    Prop where
  root : ∀ spot, spots Tree.root = some spot → spot.range.sealed = false
  below : ∀ id spot parent, spots id = some spot → spot.parent = some parent →
    parent.index < id.index
  running : ∀ opening ∈ opened, ∀ id, opening.node = some id → id ≠ Tree.root ∧
    ∃ spot, spots id = some spot ∧ spot.range.sealed = false ∧
      spot.range.startOffset = opening.offset
  descending : (runningNodes opened).Pairwise fun inner outer => outer.index < inner.index
  finished : ∀ id spot, spots id = some spot → id ≠ Tree.root → id ∈ runningNodes opened ∨
    (spot.range.sealed = true ∧ spot.range.startOffset < spot.range.endOffset ∧
      spot.range.endOffset ≤ reach)
  uncut : ∀ id spot, spots id = some spot → spot.range.sealed = true → ∀ opening ∈ opened,
    spot.range.endOffset ≤ opening.offset ∨ opening.offset ≤ spot.range.startOffset
  later : ∀ opening ∈ opened, ∀ outer, opening.node = some outer →
    ∀ id spot, spots id = some spot → outer.index < id.index →
      opening.offset ≤ spot.range.startOffset ∧
        ∃ parent, spot.parent = some parent ∧ outer.index ≤ parent.index
  contained : ∀ id spot parent around, spots id = some spot → spot.parent = some parent →
    spots parent = some around → around.range.sealed = true →
      spot.range.sealed = true ∧ spot.range.Within around.range
  apart : ∀ id other first second, spots id = some first → spots other = some second →
    id.index < other.index → first.range.sealed = true → second.range.sealed = true →
      first.Apart id second

theorem mem_runningNodes {opened : List Opening} {id : NodeId} :
    id ∈ runningNodes opened ↔ ∃ opening ∈ opened, opening.node = some id :=
  List.mem_filterMap

/-- What is known of a handle once something is written down for one of them. -/
theorem eq_or_of_update {α : Type} {entries : NodeId → Option α} {node id : NodeId}
    {changed entry : α} (known : Function.update entries node (some changed) id = some entry) :
    (id = node ∧ entry = changed) ∨ (id ≠ node ∧ entries id = some entry) := by
  by_cases same : id = node
  · subst same
    rw [Function.update_self] at known
    exact .inl ⟨rfl, (Option.some.inj known).symm⟩
  · rw [Function.update_of_ne same] at known
    exact .inr ⟨same, known⟩

namespace Layout

variable {spots : NodeId → Option Spot} {opened : List Opening} {reach : Nat}

/-- A node that is not finished. -/
theorem spot_of_running (layout : Layout spots opened reach) {id : NodeId}
    (member : id ∈ runningNodes opened) : id ≠ Tree.root ∧ ∃ spot, spots id = some spot ∧
      spot.range.sealed = false := by
  obtain ⟨opening, inside, node⟩ := mem_runningNodes.1 member
  obtain ⟨inner, spot, found, unsealed, _⟩ := layout.running opening inside id node
  exact ⟨inner, spot, found, unsealed⟩

theorem unsealed (layout : Layout spots opened reach) {id : NodeId} {spot : Spot}
    (found : spots id = some spot) (unfinished : id = Tree.root ∨ id ∈ runningNodes opened) :
    spot.range.sealed = false := by
  rcases unfinished with rfl | member
  · exact layout.root spot found
  · obtain ⟨_, other, there, unsealed⟩ := layout.spot_of_running member
    obtain rfl := Option.some.inj (found.symm.trans there)
    exact unsealed

theorem endOffset_le (layout : Layout spots opened reach) {id : NodeId} {spot : Spot}
    (found : spots id = some spot) (done : spot.range.sealed = true) :
    spot.range.endOffset ≤ reach := by
  by_cases top : id = Tree.root
  · simp [layout.unsealed found (.inl top)] at done
  · rcases layout.finished id spot found top with member | ⟨_, _, within⟩
    · simp [layout.unsealed found (.inr member)] at done
    · exact within

/-- A declaration may start where no finished node lies across. -/
theorem uncut_start (layout : Layout spots opened reach) {offset : Nat}
    (free : reach ≤ offset ∨ ∃ outer ∈ opened, outer.offset = offset) {id : NodeId} {spot : Spot}
    (found : spots id = some spot) (done : spot.range.sealed = true) :
    spot.range.endOffset ≤ offset ∨ offset ≤ spot.range.startOffset := by
  rcases free with behind | ⟨outer, member, rfl⟩
  · exact .inl (Nat.le_trans (layout.endOffset_le found done) behind)
  · exact layout.uncut id spot found done outer member

/-- The innermost node is not finished, and no other such node comes after it. -/
theorem innermost (layout : Layout spots opened reach) :
    (innermostNode opened = Tree.root ∨ innermostNode opened ∈ runningNodes opened) ∧
      ∀ outer ∈ runningNodes opened, outer.index ≤ (innermostNode opened).index := by
  have descending := layout.descending
  unfold innermostNode
  cases running : runningNodes opened with
  | nil => simp
  | cons first rest =>
      rw [running, List.pairwise_cons] at descending
      refine ⟨.inr List.mem_cons_self, ?_⟩
      intro outer member
      rcases List.mem_cons.1 member with rfl | further
      · exact Nat.le_refl _
      · exact Nat.le_of_lt (descending.1 outer further)

theorem await (layout : Layout spots opened reach) {start : Cursor}
    (free : reach ≤ start.offset ∨ ∃ outer ∈ opened, outer.offset = start.offset) :
    Layout spots ({ start := start } :: opened) reach where
  root := layout.root
  below := layout.below
  running opening member id node := by
    rcases List.mem_cons.1 member with rfl | inside
    · cases node
    · exact layout.running opening inside id node
  descending := layout.descending
  finished := layout.finished
  uncut id spot found done opening member := by
    rcases List.mem_cons.1 member with rfl | inside
    · exact layout.uncut_start free found done
    · exact layout.uncut id spot found done opening inside
  later opening member outer node := by
    rcases List.mem_cons.1 member with rfl | inside
    · cases node
    · exact layout.later opening inside outer node
  contained := layout.contained
  apart := layout.apart

theorem cancel {start : Cursor} (layout : Layout spots ({ start := start } :: opened) reach) :
    Layout spots opened reach where
  root := layout.root
  below := layout.below
  running opening member := layout.running opening (List.mem_cons_of_mem _ member)
  descending := layout.descending
  finished := layout.finished
  uncut id spot found done opening member :=
    layout.uncut id spot found done opening (List.mem_cons_of_mem _ member)
  later opening member := layout.later opening (List.mem_cons_of_mem _ member)
  contained := layout.contained
  apart := layout.apart

/-- A node is started inside the innermost one that is not finished. -/
theorem begin (layout : Layout spots opened reach) {start : Cursor} {node : NodeId} {fresh : Spot}
    (free : reach ≤ start.offset ∨ ∃ outer ∈ opened, outer.offset = start.offset)
    (inside : ∀ opening ∈ opened, opening.offset ≤ start.offset)
    (last : ∀ id spot, spots id = some spot → id.index < node.index)
    (above : (innermostNode opened).index < node.index)
    (around : fresh.parent = some (innermostNode opened))
    (starts : fresh.range.startOffset = start.offset) (unsealed : fresh.range.sealed = false) :
    Layout (Function.update spots node (some fresh)) (⟨start, some node⟩ :: opened) reach := by
  have inner : node ≠ Tree.root := by
    rintro rfl
    exact absurd above (Nat.not_lt_zero _)
  obtain ⟨unfinished, highest⟩ := layout.innermost
  constructor
  case root =>
    intro spot found
    rcases eq_or_of_update found with ⟨same, _⟩ | ⟨_, old⟩
    · exact absurd same.symm inner
    · exact layout.root spot old
  case below =>
    intro id spot parent found known
    rcases eq_or_of_update found with ⟨rfl, rfl⟩ | ⟨_, old⟩
    · obtain rfl := Option.some.inj (around.symm.trans known)
      exact above
    · exact layout.below id spot parent old known
  case running =>
    intro opening member id known
    rcases List.mem_cons.1 member with rfl | outer
    · obtain rfl := Option.some.inj known
      exact ⟨inner, fresh, Function.update_self .., unsealed, starts⟩
    · obtain ⟨top, spot, found, running, begins⟩ := layout.running opening outer id known
      have other : id ≠ node := by
        rintro rfl
        exact absurd (last id spot found) (Nat.lt_irrefl _)
      exact ⟨top, spot, by rwa [Function.update_of_ne other], running, begins⟩
  case descending =>
    refine List.pairwise_cons.2 ⟨?_, layout.descending⟩
    intro outer member
    exact Nat.lt_of_le_of_lt (highest outer member) above
  case finished =>
    intro id spot found top
    rcases eq_or_of_update found with ⟨rfl, _⟩ | ⟨_, old⟩
    · exact .inl List.mem_cons_self
    · exact (layout.finished id spot old top).imp_left (List.mem_cons_of_mem _)
  case uncut =>
    intro id spot found done opening member
    rcases eq_or_of_update found with ⟨_, rfl⟩ | ⟨_, old⟩
    · simp [unsealed] at done
    · rcases List.mem_cons.1 member with rfl | outer
      · exact layout.uncut_start free old done
      · exact layout.uncut id spot old done opening outer
  case later =>
    intro opening member outer known id spot found after
    rcases List.mem_cons.1 member with rfl | outside
    · obtain rfl := Option.some.inj known
      rcases eq_or_of_update found with ⟨rfl, _⟩ | ⟨_, old⟩
      · exact absurd after (Nat.lt_irrefl _)
      · exact absurd (last id spot old) (Nat.lt_asymm after)
    · rcases eq_or_of_update found with ⟨_, rfl⟩ | ⟨_, old⟩
      · refine ⟨starts ▸ inside opening outside, _, around, ?_⟩
        exact highest outer (mem_runningNodes.2 ⟨opening, outside, known⟩)
      · exact layout.later opening outside outer known id spot old after
  case contained =>
    intro id spot parent place found known there done
    rcases eq_or_of_update there with ⟨_, rfl⟩ | ⟨_, oldParent⟩
    · simp [unsealed] at done
    · rcases eq_or_of_update found with ⟨rfl, rfl⟩ | ⟨_, old⟩
      · obtain rfl := Option.some.inj (around.symm.trans known)
        simp [layout.unsealed oldParent unfinished] at done
      · exact layout.contained id spot parent place old known oldParent done
  case apart =>
    intro id other first second found there before done doneOther
    rcases eq_or_of_update found with ⟨_, rfl⟩ | ⟨_, old⟩
    · simp [unsealed] at done
    · rcases eq_or_of_update there with ⟨_, rfl⟩ | ⟨_, oldOther⟩
      · simp [unsealed] at doneOther
      · exact layout.apart id other first second old oldOther before done doneOther

section Finishing

variable {start : Cursor} {node : NodeId} {done : Spot}

/-- Nodes started after the one to be finished are finished, and lie inside it. -/
theorem within_finish (layout : Layout spots (⟨start, some node⟩ :: opened) reach)
    (starts : done.range.startOffset = start.offset) (behind : reach ≤ done.range.endOffset)
    {id : NodeId} {spot : Spot} (found : spots id = some spot) (after : node.index < id.index) :
    spot.range.sealed = true ∧ spot.range.Within done.range ∧
      ∃ parent, spot.parent = some parent ∧ node.index ≤ parent.index := by
  have inner : id ≠ Tree.root := by
    rintro rfl
    exact absurd after (Nat.not_lt_zero _)
  obtain ⟨begins, started⟩ := layout.later _ List.mem_cons_self node rfl id spot found after
  rcases layout.finished id spot found inner with running | ⟨sealed, _, reached⟩
  · -- All other nodes that are not finished were started earlier.
    rcases List.mem_cons.1 running with rfl | outer
    · exact absurd after (Nat.lt_irrefl _)
    · exact absurd ((List.pairwise_cons.1 layout.descending).1 id outer) (Nat.lt_asymm after)
  · exact ⟨sealed, ⟨starts ▸ begins, Nat.le_trans reached behind⟩, started⟩

/-- Nodes finished before are in front of the one to be finished, or inside it. -/
theorem apart_finish (layout : Layout spots (⟨start, some node⟩ :: opened) reach)
    (starts : done.range.startOffset = start.offset) (behind : reach ≤ done.range.endOffset)
    {id : NodeId} {spot : Spot} (found : spots id = some spot) (sealed : spot.range.sealed = true) :
    spot.Apart id done := by
  rcases layout.uncut id spot found sealed _ List.mem_cons_self with front | back
  · exact .behind (starts.symm ▸ front : spot.range.endOffset ≤ done.range.startOffset)
  · exact .around ⟨starts ▸ back, Nat.le_trans (layout.endOffset_le found sealed) behind⟩

/-- The innermost node is finished at a place behind all finished nodes. -/
theorem finish (layout : Layout spots (⟨start, some node⟩ :: opened) reach)
    (inside : ∀ opening ∈ opened, opening.offset ≤ start.offset) {spot : Spot}
    (known : spots node = some spot) (parent : done.parent = spot.parent)
    (starts : done.range.startOffset = start.offset) (behind : reach ≤ done.range.endOffset)
    (read : start.offset < done.range.endOffset) (sealed : done.range.sealed = true) :
    Layout (Function.update spots node (some done)) opened done.range.endOffset := by
  have unsealed : spot.range.sealed = false := layout.unsealed known (.inr List.mem_cons_self)
  have outer {opening : Opening} {id : NodeId} (member : opening ∈ opened)
      (running : opening.node = some id) : id.index < node.index :=
    (List.pairwise_cons.1 layout.descending).1 id (mem_runningNodes.2 ⟨opening, member, running⟩)
  constructor
  case root =>
    intro place found
    rcases eq_or_of_update found with ⟨same, _⟩ | ⟨_, old⟩
    · exact absurd same.symm (layout.spot_of_running List.mem_cons_self).1
    · exact layout.root place old
  case below =>
    intro id place other found around
    rcases eq_or_of_update found with ⟨rfl, rfl⟩ | ⟨_, old⟩
    · exact layout.below id spot other known (parent ▸ around)
    · exact layout.below id place other old around
  case running =>
    intro opening member id running
    obtain ⟨inner, place, found, rest⟩ :=
      layout.running opening (List.mem_cons_of_mem _ member) id running
    have other : id ≠ node := by
      rintro rfl
      exact absurd (outer member running) (Nat.lt_irrefl _)
    exact ⟨inner, place, by rwa [Function.update_of_ne other], rest⟩
  case descending => exact (List.pairwise_cons.1 layout.descending).2
  case finished =>
    intro id place found inner
    rcases eq_or_of_update found with ⟨_, rfl⟩ | ⟨other, old⟩
    · exact .inr ⟨sealed, starts ▸ read, Nat.le_refl _⟩
    · rcases layout.finished id place old inner with running | ⟨sealedBefore, nonempty, reached⟩
      · exact .inl (List.mem_of_ne_of_mem other running)
      · exact .inr ⟨sealedBefore, nonempty, Nat.le_trans reached behind⟩
  case uncut =>
    intro id place found sealedNow opening member
    rcases eq_or_of_update found with ⟨_, rfl⟩ | ⟨_, old⟩
    · exact .inr (starts ▸ inside opening member)
    · exact layout.uncut id place old sealedNow opening (List.mem_cons_of_mem _ member)
  case later =>
    intro opening member other running id place found after
    have before := layout.later opening (List.mem_cons_of_mem _ member) other running
    rcases eq_or_of_update found with ⟨rfl, rfl⟩ | ⟨_, old⟩
    · rw [starts, parent]
      exact ⟨inside opening member, (before id spot known after).2⟩
    · exact before id place old after
  case contained =>
    intro id place other around found within there sealedAround
    rcases eq_or_of_update found with ⟨rfl, rfl⟩ | ⟨_, old⟩
    · rcases eq_or_of_update there with ⟨rfl, _⟩ | ⟨_, oldParent⟩
      · exact absurd (layout.below other spot other known (parent ▸ within)) (Nat.lt_irrefl _)
      · -- A node around this one cannot have been finished before it.
        have sealedBefore := layout.contained id spot other around known (parent ▸ within)
          oldParent sealedAround
        simp [unsealed] at sealedBefore
    · rcases eq_or_of_update there with ⟨rfl, rfl⟩ | ⟨_, oldParent⟩
      · obtain ⟨sealedBefore, held, _⟩ :=
          layout.within_finish starts behind old (layout.below id place other old within)
        exact ⟨sealedBefore, held⟩
      · exact layout.contained id place other around old within oldParent sealedAround
  case apart =>
    intro id other first second found there before sealedFirst sealedSecond
    rcases eq_or_of_update found with ⟨rfl, rfl⟩ | ⟨_, old⟩
    · rcases eq_or_of_update there with ⟨rfl, _⟩ | ⟨_, oldOther⟩
      · exact absurd before (Nat.lt_irrefl _)
      · obtain ⟨_, held, started⟩ := layout.within_finish starts behind oldOther before
        exact .inside held started
    · rcases eq_or_of_update there with ⟨_, rfl⟩ | ⟨_, oldOther⟩
      · exact layout.apart_finish starts behind old sealedFirst
      · exact layout.apart id other first second old oldOther before sealedFirst sealedSecond

end Finishing

end Layout

namespace Tree

theorem spot?_update (tree : Tree) (id : NodeId) {change : Node → Node}
    (parent : ∀ node, (change node).parent = node.parent)
    (range : ∀ node, (change node).range = node.range) :
    (tree.update id change).spot? = tree.spot? := by
  funext other
  unfold spot?
  rw [get?_update]
  split
  · simp [Function.comp_def, parent, range]
  · rfl

theorem spot?_add (tree : Tree) (kind : NodeKind) (parent : NodeId) (start : Span) :
    (tree.add kind parent start).2.spot? = Function.update tree.spot? ⟨tree.size⟩
      (some ⟨some parent, (fresh kind parent start).range⟩) := by
  funext id
  unfold spot?
  rw [get?_add]
  by_cases new : id = ⟨tree.size⟩
  · subst new
    rw [Function.update_self, if_pos rfl, Option.map_some, Option.map_some]
    split <;> rfl
  · have old : id.index ≠ tree.size := fun same => new (congrArg NodeId.mk same)
    rw [Function.update_of_ne new, if_neg old, Option.map_map]
    congr 1
    funext node
    simp only [Function.comp_apply]
    split <;> rfl

/-- A node that is not finished gets an end. -/
theorem spot?_finish {tree : Tree} {id : NodeId} {spot : Spot} (found : tree.spot? id = some spot)
    (unsealed : spot.range.sealed = false) (last : Span) :
    (tree.finish id last).spot? = Function.update tree.spot? id
      (some ⟨spot.parent, (spot.range.setEnd last.stop last.line).finalize⟩) := by
  obtain ⟨node, there, rfl⟩ := Option.map_eq_some_iff.1 found
  funext other
  unfold finish spot?
  rw [get?_update]
  by_cases same : other = id
  · subst same
    rw [Function.update_self, if_pos rfl, there]
    simp only [Option.map_some]
    rw [if_neg (by simpa using unsealed)]
  · rw [Function.update_of_ne same, if_neg (Ne.symm same)]

theorem lt_size_of_spot? {tree : Tree} {id : NodeId} {spot : Spot}
    (found : tree.spot? id = some spot) : id.index < tree.size := by
  obtain ⟨node, there, _⟩ := Option.map_eq_some_iff.1 found
  exact has_of_get? there

end Tree

/-! ## Along a run -/

namespace Stage

variable {base limit : Nat} {stage after : Stage}

/-- Whether a parse of a text of some length goes from token to token, and nodes lie in
the text as they should. -/
structure Arranged (limit : Nat) (stage : Stage) : Prop where
  cursor : stage.state.cursor.Aligned limit
  settled : stage.settled.Aligned limit
  opened : ∀ opening ∈ stage.opened, opening.start.Aligned limit
  layout : Layout stage.state.tree.spot? stage.opened stage.settled.reach
  family : Family stage.state.tree.kin?

theorem around_eq (stage : Stage) : stage.around = innermostNode stage.opened := by
  unfold around innermostNode runningNodes
  rw [← List.head?_filterMap, List.headD_eq_head?_getD]

namespace Arranged

variable {start : Cursor}

theorem aligned_place (arranged : stage.Arranged limit) (place : stage.Place start) :
    start.Aligned limit := by
  rcases place.apart with moves | ⟨outer, head, rfl⟩
  · exact (arranged.settled.moves moves).1
  · exact arranged.opened outer (List.mem_of_mem_head? head)

theorem free_place (arranged : stage.Arranged limit) (place : stage.Place start) :
    stage.settled.reach ≤ start.offset ∨ ∃ outer ∈ stage.opened, outer.offset = start.offset := by
  rcases place.apart with moves | ⟨outer, head, rfl⟩
  · obtain ⟨aligned, gains⟩ := arranged.settled.moves moves
    exact .inl (Nat.le_trans gains.reach aligned.reach_le_offset)
  · exact .inr ⟨outer, List.mem_of_mem_head? head, rfl⟩

theorem inside_place (arranged : stage.Arranged limit) (place : stage.Place start)
    (opening : Opening) (member : opening ∈ stage.opened) : opening.offset ≤ start.offset :=
  ((arranged.opened opening member).moves (place.inside opening member)).2.offset

theorem await (arranged : stage.Arranged limit) (place : stage.Place start) :
    (stage.awaiting start).Arranged limit := by
  refine { arranged with
    opened := ?_
    layout := arranged.layout.await (arranged.free_place place) }
  intro opening member
  rcases List.mem_cons.1 member with rfl | inside
  · exact arranged.aligned_place place
  · exact arranged.opened opening inside

theorem begin (arranged : stage.Arranged limit) (place : stage.Place start)
    (present : stage.state.tree.Has stage.around) (kind : NodeKind) (table : SymbolTable) :
    (stage.begun start kind table).Arranged limit := by
  refine { arranged with opened := ?_, layout := ?_, family := ?_ }
  · intro opening member
    rcases List.mem_cons.1 member with rfl | inside
    · exact arranged.aligned_place place
    · exact arranged.opened opening inside
  · change Layout (stage.state.tree.add kind stage.around start.peek.span).2.spot? _ _
    rw [Tree.spot?_add, around_eq]
    refine arranged.layout.begin (arranged.free_place place) (arranged.inside_place place) ?_ ?_
      rfl rfl rfl
    · intro id spot found
      exact Tree.lt_size_of_spot? found
    · rw [← around_eq]
      exact present
  · exact Tree.family_add arranged.family kind present start.peek.span

theorem finish (arranged : stage.Arranged limit) (ready : stage.Ready base) {last : Cursor}
    {node : NodeId} {outer : List Opening} (running : stage.opened = ⟨start, some node⟩ :: outer)
    (behind : stage.settled.Moves last) (moves : start.Moves last)
    (read : last.weight < start.weight) : (stage.finished node last outer).Arranged limit := by
  have head : (⟨start, some node⟩ : Opening) ∈ stage.opened := running ▸ List.mem_cons_self
  obtain ⟨alignedLast, gains⟩ := (arranged.opened _ head).moves moves
  have covered := gains.read read
  have inside (opening : Opening) (member : opening ∈ outer) : opening.offset ≤ start.offset := by
    have nested := (List.pairwise_cons.1 (running ▸ ready.nested)).1 opening member
    have aligned := arranged.opened opening (running ▸ List.mem_cons_of_mem _ member)
    exact (aligned.moves nested).2.offset
  obtain ⟨_, spot, found, unsealed, starts⟩ := arranged.layout.running _ head node rfl
  refine ⟨arranged.cursor, alignedLast, ?_, ?_, ?_⟩
  · intro opening member
    exact arranged.opened opening (running ▸ List.mem_cons_of_mem _ member)
  · change Layout (stage.state.tree.finish node last.previousSpan).spot? _ _
    have layout := arranged.layout
    rw [running] at layout
    rw [Tree.spot?_finish found unsealed]
    have ends : max last.previousSpan.stop spot.range.startOffset = last.reach := by
      rw [Cursor.stop_previousSpan (Nat.zero_lt_of_lt covered), starts]
      exact Nat.max_eq_left (Nat.le_of_lt covered)
    have behindAll := (arranged.settled.moves behind).2.reach
    change Layout _ outer last.reach
    rw [← ends] at covered behindAll ⊢
    exact layout.finish inside found rfl starts behindAll covered rfl
  · change Family (stage.state.tree.finish node last.previousSpan).kin?
    rw [Tree.finish, Tree.kin?_update]
    · exact arranged.family
    · intro node
      split <;> rfl
    · intro node
      split <;> rfl

theorem amend (arranged : stage.Arranged limit) (node : NodeId)
    (change : TemplateDecl → TemplateDecl) :
    Arranged limit { stage with
      state := { stage.state with tree := stage.state.tree.updateTemplate node change } } := by
  refine { arranged with layout := ?_, family := ?_ }
  · change Layout (stage.state.tree.updateTemplate node change).spot? _ _
    rw [Tree.updateTemplate, Tree.spot?_update]
    · exact arranged.layout
    · intro node
      split <;> rfl
    · intro node
      split <;> rfl
  · change Family (stage.state.tree.updateTemplate node change).kin?
    rw [Tree.updateTemplate, Tree.kin?_update]
    · exact arranged.family
    · intro node
      split <;> rfl
    · intro node
      split <;> rfl

end Arranged

/-- A step keeps nodes where they should lie. -/
theorem Step.arranged (step : Step base stage after) (ready : stage.Ready base)
    (arranged : stage.Arranged limit) : after.Arranged limit := by
  cases step with
  | read moves => exact { arranged with cursor := (arranged.cursor.moves moves).1 }
  | note | change => exact { arranged with }
  | amend => exact arranged.amend _ _
  | await place => exact arranged.await place
  | cancel waiting =>
      have layout := arranged.layout
      rw [waiting] at layout
      refine { arranged with opened := ?_, layout := layout.cancel }
      intro opening member
      exact arranged.opened opening (waiting ▸ List.mem_cons_of_mem _ member)
  | begin place present => exact arranged.begin place present _ _
  | finish running behind _ moves read => exact arranged.finish ready running behind moves read

theorem Run.arranged (run : Run base stage after) (ready : stage.Ready base)
    (arranged : stage.Arranged limit) : after.Arranged limit := by
  induction run with
  | refl => exact arranged
  | tail run step ih => exact step.arranged (Run.ready run ready) ih

end Stage

/-! ## Behind a parse -/

/-- How the nodes of a unit lie in a source of some length: all are finished, the
translation unit covers the source, every other node covers a part of it that is not
empty and lies inside the node around it, and of two nodes in one the later is behind the
earlier or around it. -/
structure Tree.Nested (tree : Tree) (length : Nat) : Prop where
  sealed : ∀ id node, tree.get? id = some node → node.range.sealed = true
  covered : ∀ id node, tree.get? id = some node → id ≠ root →
    node.range.startOffset < node.range.endOffset ∧ node.range.endOffset ≤ length
  whole : ∃ node, tree.get? root = some node ∧ node.parent = none ∧
    node.range.startOffset = 0 ∧ node.range.endOffset = length
  parent : ∀ id node, tree.get? id = some node → id ≠ root → ∃ parent around,
    node.parent = some parent ∧ tree.get? parent = some around ∧ id ∈ around.children ∧
      node.range.Within around.range
  siblings : ∀ id node, tree.get? id = some node → node.children.Pairwise fun first second =>
    ∃ earlier later, tree.get? first = some earlier ∧ tree.get? second = some later ∧
      earlier.parent = some id ∧ later.parent = some id ∧
        (earlier.range.Before later.range ∨ earlier.range.Within later.range)
  laminar : ∀ id other first second, tree.get? id = some first → tree.get? other = some second →
    first.range.Before second.range ∨ second.range.Before first.range ∨
      first.range.Within second.range ∨ second.range.Within first.range

namespace Layout

variable {spots : NodeId → Option Spot} {reach : Nat}

/-- Behind all declarations every node is finished. -/
theorem done (layout : Layout spots [] reach) {id : NodeId} {spot : Spot}
    (found : spots id = some spot) (inner : id ≠ Tree.root) : spot.range.sealed = true ∧
      spot.range.startOffset < spot.range.endOffset ∧ spot.range.endOffset ≤ reach := by
  rcases layout.finished id spot found inner with running | done
  · cases running
  · exact done

theorem apart_of_lt (layout : Layout spots [] reach) {id other : NodeId} {first second : Spot}
    (found : spots id = some first) (there : spots other = some second) (inner : id ≠ Tree.root)
    (before : id.index < other.index) : first.Apart id second := by
  have innerOther : other ≠ Tree.root := by
    rintro rfl
    exact absurd before (Nat.not_lt_zero _)
  exact layout.apart id other first second found there before (layout.done found inner).1
    (layout.done there innerOther).1

/-- Of two nodes in one, the later is behind the earlier or around it. -/
theorem siblings (layout : Layout spots [] reach) {id other parent : NodeId} {first second : Spot}
    (found : spots id = some first) (there : spots other = some second)
    (around : first.parent = some parent) (aroundOther : second.parent = some parent)
    (before : id.index < other.index) :
    first.range.Before second.range ∨ first.range.Within second.range := by
  have outer := layout.below id first parent found around
  have inner : id ≠ Tree.root := by
    rintro rfl
    exact absurd outer (Nat.not_lt_zero _)
  cases layout.apart_of_lt found there inner before with
  | behind after => exact .inl after
  | around holds => exact .inr holds
  | inside _ started =>
      obtain ⟨place, known, within⟩ := started
      obtain rfl := Option.some.inj (aroundOther.symm.trans known)
      omega

theorem laminar (layout : Layout spots [] reach) {id other : NodeId} {first second : Spot}
    (found : spots id = some first) (there : spots other = some second) (inner : id ≠ Tree.root)
    (innerOther : other ≠ Tree.root) :
    first.range.Before second.range ∨ second.range.Before first.range ∨
      first.range.Within second.range ∨ second.range.Within first.range := by
  rcases Nat.lt_trichotomy id.index other.index with before | same | after
  · cases layout.apart_of_lt found there inner before with
    | behind after => exact .inl after
    | around holds => exact .inr (.inr (.inl holds))
    | inside held => exact .inr (.inr (.inr held))
  · obtain rfl : id = other := congrArg NodeId.mk same
    obtain rfl := Option.some.inj (found.symm.trans there)
    exact .inr (.inr (.inl (.refl _)))
  · cases layout.apart_of_lt there found innerOther after with
    | behind after => exact .inr (.inl after)
    | around holds => exact .inr (.inr (.inr holds))
    | inside held => exact .inr (.inr (.inl held))

end Layout

namespace Tree

variable {tree : Tree} {reach length line : Nat}

/-- The nodes of a tree whose translation unit is finished. -/
theorem finishRoot_cases (layout : Layout tree.spot? [] reach) {id : NodeId} {node : Node}
    (found : (tree.finishRoot length line).get? id = some node) :
    (id = root ∧ node.parent = none ∧ node.range.sealed = true ∧ node.range.startOffset = 0 ∧
      node.range.endOffset = length) ∨
    (id ≠ root ∧ tree.spot? id = some ⟨node.parent, node.range⟩) := by
  unfold finishRoot at found
  rw [get?_update] at found
  split at found
  · rename_i same
    obtain rfl := same
    obtain ⟨unit, there, rfl⟩ := Option.map_eq_some_iff.1 found
    refine .inl ⟨rfl, ?_, rfl, rfl, Nat.max_eq_left (Nat.zero_le _)⟩
    have spot : tree.spot? root = some ⟨unit.parent, unit.range⟩ := by simp [spot?, there]
    cases around : unit.parent with
    | none => rfl
    | some parent => exact absurd (layout.below root _ parent spot around) (Nat.not_lt_zero _)
  · rename_i other
    exact .inr ⟨Ne.symm other, by simp [spot?, found]⟩

theorem family_finishRoot (family : Family tree.kin?) :
    Family (tree.finishRoot length line).kin? := by
  rw [finishRoot, kin?_update]
  · exact family
  · exact fun _ => rfl
  · exact fun _ => rfl

/-- The translation unit holds all other nodes. -/
theorem within_finishRoot (layout : Layout tree.spot? [] reach) (bound : reach ≤ length)
    {id : NodeId} {node unit : Node} (whole : (tree.finishRoot length line).get? root = some unit)
    (found : (tree.finishRoot length line).get? id = some node) :
    node.range.Within unit.range := by
  rcases finishRoot_cases layout whole with ⟨_, _, _, starts, ends⟩ | ⟨inner, _⟩
  · rcases finishRoot_cases layout found with ⟨_, _, _, startsSame, endsSame⟩ | ⟨inner, spot⟩
    · exact ⟨by omega, by omega⟩
    · obtain ⟨_, _, ended⟩ := layout.done spot inner
      exact ⟨starts ▸ Nat.zero_le _, ends ▸ Nat.le_trans ended bound⟩
  · exact absurd rfl inner

/-- A tree whose nodes are finished, and its translation unit at the end of the source. -/
theorem nested_finishRoot (layout : Layout tree.spot? [] reach) (family : Family tree.kin?)
    (present : tree.Has root) (bound : reach ≤ length) :
    (tree.finishRoot length line).Nested length := by
  have kins : Family (tree.finishRoot length line).kin? := family_finishRoot family
  have kinOf {id : NodeId} {node : Node}
      (found : (tree.finishRoot length line).get? id = some node) :
      (tree.finishRoot length line).kin? id = some ⟨node.parent, node.children⟩ := by
    simp [kin?, found]
  constructor
  case sealed =>
    intro id node found
    rcases finishRoot_cases layout found with ⟨_, _, sealed, _⟩ | ⟨inner, spot⟩
    · exact sealed
    · exact (layout.done spot inner).1
  case covered =>
    intro id node found inner
    rcases finishRoot_cases layout found with ⟨outer, _⟩ | ⟨_, spot⟩
    · exact absurd outer inner
    · obtain ⟨_, nonempty, ended⟩ := layout.done spot inner
      exact ⟨nonempty, Nat.le_trans ended bound⟩
  case whole =>
    have still : (tree.finishRoot length line).Has root := by
      unfold Has finishRoot
      rwa [size_update]
    obtain ⟨unit, found⟩ := exists_get? still
    rcases finishRoot_cases layout found with ⟨_, top, _, starts, ends⟩ | ⟨inner, _⟩
    · exact ⟨unit, found, top, starts, ends⟩
    · exact absurd rfl inner
  case parent =>
    intro id node found inner
    obtain ⟨parent, _, known, there, member⟩ := kins.parent id _ (kinOf found) inner
    obtain ⟨around, foundAround, rfl⟩ := Option.map_eq_some_iff.1 there
    refine ⟨parent, around, known, foundAround, member, ?_⟩
    rcases finishRoot_cases layout foundAround with ⟨rfl, _⟩ | ⟨outer, spotAround⟩
    · exact within_finishRoot layout bound foundAround found
    · rcases finishRoot_cases layout found with ⟨top, _⟩ | ⟨_, spot⟩
      · exact absurd top inner
      · have sealed := (layout.done spotAround outer).1
        exact (layout.contained id _ parent _ spot known spotAround sealed).2
  case siblings =>
    intro id node found
    refine (kins.ordered id _ (kinOf found)).imp_of_mem ?_
    intro first second member memberOther before
    have childOf {child : NodeId} (inside : child ∈ node.children) : ∃ inner,
        (tree.finishRoot length line).get? child = some inner ∧ inner.parent = some id ∧
          tree.spot? child = some ⟨some id, inner.range⟩ := by
      obtain ⟨_, there, around⟩ := kins.children id _ (kinOf found) child inside
      obtain ⟨inner, foundInner, rfl⟩ := Option.map_eq_some_iff.1 there
      rcases finishRoot_cases layout foundInner with ⟨_, top, _⟩ | ⟨_, spot⟩
      · cases top.symm.trans around
      · exact ⟨inner, foundInner, around, around ▸ spot⟩
    obtain ⟨earlier, foundEarlier, around, spot⟩ := childOf member
    obtain ⟨later, foundLater, aroundOther, spotOther⟩ := childOf memberOther
    exact ⟨earlier, later, foundEarlier, foundLater, around, aroundOther,
      layout.siblings spot spotOther rfl rfl before⟩
  case laminar =>
    intro id other first second found there
    rcases finishRoot_cases layout found with ⟨rfl, _⟩ | ⟨inner, spot⟩
    · exact .inr (.inr (.inr (within_finishRoot layout bound found there)))
    · rcases finishRoot_cases layout there with ⟨rfl, _⟩ | ⟨innerOther, spotOther⟩
      · exact .inr (.inr (.inl (within_finishRoot layout bound there found)))
      · exact layout.laminar spot spotOther inner innerOther

end Tree

/-- Where there is the translation unit only, nothing is finished. -/
theorem Tree.layout_empty (unit : UnitId) (reach : Nat) : Layout (empty unit).spot? [] reach := by
  have only {id : NodeId} {spot : Spot} (found : (empty unit).spot? id = some spot) :
      id = root ∧ spot = ⟨none, {}⟩ := by
    rcases id with ⟨_ | index⟩
    · cases found
      exact ⟨rfl, rfl⟩
    · simp [spot?, get?, empty] at found
  constructor
  case root =>
    rintro _ ⟨⟩
    rfl
  case below =>
    intro id spot parent found around
    obtain ⟨_, rfl⟩ := only found
    cases around
  case running => rintro _ ⟨⟩
  case descending => exact .nil
  case finished =>
    intro id spot found inner
    exact absurd (only found).1 inner
  case uncut => rintro _ _ _ _ _ ⟨⟩
  case later => rintro _ ⟨⟩
  case contained =>
    intro id spot parent around found known
    obtain ⟨_, rfl⟩ := only found
    cases known
  case apart =>
    intro id other first second found _ _ sealed
    obtain ⟨_, rfl⟩ := only found
    cases sealed

namespace ParseState

theorem arranged_startStage (options : ParseOptions) (table : SymbolTable) (unit : UnitId)
    (source : String) : (startStage options table unit source).Arranged source.utf8ByteSize where
  cursor := aligned_startCursor options.dialect source
  settled := aligned_startCursor options.dialect source
  opened := by rintro _ ⟨⟩
  layout := Tree.layout_empty unit _
  family := Tree.family_empty unit

end ParseState

/-- The nodes of every unit lie in its source one behind the other or one inside the
other, whatever errors it has. -/
theorem parseUnit_nested (options : ParseOptions) {table : SymbolTable} (reached : table.Reachable)
    (unit : UnitId) (source : String) :
    (parseUnit options table unit source).tree.Nested source.utf8ByteSize := by
  have since := reached.framesSince
  obtain ⟨final, settled, finished, run⟩ :=
    ParseState.exists_run options reached since (Nat.zero_le _) unit source
  have ready := ParseState.ready_startStage options reached since (Nat.zero_le _) unit source
  have arranged := run.arranged ready (ParseState.arranged_startStage options table unit source)
  have ends : final.cursor.peek.span.offset = source.utf8ByteSize := by
    have last := arranged.cursor.final
    simpa [Cursor.peek, Cursor.ahead, finished.unread] using last
  simp only [parseUnit, ParseState.parsed, ParseState.finish_eq finished]
  rw [ends]
  exact Tree.nested_finishRoot arranged.layout arranged.family finished.sound.tree.has_root
    arranged.settled.spaced.le_limit

-- The declaration of `a` is started behind the class, and is around it.
example : ((parseSource "struct A { int x; } a;").tree.nodes.map fun node =>
    (node.range.startOffset, node.range.endOffset)) = #[(0, 22), (0, 19), (11, 17), (0, 22)] := by
  decide +kernel

/-- The nodes of every unit whose source has less than 2 ^ 32 - 1 bytes lie in it in this way. -/
theorem parseUnit?_nested (options : ParseOptions) {table : SymbolTable} (reached : table.Reachable)
    (unit : UnitId) {source : String} (short : source.utf8ByteSize < counterRange - 1) :
    ∃ parsed, parseUnit? options table unit source = some parsed ∧
      parsed.tree.Nested source.utf8ByteSize :=
  ⟨_, parseUnit?_eq options table unit short, parseUnit_nested options reached unit source⟩

/-- A second unit that ends inside a declarator behind a class, read with the table that a
first one with a missing name leaves. -/
theorem parseUnit?_nested_second_unit :
    (parseSource "template<class T> void f(A<A<T>> x); int;").table.Reachable ∧
      "struct A { int x; } a, b(".utf8ByteSize < counterRange - 1 ∧
      ∃ parsed, parseUnit? { maxNestingDepth := 3 }
        (parseSource "template<class T> void f(A<A<T>> x); int;").table ⟨1⟩
        "struct A { int x; } a, b(" = some parsed ∧ parsed.tree.Nested 25 :=
  ⟨reachable_parseUnit {} .empty ⟨0⟩ _, by decide +kernel,
    parseUnit?_nested _ (reachable_parseUnit {} .empty ⟨0⟩ _) ⟨1⟩ (by decide +kernel)⟩

/-- A source that is too long need not be covered: where a semicolon stands behind 2 ^ 32 blanks,
the translation unit has the first byte only. -/
theorem lateMark_unnested : SymbolTable.empty.Reachable ∧
    ∃ parsed, parseUnit? {} .empty ⟨0⟩ lateMark = some parsed ∧
      (parsed.tree.get? Tree.root).map Node.range = some ⟨0, 1, 1, 1, true⟩ ∧
        ¬ parsed.tree.Nested lateMark.utf8ByteSize := by
  refine ⟨.empty, _, parseUnit?_lateMark, range_lateMarkUnit, fun nested => ?_⟩
  obtain ⟨node, found, _, _, whole⟩ := nested.whole
  have range := range_lateMarkUnit
  rw [found, Option.map_some, Option.some.injEq] at range
  rw [range, utf8ByteSize_lateMark] at whole
  simp [counterRange] at whole

end DeclTree
