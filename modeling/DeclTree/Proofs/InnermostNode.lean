import DeclTree.Proofs.CountedUnits
import DeclTree.Proofs.Overrun
import DeclTree.Proofs.TreeOrder

/-!
# The innermost node

The node at an offset is searched from the translation unit inward, and in every node the first
one that covers the offset is taken.  Nodes in one node may overlap: a class that is defined
inside a declaration lies in what the declaration declares.  Still the search never has to turn
back.  Of two nodes that overlap the one started later lies around the other, unless it was
started inside it.  So what covers an offset and does not stand in the node taken lies around that
node.
-/

namespace DeclTree

/-- Ranges that share an offset overlap. -/
theorem SourceRange.not_before_of_contains {first second : SourceRange} {offset : Nat}
    (contains : first.contains offset = true) (other : second.contains offset = true) :
    ¬first.Before second := by
  simp only [SourceRange.contains, Bool.and_eq_true, decide_eq_true_eq] at contains other
  unfold Before
  omega

/-- Whether a node stands directly in another one, as seen from the inner one. -/
def StartedIn (spots : NodeId → Option Spot) (outer inner : NodeId) : Prop :=
  ∃ spot, spots inner = some spot ∧ spot.parent = some outer

/-- Of two finished nodes the one started later is behind the other, or around it, or was started
inside it, at whatever depth. -/
def Shingled (spots : NodeId → Option Spot) : Prop :=
  ∀ id other first second, spots id = some first → spots other = some second →
    id.index < other.index → first.range.sealed = true → second.range.sealed = true →
      first.range.Before second.range ∨ first.range.Within second.range ∨
        Relation.TransGen (StartedIn spots) id other

/-- Whether every node but the translation unit stands in a node. -/
def OuterKnown (spots : NodeId → Option Spot) : Prop :=
  ∀ id spot parent, spots id = some spot → spot.parent = some parent →
    ∃ around, spots parent = some around

namespace Layout

variable {spots : NodeId → Option Spot} {opened : List Opening} {reach : Nat}

/-- What was started behind a node that is not finished was started inside it. -/
theorem startedIn_of_running (layout : Layout spots opened reach)
    (closed : OuterKnown spots) {opening : Opening} (member : opening ∈ opened) {outer : NodeId}
    (running : opening.node = some outer) {id : NodeId} {spot : Spot}
    (found : spots id = some spot) (after : outer.index < id.index) :
    Relation.TransGen (StartedIn spots) outer id := by
  -- Outward from the node the handles get smaller, and do not pass the outer one.
  induction place : id.index using Nat.strongRecOn generalizing id spot with
  | ind place inductionHypothesis =>
      obtain ⟨_, parent, known, bound⟩ :=
        layout.later opening member outer running id spot found after
      have started : StartedIn spots parent id := ⟨spot, found, known⟩
      rcases Nat.lt_or_eq_of_le bound with deeper | same
      · obtain ⟨around, there⟩ := closed id spot parent found known
        have earlier := layout.below id spot parent found known
        exact (inductionHypothesis parent.index (place ▸ earlier) there deeper rfl).tail started
      · obtain rfl : outer = parent := congrArg NodeId.mk same
        exact .single started

end Layout

namespace Shingled

variable {spots : NodeId → Option Spot} {opened : List Opening} {reach : Nat}

/-- Parents that stay keep the ways inward. -/
theorem startedIn_update {node outer inner : NodeId} {changed : Spot}
    (same : ∀ spot, spots node = some spot → changed.parent = spot.parent)
    (inside : Relation.TransGen (StartedIn spots) outer inner) :
    Relation.TransGen (StartedIn (Function.update spots node (some changed))) outer inner := by
  revert inside
  apply Relation.TransGen.mono
  rintro outer inner ⟨spot, found, parent⟩
  by_cases here : inner = node
  · subst here
    exact ⟨changed, Function.update_self .., (same spot found).trans parent⟩
  · exact ⟨spot, by rwa [Function.update_of_ne here], parent⟩

/-- A node that is started is not finished. -/
theorem begin (shingled : Shingled spots) {node : NodeId} {fresh : Spot}
    (new : spots node = none) (unsealed : fresh.range.sealed = false) :
    Shingled (Function.update spots node (some fresh)) := by
  intro id other first second found there before sealedFirst sealedSecond
  rcases eq_or_of_update found with ⟨_, rfl⟩ | ⟨_, old⟩
  · simp [unsealed] at sealedFirst
  · rcases eq_or_of_update there with ⟨_, rfl⟩ | ⟨_, oldOther⟩
    · simp [unsealed] at sealedSecond
    · refine (shingled id other first second old oldOther before sealedFirst sealedSecond).imp_right
        (Or.imp_right (startedIn_update ?_))
      simp [new]

/-- Nodes finished before are in front of the one that is finished, or inside it, and those
started later were started inside it. -/
theorem finish (shingled : Shingled spots) {start : Cursor} {node : NodeId} {done spot : Spot}
    (layout : Layout spots (⟨start, some node⟩ :: opened) reach) (closed : OuterKnown spots)
    (known : spots node = some spot) (parent : done.parent = spot.parent)
    (starts : done.range.startOffset = start.offset) (behind : reach ≤ done.range.endOffset) :
    Shingled (Function.update spots node (some done)) := by
  have kept {outer inner : NodeId} :
      Relation.TransGen (StartedIn spots) outer inner →
        Relation.TransGen (StartedIn (Function.update spots node (some done))) outer inner := by
    apply startedIn_update
    intro other there
    obtain rfl := Option.some.inj (known.symm.trans there)
    exact parent
  intro id other first second found there before sealedFirst sealedSecond
  rcases eq_or_of_update found with ⟨rfl, rfl⟩ | ⟨_, old⟩
  · rcases eq_or_of_update there with ⟨rfl, _⟩ | ⟨_, oldOther⟩
    · exact absurd before (Nat.lt_irrefl _)
    · have inside := layout.startedIn_of_running closed List.mem_cons_self rfl oldOther before
      exact .inr (.inr (kept inside))
  · rcases eq_or_of_update there with ⟨rfl, rfl⟩ | ⟨_, oldOther⟩
    · rcases layout.uncut id first old sealedFirst _ List.mem_cons_self with front | back
      · exact .inl (starts.symm ▸ front : first.range.endOffset ≤ second.range.startOffset)
      · have ends := Nat.le_trans (layout.endOffset_le old sealedFirst) behind
        exact .inr (.inl ⟨starts ▸ back, ends⟩)
    · exact (shingled id other first second old oldOther before sealedFirst sealedSecond).imp_right
        (Or.imp_right kept)

end Shingled

namespace Stage

variable {base limit : Nat} {stage after : Stage}

theorem Arranged.outerKnown (arranged : stage.Arranged limit) :
    OuterKnown stage.state.tree.spot? := by
  intro id spot parent found around
  have inner : id ≠ Tree.root := by
    rintro rfl
    exact absurd (arranged.layout.below _ spot parent found around) (Nat.not_lt_zero _)
  obtain ⟨node, there, rfl⟩ := Option.map_eq_some_iff.1 found
  have kin : stage.state.tree.kin? id = some ⟨node.parent, node.children⟩ := by
    simp [Tree.kin?, there]
  obtain ⟨other, _, known, outer, _⟩ := arranged.family.parent id _ kin inner
  obtain rfl := Option.some.inj (around.symm.trans known)
  obtain ⟨outerNode, foundOuter, _⟩ := Option.map_eq_some_iff.1 outer
  exact ⟨_, Option.map_eq_some_iff.2 ⟨outerNode, foundOuter, rfl⟩⟩

/-- A finished node starts where its declaration does, and ends behind all that were finished
before. -/
theorem Arranged.spot?_finished (arranged : stage.Arranged limit) {start last : Cursor}
    {node : NodeId} {outer : List Opening} (running : stage.opened = ⟨start, some node⟩ :: outer)
    (behind : stage.settled.Moves last) (moves : start.Moves last)
    (read : last.weight < start.weight) : ∃ spot done, stage.state.tree.spot? node = some spot ∧
      (stage.finished node last outer).state.tree.spot? =
        Function.update stage.state.tree.spot? node (some done) ∧
      done.parent = spot.parent ∧ done.range.startOffset = start.offset ∧
        stage.settled.reach ≤ done.range.endOffset := by
  have head : (⟨start, some node⟩ : Opening) ∈ stage.opened := running ▸ List.mem_cons_self
  obtain ⟨_, gains⟩ := (arranged.opened _ head).moves moves
  have covered := gains.read read
  obtain ⟨_, spot, found, unsealed, starts⟩ := arranged.layout.running _ head node rfl
  refine ⟨spot, _, found, Tree.spot?_finish found unsealed last.previousSpan, rfl, starts, ?_⟩
  have reaches := (arranged.settled.moves behind).2.reach
  rw [← Cursor.stop_previousSpan (Nat.zero_lt_of_lt covered)] at reaches
  exact Nat.le_trans reaches (Nat.le_max_left _ _)

/-- A step keeps the later of two finished nodes behind, around or inside the earlier one. -/
theorem Step.shingled (step : Step base stage after) (arranged : stage.Arranged limit)
    (shingled : Shingled stage.state.tree.spot?) : Shingled after.state.tree.spot? := by
  cases step with
  | read | note | change | await | cancel => exact shingled
  | @amend node change same =>
      have kept : (stage.state.tree.updateTemplate node change).spot? =
          stage.state.tree.spot? := by
        rw [Tree.updateTemplate]
        apply Tree.spot?_update <;> intro found <;> split <;> rfl
      exact kept.symm ▸ shingled
  | @begin start kind table =>
      change Shingled (stage.state.tree.add kind stage.around start.peek.span).2.spot?
      rw [Tree.spot?_add]
      refine shingled.begin ?_ rfl
      apply Option.eq_none_iff_forall_ne_some.2
      intro spot found
      exact absurd (Tree.lt_size_of_spot? found) (Nat.lt_irrefl _)
  | finish running behind _ moves read =>
      obtain ⟨spot, done, known, after, parent, starts, ends⟩ :=
        arranged.spot?_finished running behind moves read
      have layout := arranged.layout
      rw [running] at layout
      rw [after]
      exact shingled.finish layout arranged.outerKnown known parent starts ends

theorem Run.shingled (run : Run base stage after) (ready : stage.Ready base)
    (arranged : stage.Arranged limit) (shingled : Shingled stage.state.tree.spot?) :
    Shingled after.state.tree.spot? := by
  induction run with
  | refl => exact shingled
  | tail run step ih => exact step.shingled (Run.arranged run ready arranged) ih

end Stage

/-! ## Behind a parse -/

/-- At first there is the translation unit only. -/
theorem shingled_empty (unit : UnitId) : Shingled (Tree.empty unit).spot? := by
  intro id other first second _ there before
  have only : other.index < 1 := Tree.lt_size_of_spot? there
  omega

namespace Tree

/-- Of two nodes other than the translation unit the one started later is behind the other, or
around it, or stands inside it. -/
def Sequenced (tree : Tree) : Prop :=
  ∀ id other first second, tree.get? id = some first → tree.get? other = some second →
    id ≠ root → id.index < other.index →
      first.range.Before second.range ∨ first.range.Within second.range ∨ tree.Surrounds id other

/-- Whether a node covers no more than another one. -/
def LiesIn (tree : Tree) (inner outer : NodeId) : Prop :=
  ∃ node around, tree.get? inner = some node ∧ tree.get? outer = some around ∧
    node.range.Within around.range

/-- Whether a node is the innermost one at an offset: it covers the offset, and no more than
every other node that does. -/
structure Innermost (tree : Tree) (offset : Nat) (id : NodeId) : Prop where
  covers : tree.covers offset id = true
  inside : ∀ other, tree.covers offset other = true → tree.LiesIn id other

/-- Whether the innermost node at an offset is a node or stands inside it. -/
structure Narrows (tree : Tree) (offset : Nat) (id : NodeId) : Prop where
  covers : tree.covers offset id = true
  inside : ∀ other, tree.covers offset other = true →
    tree.LiesIn id other ∨ tree.Surrounds id other

variable {tree : Tree} {reach length line offset : Nat}

theorem holds_of_family (family : Family tree.kin?) {inner outer : NodeId} {spot : Spot}
    (found : tree.spot? inner = some spot) (below : inner ≠ root)
    (around : spot.parent = some outer) : tree.Holds outer inner := by
  obtain ⟨node, there, rfl⟩ := Option.map_eq_some_iff.1 found
  have kin : tree.kin? inner = some ⟨node.parent, node.children⟩ := by
    simp [kin?, there]
  obtain ⟨parent, _, known, outside, member⟩ := family.parent inner _ kin below
  obtain rfl := Option.some.inj (around.symm.trans known)
  obtain ⟨outerNode, foundOuter, rfl⟩ := Option.map_eq_some_iff.1 outside
  exact (holds_iff foundOuter).2 member

theorem children_finishRoot (tree : Tree) (length line : Nat) (id : NodeId) :
    (tree.finishRoot length line).children id = tree.children id :=
  tree.children_update root id fun _ => rfl

theorem sequenced_finishRoot (layout : Layout tree.spot? [] reach) (family : Family tree.kin?)
    (shingled : Shingled tree.spot?) : (tree.finishRoot length line).Sequenced := by
  have inward {outer inner : NodeId} : Relation.TransGen (StartedIn tree.spot?) outer inner →
      (tree.finishRoot length line).Surrounds outer inner := by
    apply Relation.TransGen.mono
    rintro outer inner ⟨spot, found, around⟩
    have below : inner ≠ root := by
      rintro rfl
      exact absurd (layout.below _ spot outer found around) (Nat.not_lt_zero _)
    have held := holds_of_family family found below around
    rwa [Holds, children_finishRoot]
  intro id other first second found there inner before
  have innerOther : other ≠ root := by
    rintro rfl
    exact absurd before (Nat.not_lt_zero _)
  rcases finishRoot_cases layout found with ⟨top, _⟩ | ⟨_, spot⟩
  · exact absurd top inner
  rcases finishRoot_cases layout there with ⟨top, _⟩ | ⟨_, spotOther⟩
  · exact absurd top innerOther
  exact (shingled id other _ _ spot spotOther before (layout.done spot inner).1
    (layout.done spotOther innerOther).1).imp_right (Or.imp_right inward)

theorem covers_iff {id : NodeId} : tree.covers offset id = true ↔
    ∃ node, tree.get? id = some node ∧ node.range.contains offset = true := by
  rw [covers, Option.any_eq_true]

theorem has_of_covers {id : NodeId} (covers : tree.covers offset id = true) : tree.Has id := by
  obtain ⟨_, found, _⟩ := covers_iff.1 covers
  exact has_of_get? found

theorem LiesIn.refl {id : NodeId} (present : tree.Has id) : tree.LiesIn id id := by
  obtain ⟨node, found⟩ := exists_get? present
  exact ⟨node, node, found, found, .refl _⟩

theorem LiesIn.trans {inner middle outer : NodeId} (first : tree.LiesIn inner middle)
    (second : tree.LiesIn middle outer) : tree.LiesIn inner outer := by
  obtain ⟨node, between, found, there, starts, ends⟩ := first
  obtain ⟨same, around, thereSame, foundAround, startsOuter, endsOuter⟩ := second
  obtain rfl := Option.some.inj (there.symm.trans thereSame)
  exact ⟨node, around, found, foundAround, Nat.le_trans startsOuter starts,
    Nat.le_trans ends endsOuter⟩

theorem LiesIn.covers {inner outer : NodeId} (lies : tree.LiesIn inner outer)
    (covers : tree.covers offset inner = true) : tree.covers offset outer = true := by
  obtain ⟨node, around, found, there, starts, ends⟩ := lies
  obtain ⟨same, foundSame, inside⟩ := covers_iff.1 covers
  obtain rfl := Option.some.inj (found.symm.trans foundSame)
  refine covers_iff.2 ⟨around, there, ?_⟩
  simp only [SourceRange.contains, Bool.and_eq_true, decide_eq_true_eq] at inside ⊢
  omega

section Descent

variable {id child other : NodeId} (rooted : tree.Rooted)
include rooted

/-- The search takes the earliest of the nodes in one that cover the offset. -/
theorem eq_or_lt_of_first (first : (tree.children id).find? (tree.covers offset) = some child)
    (held : tree.Holds id other) (covers : tree.covers offset other = true) :
    child = other ∨ child.index < other.index := by
  obtain ⟨_, front, back, split, missed⟩ := List.find?_eq_some_iff_append.1 first
  have ordered := rooted.ordered id
  rw [Holds, split, List.mem_append, List.mem_cons] at held
  rw [split, List.pairwise_append] at ordered
  rcases held with inFront | rfl | behind
  · exact absurd covers (by simpa using missed other inFront)
  · exact .inl rfl
  · exact .inr ((List.pairwise_cons.1 ordered.2.1).1 other behind)

variable (nested : tree.Nested length)
include nested

theorem liesIn_of_holds (held : tree.Holds id child) : tree.LiesIn child id := by
  obtain ⟨node, found⟩ := exists_get? (rooted.inward id child held).2
  obtain ⟨around, there⟩ := exists_get? (tree.has_of_mem_children held)
  exact ⟨node, around, found, there, within_of_holds rooted nested held there found⟩

theorem covers_outward (inward : Relation.ReflTransGen tree.Holds id other)
    (covers : tree.covers offset other = true) : tree.covers offset id = true := by
  induction inward using Relation.ReflTransGen.head_induction_on with
  | refl => exact covers
  | head held _ inside => exact (liesIn_of_holds rooted nested held).covers inside

/-- Of the nodes in one that cover an offset, the earliest lies in all others, and in what
stands inside them and covers the offset. -/
theorem Narrows.inward (sequenced : tree.Sequenced) (narrows : tree.Narrows offset id)
    (first : (tree.children id).find? (tree.covers offset) = some child) :
    tree.Narrows offset child := by
  have held : tree.Holds id child := List.mem_of_find?_eq_some first
  have covered : tree.covers offset child = true := List.find?_some first
  refine ⟨covered, ?_⟩
  intro other covers
  rcases narrows.inside other covers with around | inside
  · exact .inl ((liesIn_of_holds rooted nested held).trans around)
  obtain ⟨sibling, heldSibling, reaches⟩ := Relation.TransGen.head'_iff.1 inside
  have coversSibling := covers_outward rooted nested reaches covers
  rcases eq_or_lt_of_first rooted first heldSibling coversSibling with rfl | before
  · refine (Relation.reflTransGen_iff_eq_or_transGen.1 reaches).imp_left ?_
    rintro rfl
    exact .refl (has_of_covers covers)
  · obtain ⟨node, found, contains⟩ := covers_iff.1 covered
    obtain ⟨around, there, containsOther⟩ := covers_iff.1 covers
    have inner := ne_root_of_holds rooted held
    have after : child.index < other.index := by
      rcases Relation.reflTransGen_iff_eq_or_transGen.1 reaches with rfl | deeper
      · exact before
      · exact Nat.lt_trans before (rooted.index_lt deeper)
    rcases sequenced child other node around found there inner after with front | within | deeper
    · exact absurd front (SourceRange.not_before_of_contains contains containsOther)
    · exact .inl ⟨node, around, found, there, within⟩
    · -- Nothing stands inside two nodes of one.
      have apart := rooted.disjoint_siblings held heldSibling before
      exact absurd (rooted.mem_cons_inside.2 reaches)
        (List.disjoint_left.1 apart (rooted.mem_cons_inside.2 deeper.to_reflTransGen))

theorem Narrows.innermost (narrows : tree.Narrows offset id)
    (nothing : (tree.children id).find? (tree.covers offset) = none) :
    tree.Innermost offset id := by
  refine ⟨narrows.covers, ?_⟩
  intro other covers
  rcases narrows.inside other covers with around | inside
  · exact around
  · obtain ⟨child, held, inward⟩ := Relation.TransGen.head'_iff.1 inside
    have covered := covers_outward rooted nested inward covers
    exact absurd covered (List.find?_eq_none.1 nothing child held)

theorem innermost_descend (sequenced : tree.Sequenced) {bound : Nat}
    (room : tree.size - id.index ≤ bound) (narrows : tree.Narrows offset id) :
    tree.Innermost offset (tree.descend offset bound id) := by
  induction bound generalizing id with
  | zero =>
      have present : id.index < tree.size := has_of_covers narrows.covers
      omega
  | succ bound inductionHypothesis =>
      rw [descend]
      split
      case h_1 child first =>
        have later := (rooted.inward id child (List.mem_of_find?_eq_some first)).1
        exact inductionHypothesis (by omega) (narrows.inward rooted nested sequenced first)
      case h_2 nothing => exact narrows.innermost rooted nested nothing

/-- The search from the translation unit. -/
theorem innermost_nodeAt? (sequenced : tree.Sequenced) (within : offset < length) :
    ∃ id, tree.nodeAt? offset = some id ∧ tree.Innermost offset id := by
  obtain ⟨unit, found, _, starts, ends⟩ := nested.whole
  have covers : tree.covers offset root = true := by
    refine covers_iff.2 ⟨unit, found, ?_⟩
    simp [SourceRange.contains, starts, ends, within]
  refine ⟨_, if_pos covers, ?_⟩
  apply innermost_descend rooted nested sequenced (Nat.sub_le _ _)
  refine ⟨covers, ?_⟩
  intro other coversOther
  have listed := rooted.mem_listing_root.2 (has_of_covers coversOther)
  rw [listing_cons, listing_nil, List.append_nil, List.mem_cons, rooted.mem_inside] at listed
  refine listed.imp_left ?_
  rintro rfl
  exact .refl (has_of_covers covers)

end Descent

theorem nodeAt?_eq_none (nested : tree.Nested length) (behind : length ≤ offset) :
    tree.nodeAt? offset = none := by
  obtain ⟨unit, found, _, _, ends⟩ := nested.whole
  apply if_neg
  rw [covers_iff]
  rintro ⟨same, foundSame, inside⟩
  obtain rfl := Option.some.inj (found.symm.trans foundSame)
  simp only [SourceRange.contains, Bool.and_eq_true, decide_eq_true_eq] at inside
  omega

end Tree

/-- Of two nodes of a parsed unit the later one is behind the other, around it or inside it. -/
theorem sequenced_parseUnit (options : ParseOptions) {table : SymbolTable}
    (reached : table.Reachable) (unit : UnitId) (source : String) :
    (parseUnit options table unit source).tree.Sequenced := by
  have since := reached.framesSince
  obtain ⟨final, settled, finished, run⟩ :=
    ParseState.exists_run options reached since (Nat.zero_le _) unit source
  have ready := ParseState.ready_startStage options reached since (Nat.zero_le _) unit source
  have start := ParseState.arranged_startStage options table unit source
  have arranged := run.arranged ready start
  have shingled := run.shingled ready start (shingled_empty unit)
  simp only [parseUnit, ParseState.parsed, ParseState.finish_eq finished]
  exact Tree.sequenced_finishRoot arranged.layout arranged.family shingled

/-- At every offset in a source, whatever errors it has, the search finds the innermost node of
the unit, and behind the source it finds nothing. -/
theorem innermost_parseUnit (options : ParseOptions) {table : SymbolTable}
    (reached : table.Reachable) (unit : UnitId) (source : String) (offset : Nat) :
    (offset < source.utf8ByteSize → ∃ id,
      (parseUnit options table unit source).tree.nodeAt? offset = some id ∧
        (parseUnit options table unit source).tree.Innermost offset id) ∧
    (source.utf8ByteSize ≤ offset →
      (parseUnit options table unit source).tree.nodeAt? offset = none) := by
  obtain ⟨rooted, nested⟩ := rooted_parseUnit options reached unit source
  have sequenced := sequenced_parseUnit options reached unit source
  exact ⟨Tree.innermost_nodeAt? rooted nested sequenced, Tree.nodeAt?_eq_none nested⟩

-- Both the class and the declaration of `a` cover the first offsets.
example : [0, 12, 18, 20, 22].map (parseSource "struct A { int x; } a;").tree.nodeAt? =
    [some ⟨1⟩, some ⟨2⟩, some ⟨1⟩, some ⟨3⟩, none] := by
  decide +kernel

/-- The search finds the innermost node of every unit whose source has less than 2 ^ 32 - 1
bytes. -/
theorem innermost_parseUnit? (options : ParseOptions) {table : SymbolTable}
    (reached : table.Reachable) (unit : UnitId) {source : String}
    (short : source.utf8ByteSize < counterRange - 1) :
    ∃ parsed, parseUnit? options table unit source = some parsed ∧ ∀ offset,
      (offset < source.utf8ByteSize → ∃ id,
        parsed.tree.nodeAt? offset = some id ∧ parsed.tree.Innermost offset id) ∧
      (source.utf8ByteSize ≤ offset → parsed.tree.nodeAt? offset = none) :=
  ⟨_, parseUnit?_eq options table unit short, innermost_parseUnit options reached unit source⟩

/-- A class inside a declaration that is around it, in a second unit. -/
theorem innermost_parseUnit?_second_unit :
    (parseSource "template<class T> void f(A<A<T>> x); int;").table.Reachable ∧
      "struct A { int x; } a;".utf8ByteSize < counterRange - 1 ∧
      ∃ parsed, parseUnit? {} (parseSource "template<class T> void f(A<A<T>> x); int;").table ⟨1⟩
          "struct A { int x; } a;" = some parsed ∧
        (∃ id, parsed.tree.nodeAt? 20 = some id ∧ parsed.tree.Innermost 20 id) ∧
          parsed.tree.nodeAt? 22 = none := by
  have reached := reachable_parseUnit {} .empty ⟨0⟩ "template<class T> void f(A<A<T>> x); int;"
  have length : "struct A { int x; } a;".utf8ByteSize = 22 := by decide +kernel
  have short : "struct A { int x; } a;".utf8ByteSize < counterRange - 1 := by decide +kernel
  obtain ⟨parsed, same, found⟩ := innermost_parseUnit? {} reached ⟨1⟩ short
  refine ⟨reached, short, parsed, same, (found 20).1 ?_, (found 22).2 ?_⟩
  · rw [length]
    decide
  · rw [length]

/-- In a source that is too long nothing need be found: the translation unit with a semicolon
behind 2 ^ 32 blanks does not cover the sixth of its bytes. -/
theorem lateMark_nowhere : SymbolTable.empty.Reachable ∧ 5 < lateMark.utf8ByteSize ∧
    ∃ parsed, parseUnit? {} .empty ⟨0⟩ lateMark = some parsed ∧ parsed.tree.nodeAt? 5 = none := by
  refine ⟨.empty, ?_, _, parseUnit?_lateMark, by decide +kernel⟩
  rw [utf8ByteSize_lateMark]
  simp [counterRange]

end DeclTree
