import DeclTree.Proofs.DeclarationCourse
import DeclTree.Proofs.NodeLayout

/-!
# The order in which nodes are created

A node starts at a token that was read before the node was created, and most nodes are created
before anything else is.  Only a declarator comes late: its node starts with the declaration it is
part of, and is created behind the specifiers.  A class or enum among them is a node of its own by
then, with all that stands in it.  What is told of a node here does not change any more once it is
there: whether it is a class or enum, whether a declarator declares it, where it stands and where
it starts.
-/

namespace DeclTree

/-! ## Nodes when they are created -/

namespace NodeKind

/-- Whether a node is a class or an enum. -/
def isTag : NodeKind → Bool
  | .classType _ | .enumType _ => true
  | _ => false

/-- Whether a node is declared by a declarator. -/
def isDeclared : NodeKind → Bool
  | .function _ | .var _ | .typedef _ => true
  | _ => false

end NodeKind

/-- What is settled of a node when it is created. -/
structure Birth where
  isTag : Bool
  isDeclared : Bool
  parent : Option NodeId
  start : Nat

/-- What was settled of a node when it was created. -/
def Node.birth (node : Node) : Birth where
  isTag := node.kind.isTag
  isDeclared := node.kind.isDeclared
  parent := node.parent
  start := node.range.startOffset

namespace Tree

/-- What was settled of the node behind a handle when it was created. -/
def birth? (tree : Tree) (id : NodeId) : Option Birth :=
  (tree.get? id).map Node.birth

theorem birth?_update (tree : Tree) (id : NodeId) {change : Node → Node}
    (same : ∀ node, (change node).birth = node.birth) :
    (tree.update id change).birth? = tree.birth? := by
  funext other
  unfold birth?
  rw [get?_update]
  split
  · simp [Function.comp_def, same]
  · rfl

theorem birth?_add (tree : Tree) (kind : NodeKind) (parent : NodeId) (start : Span) :
    (tree.add kind parent start).2.birth? = Function.update tree.birth? ⟨tree.size⟩
      (some ⟨kind.isTag, kind.isDeclared, some parent, start.offset⟩) := by
  funext id
  unfold birth?
  rw [get?_add]
  by_cases new : id = ⟨tree.size⟩
  · subst new
    rw [Function.update_self, if_pos rfl, Option.map_some, Option.map_some]
    split <;> rfl
  · have old : id.index ≠ tree.size := fun same => new (congrArg NodeId.mk same)
    rw [Function.update_of_ne new, if_neg old, Option.map_map]
    congr 1
    funext node
    simp only [Function.comp_apply]
    split <;> rfl

@[simp] theorem birth?_finish (tree : Tree) (id : NodeId) (last : Span) :
    (tree.finish id last).birth? = tree.birth? := by
  apply birth?_update
  intro node
  split <;> rfl

@[simp] theorem birth?_updateTemplate (tree : Tree) (id : NodeId)
    (change : TemplateDecl → TemplateDecl) :
    (tree.updateTemplate id change).birth? = tree.birth? := by
  apply birth?_update
  intro node
  split
  · rename_i declaration kind
    simp [Node.birth, kind, NodeKind.isTag, NodeKind.isDeclared]
  · rfl

theorem lt_size_of_birth? {tree : Tree} {id : NodeId} {birth : Birth}
    (found : tree.birth? id = some birth) : id.index < tree.size := by
  obtain ⟨node, there, _⟩ := Option.map_eq_some_iff.1 found
  exact has_of_get? there

theorem birth?_fresh (tree : Tree) : tree.birth? ⟨tree.size⟩ = none := by
  apply Option.eq_none_iff_forall_ne_some.2
  intro birth found
  exact absurd (lt_size_of_birth? found) (Nat.lt_irrefl _)

theorem exists_birth? {tree : Tree} {id : NodeId} (present : tree.Has id) :
    ∃ birth, tree.birth? id = some birth := by
  obtain ⟨node, found⟩ := exists_get? present
  exact ⟨node.birth, by rw [birth?, found, Option.map_some]⟩

end Tree

/-! ## Orders of creation -/

/-- Whether a node stands directly in another one. -/
def BornIn (births : NodeId → Option Birth) (outer inner : NodeId) : Prop :=
  ∃ birth, births inner = some birth ∧ birth.parent = some outer

/-- Whether a node is, or stands inside, a class or enum that stands directly in another one. -/
def InTag (births : NodeId → Option Birth) (outer id : NodeId) : Prop :=
  ∃ tag birth, births tag = some birth ∧ birth.isTag = true ∧ birth.parent = some outer ∧
    Relation.ReflTransGen (BornIn births) tag id

/-- Whether nodes are created in the order in which they start, apart from what declarators
declare behind a class or enum: a node that starts in front of an earlier one is declared by a
declarator, and the earlier one is, or stands inside, a class or enum next to it. -/
structure Chronicle (births : NodeId → Option Birth) : Prop where
  closed : ∀ id birth parent, births id = some birth → birth.parent = some parent →
    parent.index < id.index ∧ ∃ around, births parent = some around
  ordered : ∀ id other first second, births id = some first → births other = some second →
    id.index < other.index → first.start ≤ second.start ∨
      (second.isDeclared = true ∧ ∃ outer, second.parent = some outer ∧ InTag births outer id)

section Births

variable {births later : NodeId → Option Birth}

theorem InTag.mono (kept : ∀ id birth, births id = some birth → later id = some birth)
    {outer id : NodeId} (inside : InTag births outer id) : InTag later outer id := by
  obtain ⟨tag, birth, found, isTag, parent, inward⟩ := inside
  refine ⟨tag, birth, kept tag birth found, isTag, parent, ?_⟩
  revert inward
  apply Relation.ReflTransGen.mono
  rintro around inner ⟨other, there, stands⟩
  exact ⟨other, kept inner other there, stands⟩

theorem keeps_update {node : NodeId} (new : births node = none) (fresh : Birth) :
    ∀ id birth, births id = some birth →
      Function.update births node (some fresh) id = some birth := by
  intro id birth found
  rw [Function.update_of_ne]
  · exact found
  · rintro rfl
    rw [new] at found
    cases found

/-- A node that starts behind all others, or is declared by a declarator and starts behind all but
the classes and enums in front of it, is created in order. -/
theorem Chronicle.add (chronicle : Chronicle births) {node parent : NodeId} {fresh : Birth}
    (new : births node = none) (last : ∀ id birth, births id = some birth → id.index < node.index)
    (present : ∃ around, births parent = some around) (stands : fresh.parent = some parent)
    (timely : ∀ id birth, births id = some birth → birth.start ≤ fresh.start ∨
      (fresh.isDeclared = true ∧ InTag births parent id)) :
    Chronicle (Function.update births node (some fresh)) := by
  have kept := keeps_update new fresh
  constructor
  case closed =>
    intro id birth outer found around
    rcases eq_or_of_update found with ⟨rfl, rfl⟩ | ⟨_, old⟩
    · obtain rfl := Option.some.inj (stands.symm.trans around)
      obtain ⟨other, there⟩ := present
      exact ⟨last parent other there, other, kept parent other there⟩
    · obtain ⟨before, other, there⟩ := chronicle.closed id birth outer old around
      exact ⟨before, other, kept outer other there⟩
  case ordered =>
    intro id other first second found there before
    rcases eq_or_of_update there with ⟨rfl, rfl⟩ | ⟨_, oldOther⟩
    · rcases eq_or_of_update found with ⟨rfl, _⟩ | ⟨_, old⟩
      · exact absurd before (Nat.lt_irrefl _)
      · exact (timely id first old).imp_right
          fun ⟨declared, inside⟩ => ⟨declared, parent, stands, inside.mono kept⟩
    · rcases eq_or_of_update found with ⟨rfl, _⟩ | ⟨_, old⟩
      · exact absurd (Nat.lt_trans before (last other second oldOther)) (Nat.lt_irrefl _)
      · exact (chronicle.ordered id other first second old oldOther before).imp_right
          fun ⟨declared, outer, around, inside⟩ => ⟨declared, outer, around, inside.mono kept⟩

end Births

/-! ## States of a parse -/

/-- Scopes that remain have their nodes. -/
theorem ScopeStack.Remain.map_node {before after : ScopeStack} (remain : before.Remain after) :
    after.frames.map ScopeFrame.node = before.frames.map ScopeFrame.node := by
  have each {first second : List ScopeFrame}
      (remains : List.Forall₂ ScopeFrame.Remains first second) :
      second.map ScopeFrame.node = first.map ScopeFrame.node := by
    induction remains with
    | nil => rfl
    | cons head _ ih =>
        rw [List.map_cons, List.map_cons, ih]
        rcases head with rfl | ⟨_, rfl⟩
        · rfl
        · rfl
  exact each remain

namespace ParseState

/-- A state in which nodes were created in order, and start where the parse has been. -/
structure Dated (limit : Nat) (state : ParseState) : Prop where
  sound : state.cursor.Sound
  aligned : state.cursor.Aligned limit
  chronicle : Chronicle state.tree.birth?
  started : ∀ id birth, state.tree.birth? id = some birth → birth.start ≤ state.cursor.offset

/-- Whether no node is created, and the scopes stay, between two states. -/
structure Rests (state next : ParseState) : Prop where
  moves : state.cursor.Moves next.cursor
  births : next.tree.birth? = state.tree.birth?
  scopes : next.scopes.frames.map ScopeFrame.node = state.scopes.frames.map ScopeFrame.node

/-- What a part of a parse adds that leaves every scope it enters: nodes in the innermost scope,
only classes and enums if it adds nothing but `tags` there, nodes in some others, and nodes in
those it adds. -/
structure Adds (limit : Nat) (tags : Prop) (hosts : List NodeId) (state next : ParseState) :
    Prop where
  dated : next.Dated limit
  offset : state.cursor.offset ≤ next.cursor.offset
  kept : ∀ id birth, state.tree.birth? id = some birth → next.tree.birth? id = some birth
  scopes : next.scopes.frames.map ScopeFrame.node = state.scopes.frames.map ScopeFrame.node
  added : ∀ id birth, next.tree.birth? id = some birth → state.tree.birth? id = none →
    ∃ parent, birth.parent = some parent ∧
      (parent = state.scopes.inner.node ∧ (tags → birth.isTag = true) ∨ parent ∈ hosts ∨
        state.tree.birth? parent = none)

/-- Something that is known of the place where a node may start, and stays so until one is
created: that all nodes start there or before it, or all but those in classes and enums of the
innermost scope. -/
inductive Footing
  | timely (start : Span)
  | declared (start : Span)

/-- Whether a place where a node may start has been reached, and all nodes but some start there or
before it. -/
structure Reached (except : NodeId → Prop) (state : ParseState) (start : Span) : Prop where
  passed : start.offset ≤ state.cursor.offset
  started : ∀ id birth, state.tree.birth? id = some birth →
    birth.start ≤ start.offset ∨ except id

/-- Whether what is known of a place holds in a state. -/
def Footing.HoldsIn (state : ParseState) : Footing → Prop
  | .timely start => state.Reached (fun _ => False) start
  | .declared start => state.Reached (InTag state.tree.birth? state.scopes.inner.node) start

/-- Whether all that is known of some places holds in a state. -/
def Stands (state : ParseState) (known : List Footing) : Prop :=
  ∀ footing ∈ known, footing.HoldsIn state

variable {limit : Nat} {tags : Prop} {hosts : List NodeId} {state next last : ParseState}

theorem inner_of_scopes
    (same : next.scopes.frames.map ScopeFrame.node = state.scopes.frames.map ScopeFrame.node) :
    next.scopes.inner.node = state.scopes.inner.node :=
  (List.cons.inj same).1

/-! ### Resting -/

theorem Rests.refl (state : ParseState) : state.Rests state :=
  ⟨.refl _, rfl, rfl⟩

theorem Rests.trans (left : state.Rests next) (right : next.Rests last) : state.Rests last :=
  ⟨left.moves.trans right.moves, right.births.trans left.births, right.scopes.trans left.scopes⟩

theorem Reads.rests (reads : state.Reads next) : state.Rests next := by
  obtain ⟨moves, same⟩ := reads
  rw [same]
  exact ⟨moves, rfl, rfl⟩

theorem Rests.offset (rests : state.Rests next) (dated : state.Dated limit) :
    state.cursor.offset ≤ next.cursor.offset :=
  (dated.aligned.moves rests.moves).2.offset

theorem Rests.dated (rests : state.Rests next) (dated : state.Dated limit) : next.Dated limit where
  sound := rests.moves.sound dated.sound
  aligned := (dated.aligned.moves rests.moves).1
  chronicle := rests.births ▸ dated.chronicle
  started id birth found :=
    Nat.le_trans (dated.started id birth (rests.births ▸ found)) (rests.offset dated)

theorem Reached.rests {except : NodeId → Prop} {start : Span} (reached : state.Reached except start)
    (rests : state.Rests next) (dated : state.Dated limit) : next.Reached except start where
  passed := Nat.le_trans reached.passed (rests.offset dated)
  started id birth found := reached.started id birth (rests.births ▸ found)

theorem Stands.rests {known : List Footing} (stands : state.Stands known)
    (rests : state.Rests next) (dated : state.Dated limit) : next.Stands known := by
  intro footing member
  have holds := stands footing member
  cases footing with
  | timely start => exact Reached.rests holds rests dated
  | declared start =>
      rw [Footing.HoldsIn, rests.births, inner_of_scopes rests.scopes]
      exact Reached.rests holds rests dated

/-- No node starts behind the token ahead. -/
theorem Dated.reached_peek {except : NodeId → Prop} (dated : state.Dated limit) :
    state.Reached except state.cursor.peek.span :=
  ⟨Nat.le_refl _, fun id birth found => .inl (dated.started id birth found)⟩

theorem stands_nil (state : ParseState) : state.Stands [] := by
  intro footing member
  cases member

theorem stands_cons {footing : Footing} {known : List Footing} :
    state.Stands (footing :: known) ↔ footing.HoldsIn state ∧ state.Stands known :=
  List.forall_mem_cons

theorem Rests.adds (rests : state.Rests next) (dated : state.Dated limit) :
    Adds limit tags hosts state next where
  dated := rests.dated dated
  offset := rests.offset dated
  kept id birth found := by rwa [rests.births]
  scopes := rests.scopes
  added id birth found missing := by
    rw [rests.births, missing] at found
    cases found

/-! ### Adding nodes -/

theorem Adds.mono {more : Prop} {others : List NodeId} (adds : Adds limit tags hosts state next)
    (fewer : more → tags) (subset : hosts ⊆ others) : Adds limit more others state next where
  dated := adds.dated
  offset := adds.offset
  kept := adds.kept
  scopes := adds.scopes
  added id birth found missing := by
    obtain ⟨parent, around, place⟩ := adds.added id birth found missing
    refine ⟨parent, around, ?_⟩
    rcases place with ⟨here, isTag⟩ | host | new
    · exact .inl ⟨here, fun only => isTag (fewer only)⟩
    · exact .inr (.inl (subset host))
    · exact .inr (.inr new)

/-- What is added in nodes that were added before counts as added in them. -/
theorem Adds.trans {others : List NodeId} (left : Adds limit tags hosts state next)
    (right : Adds limit tags others next last)
    (known : ∀ host ∈ others, host ∈ hosts ∨ state.tree.birth? host = none) :
    Adds limit tags hosts state last where
  dated := right.dated
  offset := Nat.le_trans left.offset right.offset
  kept id birth found := right.kept id birth (left.kept id birth found)
  scopes := right.scopes.trans left.scopes
  added id birth found missing := by
    cases between : next.tree.birth? id with
    | some other =>
        obtain rfl := Option.some.inj ((right.kept id other between).symm.trans found)
        exact left.added id other between missing
    | none =>
        obtain ⟨parent, around, place⟩ := right.added id birth found between
        refine ⟨parent, around, ?_⟩
        rcases place with ⟨here, isTag⟩ | host | new
        · exact .inl ⟨here.trans (inner_of_scopes left.scopes), isTag⟩
        · exact .inr (known parent host)
        · refine .inr (.inr ?_)
          cases old : state.tree.birth? parent with
          | none => rfl
          | some other =>
              rw [left.kept parent other old] at new
              cases new

/-- What is added in a scope, or in its node, is added in that node. -/
theorem Adds.leave {frame : ScopeFrame}
    (adds : Adds limit False [frame.node] (state.enter frame) next) :
    Adds limit tags [frame.node] state next.leave where
  dated := { adds.dated with }
  offset := adds.offset
  kept := adds.kept
  scopes := by
    have same : next.scopes.frames.map ScopeFrame.node =
        frame.node :: state.scopes.frames.map ScopeFrame.node := adds.scopes
    change next.scopes.pop.frames.map ScopeFrame.node = _
    cases outer : next.scopes.outer with
    | nil => simp [ScopeStack.frames, outer] at same
    | cons around others =>
        rw [ScopeStack.frames, outer, List.map_cons] at same
        rw [ScopeStack.pop, outer]
        exact (List.cons.inj same).2
  added id birth found missing := by
    obtain ⟨parent, around, place⟩ := adds.added id birth found missing
    refine ⟨parent, around, ?_⟩
    rcases place with ⟨here, _⟩ | host | new
    · exact .inr (.inl (by rw [here]; exact List.mem_singleton.2 rfl))
    · exact .inr (.inl host)
    · exact .inr (.inr new)

theorem birth?_addNode (state : ParseState) (parent : NodeId) (kind : NodeKind) (start : Span) :
    (state.addNode parent kind start).2.tree.birth? =
      Function.update state.tree.birth? ⟨state.tree.size⟩
        (some ⟨kind.isTag, kind.isDeclared, some parent, start.offset⟩) :=
  state.tree.birth?_add kind parent start

/-- A node is added at a place that has been reached. -/
theorem Reached.adds {except : NodeId → Prop} {start : Span} {parent : NodeId} {kind : NodeKind}
    (reached : state.Reached except start) (dated : state.Dated limit)
    (present : state.tree.Has parent)
    (excepted : ∀ id, except id → kind.isDeclared = true ∧ InTag state.tree.birth? parent id)
    (place : parent = state.scopes.inner.node ∧ (tags → kind.isTag = true) ∨ parent ∈ hosts) :
    Adds limit tags hosts state (state.addNode parent kind start).2 where
  dated := by
    refine ⟨dated.sound, dated.aligned, ?_, ?_⟩
    · rw [birth?_addNode]
      refine dated.chronicle.add state.tree.birth?_fresh
        (fun id birth found => Tree.lt_size_of_birth? found) (Tree.exists_birth? present) rfl ?_
      exact fun id birth found => (reached.started id birth found).imp_right (excepted id)
    · intro id birth found
      rw [birth?_addNode] at found
      rcases eq_or_of_update found with ⟨_, rfl⟩ | ⟨_, old⟩
      · exact reached.passed
      · exact dated.started id birth old
  offset := Nat.le_refl _
  kept := by
    rw [birth?_addNode]
    exact keeps_update state.tree.birth?_fresh _
  scopes := rfl
  added id birth found missing := by
    rw [birth?_addNode] at found
    rcases eq_or_of_update found with ⟨_, rfl⟩ | ⟨_, old⟩
    · exact ⟨parent, rfl, place.imp_right .inl⟩
    · rw [missing] at old
      cases old

/-- A place that has been reached stays so when a node is added there or before it. -/
theorem Reached.addNode {start place : Span} {parent : NodeId} {kind : NodeKind}
    (reached : state.Reached (fun _ => False) start) (before : place.offset ≤ start.offset) :
    (state.addNode parent kind place).2.Reached (fun _ => False) start where
  passed := reached.passed
  started id birth found := by
    rw [birth?_addNode] at found
    rcases eq_or_of_update found with ⟨_, rfl⟩ | ⟨_, old⟩
    · exact .inl before
    · exact reached.started id birth old

/-- Where only classes and enums have been added to the innermost scope, whatever was added is, or
stands inside, one of them. -/
theorem Adds.inTag (adds : Adds limit True [] state next) {id : NodeId} {birth : Birth}
    (found : next.tree.birth? id = some birth) (missing : state.tree.birth? id = none) :
    InTag next.tree.birth? next.scopes.inner.node id := by
  -- Outward from a node that was added the handles get smaller.
  induction place : id.index using Nat.strongRecOn generalizing id birth with
  | ind place inductionHypothesis =>
      obtain ⟨parent, around, stands⟩ := adds.added id birth found missing
      rcases stands with ⟨here, isTag⟩ | host | new
      · refine ⟨id, birth, found, isTag trivial, ?_, .refl⟩
        rw [around, here, inner_of_scopes adds.scopes]
      · cases host
      · obtain ⟨before, other, there⟩ := adds.dated.chronicle.closed id birth parent found around
        obtain ⟨tag, top, known, isTag, outer, inward⟩ :=
          inductionHypothesis parent.index (place ▸ before) there new rfl
        exact ⟨tag, top, known, isTag, outer, inward.tail ⟨birth, found, around⟩⟩

/-- Where only classes and enums have been added, a declarator may start at the place in front of
them. -/
theorem Adds.declared {start : Span} (adds : Adds limit True [] state next)
    (reached : state.Reached (fun _ => False) start) :
    next.Reached (InTag next.tree.birth? next.scopes.inner.node) start where
  passed := Nat.le_trans reached.passed adds.offset
  started id birth found := by
    cases missing : state.tree.birth? id with
    | none => exact .inr (adds.inTag found missing)
    | some other =>
        obtain rfl := Option.some.inj ((adds.kept id other missing).symm.trans found)
        exact .inl ((reached.started id other missing).resolve_right not_false)

end ParseState

/-! ## Parses that create nodes in order -/

namespace ParseM

open ParseState (Footing)

/-- Whether a parse creates no node, and leaves every scope it enters. -/
def Resting {α : Type} (parse : ParseM α) : Prop :=
  ∀ state : ParseState, Leads parse state (fun _ => state.Rests) state.Rests

/-- Whether a parse that knows some places where nodes may start creates nodes in order, also if
it is refused. -/
def Dates {α : Type} (limit : Nat) (tags : Prop) (hosts : List NodeId) (known : List Footing)
    (parse : ParseM α) : Prop :=
  ∀ state : ParseState, state.Dated limit → state.Stands known →
    Leads parse state (fun _ => state.Adds limit tags hosts) (state.Adds limit tags hosts)

variable {α β : Type}

namespace Resting

theorem reads {parse : ParseM α} (reads : OnlyReads parse) : Resting parse :=
  fun state => (reads.leads state).mono (fun _ _ read => read.rests) fun _ read => read.rests

theorem bind {first : ParseM α} {rest : α → ParseM β} (resting : Resting first)
    (following : ∀ value, Resting (rest value)) : Resting (first >>= rest) := by
  intro state
  apply (resting state).bind
  intro value next rests
  exact (following value next).mono (fun _ _ further => rests.trans further)
    fun _ further => rests.trans further

theorem behind {first : ParseM α} {rest : α → ParseM β} (reading : OnlyReads first)
    (following : ∀ value, Resting (rest value)) : Resting (first >>= rest) :=
  (Resting.reads reading).bind following

theorem pure (value : α) : Resting (Pure.pure value : ParseM α) :=
  .reads (.pure value)

theorem refuse (complaint : Complaint) (span : Span) :
    Resting (ParseM.refuse complaint span : ParseM α) :=
  fun state => .refl state

theorem resume (outcome : Except ParseError α) : Resting (ParseM.resume outcome) := by
  cases outcome with
  | ok value => exact .pure value
  | error error => exact fun state => .refl state

theorem attempt {parse : ParseM α} (resting : Resting parse) : Resting (ParseM.attempt parse) := by
  intro state
  refine (resting state).attempt.imp ?_
  rintro (error | value) next ⟨yields, refuses⟩
  · exact refuses error rfl
  · exact yields value rfl

theorem ite {condition : Prop} [Decidable condition] {first second : ParseM α}
    (left : Resting first) (right : Resting second) :
    Resting (if condition then first else second) := by
  split
  · exact left
  · exact right

end Resting

/-- A change of the state that creates no node and keeps the scopes. -/
theorem resting_modify {change : ParseState → ParseState}
    (cursor : ∀ state, (change state).cursor = state.cursor)
    (births : ∀ state, (change state).tree.birth? = state.tree.birth?)
    (scopes : ∀ state, (change state).scopes.frames.map ScopeFrame.node =
      state.scopes.frames.map ScopeFrame.node) : Resting (modify change) :=
  fun state => ⟨cursor state ▸ .refl _, births state, scopes state⟩

theorem resting_setTable (table : SymbolTable) : Resting (setTable table) :=
  resting_modify (fun _ => rfl) (fun _ => rfl) fun _ => rfl

theorem resting_report (error : ParseError) : Resting (report error) :=
  resting_modify (fun _ => rfl) (fun _ => rfl) fun _ => rfl

theorem resting_complain (complaint : Complaint) (span : Span) :
    Resting (complain complaint span) :=
  resting_report _

theorem resting_finishNodeAt (node : NodeId) (last : Span) : Resting (finishNodeAt node last) :=
  resting_modify (fun _ => rfl) (fun state => state.tree.birth?_finish node last) fun _ => rfl

theorem resting_finishNode (node : NodeId) : Resting (finishNode node) :=
  .behind onlyReads_previousSpan fun _ => resting_finishNodeAt node _

theorem resting_changeTable (span : Span)
    (change : SymbolTable → Except SymbolError (α × SymbolTable)) :
    Resting (changeTable span change) := by
  refine .behind onlyReads_table fun table => ?_
  split
  · exact (resting_setTable _).bind fun _ => .pure _
  · exact .refuse _ span

theorem resting_declare (request : SymbolRequest) (qualifier : Option SymbolId) (span : Span) :
    Resting (declare request qualifier span) := by
  have consume : Resting (modify fun state : ParseState =>
      { state with scopes := state.scopes.consume }) :=
    resting_modify (fun _ => rfl) (fun _ => rfl)
      fun state => (ScopeStack.remain_consume state.scopes).map_node
  refine .behind onlyReads_unit fun unit => .behind onlyReads_frame fun frame => ?_
  split
  · exact resting_changeTable span _
  · refine .behind onlyReads_table fun table => (resting_setTable _).bind fun _ => ?_
    split
    · exact consume.bind fun _ => .pure _
    · exact .refuse _ span
  · exact .refuse _ span

namespace Dates

variable {limit : Nat} {tags : Prop} {hosts : List NodeId} {known : List Footing}

theorem mono {more : Prop} {others : List NodeId} {places : List Footing} {parse : ParseM α}
    (dates : Dates limit tags hosts known parse) (fewer : more → tags) (subset : hosts ⊆ others)
    (fewerPlaces : known ⊆ places) : Dates limit more others places parse :=
  fun state dated stands =>
    (dates state dated fun footing member => stands footing (fewerPlaces member)).mono
      (fun _ _ adds => adds.mono fewer subset) fun _ adds => adds.mono fewer subset

/-- What creates nodes in order wherever it starts, and adds any declarations. -/
theorem always {parse : ParseM α} (dates : Dates limit False [] [] parse) :
    Dates limit False hosts known parse :=
  dates.mono id (List.nil_subset hosts) (List.nil_subset known)

theorem rests {parse : ParseM α} (resting : Resting parse) :
    Dates limit tags hosts known parse :=
  fun state dated _ => (resting state).mono (fun _ _ rests => rests.adds dated)
    fun _ rests => rests.adds dated

theorem reads {parse : ParseM α} (reads : OnlyReads parse) :
    Dates limit tags hosts known parse :=
  .rests (.reads reads)

theorem pure (value : α) : Dates limit tags hosts known (Pure.pure value : ParseM α) :=
  .reads (.pure value)

/-- What follows where nodes have been added, and adds others in those that were or in new ones. -/
theorem leads {others : List NodeId} {parse : ParseM α} {state next : ParseState}
    (dates : Dates limit tags others known parse) (adds : state.Adds limit tags hosts next)
    (stands : next.Stands known)
    (allowed : ∀ host ∈ others, host ∈ hosts ∨ state.tree.birth? host = none) :
    Leads parse next (fun _ => state.Adds limit tags hosts) (state.Adds limit tags hosts) :=
  (dates next adds.dated stands).mono (fun _ _ further => adds.trans further allowed)
    fun _ further => adds.trans further allowed

theorem bind {first : ParseM α} {rest : α → ParseM β} (dates : Dates limit tags hosts known first)
    (following : ∀ value, Dates limit tags hosts [] (rest value)) :
    Dates limit tags hosts known (first >>= rest) := by
  intro state dated stands
  apply (dates state dated stands).bind
  intro value next adds
  exact (following value).leads adds next.stands_nil fun _ => .inl

/-- What follows where no node has been created knows the same places. -/
theorem after {first : ParseM α} {rest : α → ParseM β} (resting : Resting first)
    (following : ∀ value, Dates limit tags hosts known (rest value)) :
    Dates limit tags hosts known (first >>= rest) := by
  intro state dated stands
  apply ((resting state).mono (fun _ _ rests => rests) fun _ rests => rests.adds dated).bind
  intro value next rests
  exact (following value).leads (rests.adds dated) (stands.rests rests dated) fun _ => .inl

theorem behind {first : ParseM α} {rest : α → ParseM β} (reading : OnlyReads first)
    (following : ∀ value, Dates limit tags hosts known (rest value)) :
    Dates limit tags hosts known (first >>= rest) :=
  after (.reads reading) following

/-- Behind what adds only classes and enums a declarator may start in front of them. -/
theorem afterTags {start : Span} {first : ParseM α} {rest : α → ParseM β}
    (here : .timely start ∈ known) (dates : Dates limit True [] [] first)
    (following : ∀ value, Dates limit False hosts [.declared start] (rest value)) :
    Dates limit False hosts known (first >>= rest) := by
  intro state dated stands
  have reached : state.Reached (fun _ => False) start := stands _ here
  have widened {next : ParseState} (adds : state.Adds limit True [] next) :
      state.Adds limit False hosts next :=
    adds.mono False.elim (List.nil_subset hosts)
  apply ((dates state dated state.stands_nil).mono (fun _ _ adds => adds)
    fun _ adds => widened adds).bind
  intro value next adds
  have standsNext : next.Stands [.declared start] :=
    ParseState.stands_cons.2 ⟨adds.declared reached, next.stands_nil⟩
  exact (following value).leads (widened adds) standsNext fun _ => .inl

theorem attempt {parse : ParseM α} (dates : Dates limit tags hosts known parse) :
    Dates limit tags hosts known (ParseM.attempt parse) := by
  intro state dated stands
  refine (dates state dated stands).attempt.imp ?_
  rintro (error | value) next ⟨yields, refuses⟩
  · exact refuses error rfl
  · exact yields value rfl

theorem loop {step : α → ParseM (Step α β)}
    (round : ∀ value, Dates limit tags hosts [] (step value)) (bound : Nat) (start : α) :
    Dates limit tags hosts known (ParseM.loop step bound start) := by
  induction bound generalizing start known with
  | zero => exact fun _ _ _ => trivial
  | succ bound ih =>
      unfold ParseM.loop
      refine ((round start).mono id (fun _ => id) (List.nil_subset known)).bind fun outcome => ?_
      cases outcome with
      | done final => exact .pure final
      | again next => exact ih next

theorem iterate {step : α → ParseM (Step α β)}
    (round : ∀ value, Dates limit tags hosts [] (step value)) (start : α) :
    Dates limit tags hosts known (ParseM.iterate step start) :=
  .behind .get fun _ => loop round _ start

theorem ite {condition : Prop} [Decidable condition] {first second : ParseM α}
    (left : Dates limit tags hosts known first) (right : Dates limit tags hosts known second) :
    Dates limit tags hosts known (if condition then first else second) := by
  split
  · exact left
  · exact right

/-- No node starts behind the token ahead. -/
theorem atToken {rest : Token → ParseM β}
    (following : ∀ token, Dates limit tags hosts (.timely token.span :: known) (rest token)) :
    Dates limit tags hosts known (peek >>= rest) := by
  intro state dated stands
  rw [leads_peek]
  exact following _ state dated (ParseState.stands_cons.2 ⟨dated.reached_peek, stands⟩)

/-- No node starts behind the token that is read. -/
theorem atRead {first : ParseM Token} {rest : Token → ParseM β} (reading : OnlyReads first)
    (reads : ∀ state : ParseState, state.cursor.Sound →
      Gives first state fun token _ => token = state.cursor.peek)
    (following : ∀ token, Dates limit tags hosts (.timely token.span :: known) (rest token)) :
    Dates limit tags hosts known (first >>= rest) := by
  intro state dated stands
  have leads := (Resting.reads reading state).and (reads state dated.sound)
  apply (leads.mono (fun _ _ both => both) fun _ both => both.1.adds dated).bind
  rintro _ next ⟨rests, rfl⟩
  have stands : next.Stands (.timely state.cursor.peek.span :: known) :=
    ParseState.stands_cons.2 ⟨dated.reached_peek.rests rests dated, stands.rests rests dated⟩
  exact (following _).leads (rests.adds dated) stands fun _ => .inl

theorem atAdvance {rest : Token → ParseM β}
    (following : ∀ token, Dates limit tags hosts (.timely token.span :: known) (rest token)) :
    Dates limit tags hosts known (advance >>= rest) := by
  refine .atRead onlyReads_advance (fun state _ => ?_) following
  rw [Gives, Leads, Meets, advance_eq]

theorem atIdentifier {rest : Token → ParseM β}
    (following : ∀ token, Dates limit tags hosts (.timely token.span :: known) (rest token)) :
    Dates limit tags hosts known (expectIdentifier >>= rest) :=
  .atRead onlyReads_expectIdentifier (fun _ sound =>
    (gives_expectIdentifier sound).imp fun _ _ given => given.1) following

/-! ### Nodes and scopes -/

theorem stands_timely {state : ParseState} {places : List Span}
    (reached : ∀ place ∈ places, state.Reached (fun _ => False) place) :
    state.Stands (places.map .timely) := by
  intro footing member
  obtain ⟨place, inside, rfl⟩ := List.mem_map.1 member
  exact reached place inside

/-- A node that is created at a place, and what follows: where nodes may start later is known as
before. -/
theorem leads_adding {state : ParseState} {except : NodeId → Prop} {parent : NodeId}
    {kind : NodeKind} {start : Span} {rest : NodeId → ParseM β} (dated : state.Dated limit)
    (reached : state.Reached except start)
    (excepted : ∀ id, except id → kind.isDeclared = true ∧ InTag state.tree.birth? parent id)
    (place : parent = state.scopes.inner.node ∧ (tags → kind.isTag = true) ∨ parent ∈ hosts)
    (later : List Span) (timely : ∀ other ∈ later,
      state.Reached (fun _ => False) other ∧ start.offset ≤ other.offset)
    (following : ∀ node, Dates limit tags (node :: hosts) (later.map .timely) (rest node)) :
    Leads (addNodeUnder parent kind start >>= rest) state
      (fun _ => state.Adds limit tags hosts) (state.Adds limit tags hosts) := by
  apply (leads_addNodeUnder_present state parent kind start).bind
  rintro node next ⟨present, same⟩
  obtain ⟨rfl, rfl⟩ := Prod.mk.inj same
  have adds : state.Adds limit tags hosts (state.addNode parent kind start).2 :=
    reached.adds dated present excepted place
  have known : ∀ host ∈ (state.addNode parent kind start).1 :: hosts,
      host ∈ hosts ∨ state.tree.birth? host = none := by
    intro host member
    rcases List.mem_cons.1 member with rfl | old
    · exact .inr state.tree.birth?_fresh
    · exact .inl old
  have stands : (state.addNode parent kind start).2.Stands (later.map .timely) :=
    stands_timely fun other member => (timely other member).1.addNode (timely other member).2
  exact (following _).leads adds stands known

/-- A node in one that may have more. -/
theorem addNodeUnder {parent : NodeId} {kind : NodeKind} {start : Span} {rest : NodeId → ParseM β}
    (host : parent ∈ hosts) (here : .timely start ∈ known) (later : List Span)
    (timely : ∀ other ∈ later, .timely other ∈ known ∧ start.offset ≤ other.offset)
    (following : ∀ node, Dates limit tags (node :: hosts) (later.map .timely) (rest node)) :
    Dates limit tags hosts known (ParseM.addNodeUnder parent kind start >>= rest) := by
  intro state dated stands
  have reached : state.Reached (fun _ => False) start := stands _ here
  exact leads_adding dated reached (fun _ never => never.elim) (.inr host) later
    (fun other member => ⟨stands _ (timely other member).1, (timely other member).2⟩) following

/-- A node in the innermost scope. -/
theorem addNode {kind : NodeKind} {start : Span} {rest : NodeId → ParseM β}
    (allowed : tags → kind.isTag = true)
    (here : .timely start ∈ known ∨ (kind.isDeclared = true ∧ .declared start ∈ known))
    (later : List Span)
    (timely : ∀ other ∈ later, .timely other ∈ known ∧ start.offset ≤ other.offset)
    (following : ∀ node, Dates limit tags (node :: hosts) (later.map .timely) (rest node)) :
    Dates limit tags hosts known (ParseM.addNode kind start >>= rest) := by
  intro state dated stands
  unfold ParseM.addNode
  simp only [bind_assoc, leads_frame]
  have others (other : Span) (member : other ∈ later) :
      state.Reached (fun _ => False) other ∧ start.offset ≤ other.offset :=
    ⟨stands _ (timely other member).1, (timely other member).2⟩
  rcases here with early | ⟨declared, behind⟩
  · have reached : state.Reached (fun _ => False) start := stands _ early
    exact leads_adding dated reached (fun _ never => never.elim) (.inl ⟨rfl, allowed⟩) later others
      following
  · have reached : state.Reached (InTag state.tree.birth? state.scopes.inner.node) start :=
      stands _ behind
    exact leads_adding dated reached (fun _ inside => ⟨declared, inside⟩) (.inl ⟨rfl, allowed⟩)
      later others following

/-- A scope with its content, and what follows it. -/
theorem scope {frame : ScopeFrame} {content : ParseM α} {rest : α → ParseM β}
    (host : frame.node ∈ hosts) (dates : Dates limit False [frame.node] [] content)
    (unrefused : Unrefused content)
    (following : ∀ value, Dates limit tags hosts [] (rest value)) :
    Dates limit tags hosts known (do
      pushScope frame
      let value ← content
      popScope
      rest value) := by
  intro state dated stands
  refine (leads_of_ok rfl).2 ?_
  have inner : (state.enter frame).Dated limit := { dated with }
  have done := (dates (state.enter frame) inner (ParseState.stands_nil _)).and
    (unrefused (state.enter frame))
  apply (done.mono (fun _ _ both => both.1) fun _ refused => refused.2.elim).bind
  intro value next inside
  have adds : state.Adds limit tags hosts next.leave :=
    (ParseState.Adds.leave inside).mono id (List.cons_subset.2 ⟨host, List.nil_subset hosts⟩)
  refine (leads_of_ok rfl).2 ?_
  exact (following value).leads adds (ParseState.stands_nil _) fun _ => .inl

end Dates

end ParseM

end DeclTree
