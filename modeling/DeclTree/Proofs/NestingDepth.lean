import DeclTree.Proofs.DeclarationCourse

/-!
# How deep a parse nests

The limit on nesting is checked before a scope is entered, and a scope is entered only for a node
directly in that of the innermost one.  So the nodes of the scopes a parse is inside are those on
the way from the innermost one out to the translation unit.  New nodes stand in the node of the
innermost scope, or directly inside one of its nodes, as parameters and enumerators do: the tree
is one level deeper than the scopes at most.
-/

namespace DeclTree

namespace Tree

def parent? (tree : Tree) (id : NodeId) : Option NodeId :=
  tree.get? id >>= Node.parent

/-- The first nodes on the way from a node outward. -/
def outward (tree : Tree) : Nat → NodeId → List NodeId
  | 0, _ => []
  | bound + 1, id =>
      match tree.parent? id with
      | none => []
      | some outer => outer :: tree.outward bound outer

/-- The nodes around a node, innermost first.  There are no more of them than nodes that were
started before it. -/
def ancestors (tree : Tree) (id : NodeId) : List NodeId :=
  tree.outward id.index id

def depth (tree : Tree) (id : NodeId) : Nat :=
  (tree.ancestors id).length

/-- Whether nodes and the nodes around them agree, and every node was started behind the one
around it. -/
structure Layered (tree : Tree) : Prop where
  family : Family tree.kin?
  earlier : ∀ id outer, tree.parent? id = some outer → outer.index < id.index

variable {tree later : Tree}

theorem parent?_eq_kin (tree : Tree) (id : NodeId) :
    tree.parent? id = tree.kin? id >>= Kin.parent := by
  unfold parent? kin?
  cases tree.get? id <;> rfl

theorem layered_empty (unit : UnitId) : (empty unit).Layered := by
  refine ⟨family_empty unit, ?_⟩
  rintro ⟨_ | index⟩ outer around <;> simp [parent?, get?, empty] at around

/-- A tree in which every node stands where it stood. -/
theorem Layered.congr (layered : tree.Layered) (same : later.kin? = tree.kin?) :
    later.Layered := by
  refine ⟨same ▸ layered.family, ?_⟩
  intro id outer around
  rw [parent?_eq_kin, same, ← parent?_eq_kin] at around
  exact layered.earlier id outer around

theorem parent?_add (tree : Tree) (kind : NodeKind) {parent : NodeId} (present : tree.Has parent)
    (start : Span) (id : NodeId) : (tree.add kind parent start).2.parent? id =
      if id = ⟨tree.size⟩ then some parent else tree.parent? id := by
  rw [parent?_eq_kin, kin?_add tree kind present start, parent?_eq_kin]
  by_cases new : id = ⟨tree.size⟩
  · simp [new]
  · cases known : tree.kin? id with
    | none => simp [new, known]
    | some kin => simp [new, known, Kin.parent_adopt]

theorem Layered.add (layered : tree.Layered) (kind : NodeKind) {parent : NodeId}
    (present : tree.Has parent) (start : Span) : (tree.add kind parent start).2.Layered := by
  refine ⟨family_add layered.family kind present start, ?_⟩
  intro id outer around
  rw [parent?_add tree kind present] at around
  split at around
  · rename_i new
    obtain rfl := Option.some.inj around
    rw [new]
    exact present
  · exact layered.earlier id outer around

/-- A node is around those that stand directly in it. -/
theorem Layered.parent?_of_mem (layered : tree.Layered) {outer inner : NodeId}
    (inside : inner ∈ tree.children outer) : tree.parent? inner = some outer := by
  unfold children at inside
  cases found : tree.get? outer with
  | none => simp [found] at inside
  | some node =>
      have known : tree.kin? outer = some ⟨node.parent, node.children⟩ := by simp [kin?, found]
      obtain ⟨kin, there, belongs⟩ :=
        layered.family.children outer _ known inner (by simpa [found] using inside)
      rw [parent?_eq_kin, there]
      exact belongs

theorem Layered.mem_of_parent? (layered : tree.Layered) {outer inner : NodeId}
    (around : tree.parent? inner = some outer) : inner ∈ tree.children outer := by
  have behind := layered.earlier inner outer around
  have inside : inner ≠ root := by
    rintro rfl
    exact Nat.not_lt_zero _ behind
  rw [parent?_eq_kin] at around
  obtain ⟨kin, there, belongs⟩ := Option.bind_eq_some_iff.1 around
  obtain ⟨parent, place, same, found, member⟩ := layered.family.parent inner kin there inside
  obtain rfl := Option.some.inj (same.symm.trans belongs)
  obtain ⟨node, known, rfl⟩ := Option.map_eq_some_iff.1 found
  simpa [children, known] using member

/-! ## The nodes around a node -/

/-- Behind as many nodes as were started before a node, the way outward is at its end. -/
theorem Layered.outward_succ (layered : tree.Layered) {bound : Nat} {id : NodeId}
    (far : id.index ≤ bound) : tree.outward (bound + 1) id = tree.outward bound id := by
  induction bound generalizing id with
  | zero =>
      have outermost : tree.parent? id = none := by
        apply Option.eq_none_iff_forall_ne_some.2
        intro outer around
        have behind := layered.earlier id outer around
        omega
      simp [outward, outermost]
  | succ bound ih =>
      rw [outward, outward]
      split
      · rfl
      · rename_i outer around
        have behind := layered.earlier id outer around
        rw [ih (by omega)]

theorem Layered.outward_eq (layered : tree.Layered) {bound : Nat} {id : NodeId}
    (far : id.index ≤ bound) : tree.outward bound id = tree.ancestors id := by
  induction bound, far using Nat.le_induction with
  | base => rfl
  | succ bound far ih => rw [layered.outward_succ far, ih]

/-- The nodes around a node are the one directly around it and those around that one. -/
theorem Layered.ancestors_eq (layered : tree.Layered) {id outer : NodeId}
    (around : tree.parent? id = some outer) :
    tree.ancestors id = outer :: tree.ancestors outer := by
  have behind := layered.earlier id outer around
  obtain ⟨bound, index⟩ : ∃ bound, id.index = bound + 1 := ⟨id.index - 1, by omega⟩
  unfold ancestors
  rw [index, outward, around]
  exact congrArg _ (layered.outward_eq (by omega))

theorem Layered.ancestors_of_mem (layered : tree.Layered) {outer inner : NodeId}
    (inside : inner ∈ tree.children outer) :
    tree.ancestors inner = outer :: tree.ancestors outer :=
  layered.ancestors_eq (layered.parent?_of_mem inside)

/-- A node around another one is directly around it, or around the one that is. -/
theorem Layered.ancestors_cons (layered : tree.Layered) {id outer : NodeId} {rest : List NodeId}
    (way : tree.ancestors id = outer :: rest) :
    id ∈ tree.children outer ∧ tree.ancestors outer = rest := by
  cases around : tree.parent? id with
  | none =>
      unfold ancestors at way
      cases index : id.index with
      | zero => simp [index, outward] at way
      | succ bound => simp [index, outward, around] at way
  | some parent =>
      rw [layered.ancestors_eq around] at way
      obtain ⟨rfl, rfl⟩ := List.cons.inj way
      exact ⟨layered.mem_of_parent? around, rfl⟩

theorem ancestors_congr (same : later.kin? = tree.kin?) (id : NodeId) :
    later.ancestors id = tree.ancestors id := by
  have outward (bound : Nat) (id : NodeId) : later.outward bound id = tree.outward bound id := by
    induction bound generalizing id with
    | zero => rfl
    | succ bound ih =>
        simp only [Tree.outward, parent?_eq_kin, same]
        split
        · rfl
        · rw [ih]
  exact outward id.index id

/-- A new node leaves those around the old ones as they were. -/
theorem Layered.ancestors_add (layered : tree.Layered) (kind : NodeKind) {parent : NodeId}
    (present : tree.Has parent) (start : Span) {id : NodeId} (old : tree.Has id) :
    (tree.add kind parent start).2.ancestors id = tree.ancestors id := by
  have outward (bound : Nat) (id : NodeId) (old : tree.Has id) :
      (tree.add kind parent start).2.outward bound id = tree.outward bound id := by
    induction bound generalizing id with
    | zero => rfl
    | succ bound ih =>
        have other : id ≠ ⟨tree.size⟩ := by
          rintro rfl
          exact Nat.lt_irrefl _ old
        simp only [Tree.outward, parent?_add tree kind present, if_neg other]
        split
        · rfl
        · rename_i outer around
          have behind := layered.earlier id outer around
          rw [ih outer (Nat.lt_trans behind old)]
  exact outward id.index id old

/-- Around a new node are the one it stands in and those around that one. -/
theorem Layered.ancestors_add_new (layered : tree.Layered) (kind : NodeKind) {parent : NodeId}
    (present : tree.Has parent) (start : Span) :
    (tree.add kind parent start).2.ancestors ⟨tree.size⟩ = parent :: tree.ancestors parent := by
  have inside : (⟨tree.size⟩ : NodeId) ∈ (tree.add kind parent start).2.children parent :=
    (tree.mem_children_add kind present start).2 (.inr ⟨rfl, rfl⟩)
  rw [(layered.add kind present start).ancestors_of_mem inside,
    layered.ancestors_add kind present start present]

theorem kin?_finish (tree : Tree) (id : NodeId) (last : Span) :
    (tree.finish id last).kin? = tree.kin? := by
  apply kin?_update
  all_goals
    intro node
    split <;> rfl

theorem kin?_updateTemplate (tree : Tree) (id : NodeId) (change : TemplateDecl → TemplateDecl) :
    (tree.updateTemplate id change).kin? = tree.kin? := by
  apply kin?_update
  all_goals
    intro node
    split <;> rfl

theorem kin?_finishRoot (tree : Tree) (offset line : Nat) :
    (tree.finishRoot offset line).kin? = tree.kin? :=
  kin?_update tree root (fun _ => rfl) fun _ => rfl

end Tree

namespace ParseState

variable {state next : ParseState}

/-- What holds at every point of a course: the nodes of the scopes are those from the innermost
one outward, there are no more of them than allowed, and no node is more than one level deeper
than they may be. -/
structure Stacked (state : ParseState) : Prop where
  layered : state.tree.Layered
  present : state.tree.Has state.scopes.inner.node
  nodes : state.scopes.frames.map ScopeFrame.node =
    state.scopes.inner.node :: state.tree.ancestors state.scopes.inner.node
  depth : state.scopes.depth ≤ max 1 state.depthLimit
  deepest : ∀ id, state.tree.Has id → state.tree.depth id ≤ max 1 state.depthLimit + 1

/-- The scopes stand around the innermost one. -/
theorem Stacked.depth_inner (stacked : state.Stacked) :
    state.tree.depth state.scopes.inner.node + 1 = state.scopes.depth := by
  have count := congrArg List.length stacked.nodes
  simpa [Tree.depth, ScopeStack.depth, ScopeStack.frames] using count.symm

/-- A node that takes in new ones is no deeper than there are scopes. -/
theorem Stacked.depth_near (stacked : state.Stacked) {node : NodeId} (near : state.Near node) :
    state.tree.depth node ≤ state.scopes.depth := by
  have inner := stacked.depth_inner
  rcases near with rfl | inside
  · omega
  · rw [Tree.depth, stacked.layered.ancestors_of_mem inside, List.length_cons]
    exact Nat.le_of_eq inner

/-- A change of the tree that leaves every node where it stands. -/
theorem Stacked.congr (stacked : state.Stacked) {tree : Tree}
    (kin : tree.kin? = state.tree.kin?) (size : tree.size = state.tree.size) :
    Stacked { state with tree := tree } where
  layered := stacked.layered.congr kin
  present := by
    unfold Tree.Has
    rw [size]
    exact stacked.present
  nodes := by
    rw [Tree.ancestors_congr kin]
    exact stacked.nodes
  depth := stacked.depth
  deepest id present := by
    unfold Tree.Has at present
    rw [size] at present
    unfold Tree.depth
    rw [Tree.ancestors_congr kin]
    exact stacked.deepest id present

theorem Stacked.addNode (stacked : state.Stacked) {parent : NodeId}
    (present : state.tree.Has parent) (near : state.Near parent) (kind : NodeKind)
    (start : Span) : (state.addNode parent kind start).2.Stacked where
  layered := stacked.layered.add kind present start
  present := stacked.present.mono (by simp [size_addNode])
  nodes := by
    have same := stacked.layered.ancestors_add kind present start stacked.present
    exact stacked.nodes.trans (congrArg _ same.symm)
  depth := stacked.depth
  deepest id there := by
    by_cases new : id = ⟨state.tree.size⟩
    · subst new
      -- The new node is one level deeper than the node it stands in.
      have around := stacked.depth_near near
      have within := stacked.depth
      have way := stacked.layered.ancestors_add_new kind present start
      change ((state.tree.add kind parent start).2.ancestors ⟨state.tree.size⟩).length ≤
        max 1 state.depthLimit + 1
      rw [way, List.length_cons]
      exact Nat.succ_le_succ (around.trans within)
    · have old : state.tree.Has id := by
        have within : id.index < state.tree.size + 1 := by
          simpa [Tree.Has, size_addNode] using there
        have other : id.index ≠ state.tree.size := fun same => new (congrArg NodeId.mk same)
        exact Nat.lt_of_le_of_ne (Nat.le_of_lt_succ within) other
      have same := stacked.layered.ancestors_add kind present start old
      exact (congrArg List.length same).trans_le (stacked.deepest id old)

/-- A scope is entered for a node in that of the innermost one, if there is room. -/
theorem Stacked.enter (stacked : state.Stacked) {frame : ScopeFrame}
    (room : state.scopes.depth < state.depthLimit)
    (inside : frame.node ∈ state.tree.children state.scopes.inner.node)
    (present : state.tree.Has frame.node) : (state.enter frame).Stacked where
  layered := stacked.layered
  present := present
  nodes := by
    change frame.node :: state.scopes.frames.map ScopeFrame.node =
      frame.node :: state.tree.ancestors frame.node
    rw [stacked.nodes, stacked.layered.ancestors_of_mem inside]
  depth := by
    have more : (state.enter frame).scopes.depth = state.scopes.depth + 1 := rfl
    have same : (state.enter frame).depthLimit = state.depthLimit := rfl
    omega
  deepest := stacked.deepest

theorem Stacked.leave (stacked : state.Stacked) (inside : state.scopes.outer ≠ []) :
    state.leave.Stacked := by
  obtain ⟨frame, outer, around⟩ := List.exists_cons_of_ne_nil inside
  have left : state.leave.scopes = ⟨frame, outer⟩ := by
    simp [ParseState.leave, ScopeStack.pop, around]
  have way : state.tree.ancestors state.scopes.inner.node =
      frame.node :: outer.map ScopeFrame.node := by
    have nodes := stacked.nodes
    simp only [ScopeStack.frames, around, List.map_cons] at nodes
    exact (List.cons.inj nodes).2.symm
  obtain ⟨held, rest⟩ := stacked.layered.ancestors_cons way
  refine ⟨stacked.layered, ?_, ?_, ?_, stacked.deepest⟩
  · rw [left]
    exact state.tree.has_of_mem_children held
  · rw [left]
    exact congrArg _ rest.symm
  · have fewer : state.leave.scopes.depth ≤ state.scopes.depth := by
      simp [left, ScopeStack.depth, around]
    exact fewer.trans stacked.depth

theorem Stacked.consume (stacked : state.Stacked) :
    Stacked { state with scopes := state.scopes.consume } := by
  have same : state.scopes.consume.inner.node = state.scopes.inner.node := by
    unfold ScopeStack.consume
    split <;> rfl
  have nodes : state.scopes.consume.frames.map ScopeFrame.node =
      state.scopes.frames.map ScopeFrame.node := by
    rw [ScopeStack.frames_consume, map_node_consumeFrames]
  refine ⟨stacked.layered, ?_, ?_, ?_, stacked.deepest⟩
  · exact same ▸ stacked.present
  · exact nodes.trans (same ▸ stacked.nodes)
  · have count := congrArg List.length nodes
    simp only [List.length_map] at count
    exact count.trans_le stacked.depth

/-- A turn keeps the scopes in place and the tree flat enough. -/
theorem Turn.stacked (turn : state.Turn next) (stacked : state.Stacked) : next.Stacked := by
  cases turn with
  | read | report | change => exact { stacked with }
  | consume => exact stacked.consume
  | start start present near => exact stacked.addNode present near _ start
  | amend =>
      exact stacked.congr (Tree.kin?_updateTemplate _ _ _) (Tree.size_update _ _ _)
  | finish node last =>
      exact stacked.congr (Tree.kin?_finish _ node last) (Tree.size_update _ _ _)
  | enter room inside scope =>
      obtain ⟨kind, found, _⟩ := Option.bind_eq_some_iff.1 scope
      exact stacked.enter room inside (state.tree.has_of_kindAt found)
  | leave inside => exact stacked.leave inside

theorem Course.stacked (course : state.Course next) (stacked : state.Stacked) :
    next.Stacked := by
  induction course with
  | refl => exact stacked
  | tail _ turn ih => exact turn.stacked ih

theorem stacked_start (options : ParseOptions) (table : SymbolTable) (unit : UnitId)
    (source : String) : (start options table unit source).Stacked where
  layered := Tree.layered_empty unit
  present := Nat.one_pos
  nodes := rfl
  depth := Nat.le_max_left _ _
  deepest id present := by
    have first : id.index < 1 := present
    have shallow : (start options table unit source).tree.depth id = 0 := by
      unfold Tree.depth Tree.ancestors
      rw [Nat.lt_one_iff.1 first]
      rfl
    omega

/-- The node of every scope but the outermost stands directly in that of the scope around it. -/
theorem Stacked.isChain (stacked : state.Stacked) :
    state.scopes.frames.IsChain fun inner outer =>
      inner.node ∈ state.tree.children outer.node := by
  have way := (List.cons.inj stacked.nodes).2
  unfold ScopeStack.frames
  generalize state.scopes.inner = inner at way
  generalize state.scopes.outer = outer at way
  induction outer generalizing inner with
  | nil => exact .singleton _
  | cons frame rest ih =>
      obtain ⟨held, further⟩ := stacked.layered.ancestors_cons way.symm
      exact List.isChain_cons_cons.2 ⟨held, ih frame further.symm⟩

end ParseState

/-- How deep a parse nests.  Every rule of the grammar takes one turn after the other; on the
course of turns from the start there is always a scope and never more than the limit allows, and
every scope but the outermost is that of a node directly in the node of the scope around it.  The
parse ends on its course in the scope of the translation unit alone.  In the tree the translation
unit has depth 0, a node directly in another one is one level deeper, and no node is deeper than
one level below the scopes. -/
structure NestsWithin (limit : Nat) (start : ParseState) (tree : Tree) : Prop where
  rules : ∀ depth, (Rules.ofDepth depth).Steer
  scopes : ∀ state, start.Course state →
    1 ≤ state.scopes.depth ∧ state.scopes.depth ≤ max 1 limit ∧
      state.scopes.frames.IsChain fun inner outer => inner.node ∈ state.tree.children outer.node
  finish : start.Course start.finish ∧ start.finish.scopes = ParseState.startScopes
  root : tree.depth Tree.root = 0
  children : ∀ outer inner, inner ∈ tree.children outer → tree.depth inner = tree.depth outer + 1
  deepest : ∀ id, tree.Has id → tree.depth id ≤ max 1 limit + 1

/-- The limit on nesting bounds the scopes of every parse at every point, and with them its
tree. -/
theorem nesting_bounded (options : ParseOptions) {table : SymbolTable}
    (reached : table.Reachable) (unit : UnitId) (source : String) :
    NestsWithin options.maxNestingDepth (ParseState.start options table unit source)
      (parseUnit options table unit source).tree := by
  obtain ⟨final, finished⟩ := ParseState.exists_finished options reached unit source
  have course := (finished.reaches reached).course
  have stacked {state : ParseState}
      (course : (ParseState.start options table unit source).Course state) : state.Stacked :=
    course.stacked (ParseState.stacked_start options table unit source)
  have parsed : (parseUnit options table unit source).tree =
      final.tree.finishRoot final.cursor.peek.span.offset final.cursor.peek.span.line := by
    simp only [parseUnit, ParseState.parsed, ParseState.finish_eq finished]
  have whole : ParseState.Stacked
      { final with tree := (parseUnit options table unit source).tree } := by
    rw [parsed]
    exact (stacked course).congr (Tree.kin?_finishRoot _ _ _) (Tree.size_update _ _ _)
  have limit : final.depthLimit = options.maxNestingDepth := course.depthLimit
  refine ⟨ParseM.steer_ofDepth, ?_, ?_, rfl, ?_, ?_⟩
  · intro state path
    refine ⟨Nat.le_add_left _ _, ?_, (stacked path).isChain⟩
    have bounded := (stacked path).depth
    rwa [path.depthLimit] at bounded
  · rw [ParseState.finish_eq finished]
    exact ⟨course, finished.scopes⟩
  · intro outer inner inside
    exact congrArg List.length (whole.layered.ancestors_of_mem inside)
  · intro id present
    rw [← limit]
    exact whole.deepest id present

/-- A second unit with no room for a scope besides its own, read with the table of a first one.
Its parameter stands as deep as a node may. -/
theorem nesting_bounded_second_unit :
    let table := (parseSource "namespace a { struct B { enum C { d }; }; }").table
    let options : ParseOptions := { maxNestingDepth := 0 }
    let source := "void f(int x); namespace a {}"
    table.Reachable ∧ (parseUnit options table ⟨1⟩ source).tree.depth ⟨2⟩ = 2 ∧
      NestsWithin 0 (ParseState.start options table ⟨1⟩ source)
        (parseUnit options table ⟨1⟩ source).tree := by
  intro table options source
  have reached : table.Reachable := reachable_parseUnit {} .empty ⟨0⟩ _
  exact ⟨reached, by decide +kernel, nesting_bounded options reached ⟨1⟩ source⟩

end DeclTree
