import DeclTree.Outline
import DeclTree.Proofs.CountedUnits
import DeclTree.Proofs.Overrun
import DeclTree.Proofs.TreeOrder
import Mathlib.Data.List.Forall2

/-!
# The shape of an outline

The outline of a parsed unit is its tree without the translation unit and the parameters, where a
template with one declaration in it is folded into that declaration.  The builder sees the tree as
a row of events and keeps a stack; behind the events of a node it has gained the entry of that node
in the innermost open entry, and nothing further out has changed.
-/

namespace DeclTree

namespace NodeKind

def isParameter : NodeKind → Bool
  | .parameter _ | .templateParameter _ => true
  | _ => false

/-- What the entry of a node is, where nodes of this kind have one. -/
def outlineKind? : NodeKind → Option OutlineKind
  | .translationUnit .. | .parameter _ | .templateParameter _ => none
  | .namespaceScope _ => some .namespaceScope
  | .linkage _ => some .linkage
  | .classType declaration => some (.classType declaration.key)
  | .enumType _ => some .enumType
  | .enumerator _ => some .enumerator
  | .function _ => some .function
  | .var _ => some .var
  | .typedef _ => some .typedef
  | .usingDirective _ => some .usingDirective
  | .template _ => some .template

/-- What stands in another node is a parameter or has a kind of entry. -/
theorem outlineKind?_of_fitsIn {inner outer : NodeKind} (fits : inner.fitsIn outer = true) :
    inner.isParameter = true ∨ ∃ kind, inner.outlineKind? = some kind := by
  cases inner with
  | translationUnit => cases fits
  | parameter => exact .inl rfl
  | templateParameter => exact .inl rfl
  | _ => exact .inr ⟨_, rfl⟩

theorem outlineKind?_of_isScope {kind : NodeKind} (scope : kind.isScope = true)
    (inner : kind.isParameter = true ∨ ∃ sort, kind.outlineKind? = some sort) :
    ∃ sort, kind.outlineKind? = some sort := by
  rcases inner with parameter | known
  · cases kind <;> first | cases parameter; done | cases scope
  · exact known

theorem not_isParameter {kind : NodeKind} {sort : OutlineKind}
    (known : kind.outlineKind? = some sort) : kind.isParameter = false := by
  cases kind <;> first | rfl | cases known

end NodeKind

namespace Tree

def isParameter (tree : Tree) (id : NodeId) : Bool :=
  (tree.kindAt id).any NodeKind.isParameter

/-- The nodes in a node that are no parameters, in order. -/
def members (tree : Tree) (id : NodeId) : List NodeId :=
  (tree.children id).filter fun child => !tree.isParameter child

/-- Whether a node is a template with one node in it, apart from its parameters. -/
def folds (tree : Tree) (id : NodeId) : Bool :=
  (tree.kindAt id).any (fun kind => kind.templateDecl?.isSome) && (tree.members id).length == 1

def hasEntry (tree : Tree) (id : NodeId) : Bool :=
  (tree.kindAt id).any (fun kind => kind.outlineKind?.isSome) && !tree.folds id

/-- Whether a template is folded into the one node in it. -/
def FoldsInto (tree : Tree) (outer inner : NodeId) : Prop :=
  tree.folds outer = true ∧ inner ∈ tree.members outer

/-- Those of some nodes that are no parameters, each behind itself as the node whose bytes are to
be covered. -/
def slots (tree : Tree) (ids : List NodeId) : List (NodeId × NodeId) :=
  (ids.filter fun id => !tree.isParameter id).map fun id => (id, id)

/-- Whether the first node is the outermost template folded into the second, or the second node
itself if there is none. -/
def Outermost (tree : Tree) (outer inner : NodeId) : Prop :=
  Relation.ReflTransGen tree.FoldsInto outer inner ∧ ∀ further, ¬tree.FoldsInto further outer

/-- Whether an entry is that of a node: it is of the node's kind, and covers the bytes of the
node or of the outermost template folded into it. -/
def Describes (tree : Tree) (id : NodeId) (entry : OutlineEntry) : Prop :=
  ∃ node cover around, tree.get? id = some node ∧ node.kind.outlineKind? = some entry.kind ∧
    tree.Outermost cover id ∧ tree.get? cover = some around ∧
      entry.start = around.range.startOffset ∧ entry.length = around.range.length

end Tree

/-- The entries of some nodes in order.  Each node comes behind the node whose bytes its entry
covers: the outermost template folded into it, or itself. -/
inductive Outlined (tree : Tree) : List (NodeId × NodeId) → List OutlineEntry → Prop
  | nothing : Outlined tree [] []
  | folded {cover id inner : NodeId} {rest : List (NodeId × NodeId)}
      {entries : List OutlineEntry} (folds : tree.FoldsInto id inner)
      (more : Outlined tree ((cover, inner) :: rest) entries) :
      Outlined tree ((cover, id) :: rest) entries
  | entry {cover id : NodeId} {around node : Node} {rest : List (NodeId × NodeId)}
      {label : String} {kind : OutlineKind} {detail : Option String}
      {children entries : List OutlineEntry} (covers : tree.get? cover = some around)
      (found : tree.get? id = some node) (sort : node.kind.outlineKind? = some kind)
      (apart : tree.folds id = false)
      (inside : Outlined tree (tree.slots (tree.children id)) children)
      (more : Outlined tree rest entries) :
      Outlined tree ((cover, id) :: rest)
        (.mk label kind detail around.range.startOffset around.range.length children :: entries)

namespace OutlineEntry

mutual

def all : OutlineEntry → List OutlineEntry
  | mk label kind detail start length children =>
      mk label kind detail start length children :: allOf children

/-- Some entries and the entries inside them, in order. -/
def allOf : List OutlineEntry → List OutlineEntry
  | [] => []
  | entry :: rest => entry.all ++ allOf rest

end

/-- Whether an entry covers no byte that another one does not. -/
def Within (inner outer : OutlineEntry) : Prop :=
  outer.start ≤ inner.start ∧ inner.start + inner.length ≤ outer.start + outer.length

instance (inner outer : OutlineEntry) : Decidable (inner.Within outer) :=
  inferInstanceAs (Decidable (_ ∧ _))

end OutlineEntry

/-- How an outline goes with a tree: its entries are those of the nodes in the translation unit,
each with the entries of the nodes in it; of all nodes in document order those that have an entry
have just one, in that order; and no entry goes beyond the one around it. -/
structure Tree.OutlinedBy (tree : Tree) (entries : List OutlineEntry) : Prop where
  shape : Outlined tree (tree.slots (tree.children root)) entries
  complete : (tree.listing [root]).Perm tree.ids
  listed : List.Forall₂ tree.Describes ((tree.listing [root]).filter tree.hasEntry)
    (OutlineEntry.allOf entries)
  nested : ∀ entry ∈ OutlineEntry.allOf entries, ∀ child ∈ entry.children, child.Within entry

/-! ## Building -/

/-- What an open entry is, and the bytes it covers. -/
def OpenEntry.face (entry : OpenEntry) : OutlineKind × Nat × Nat :=
  (entry.kind, entry.start, entry.length)

namespace OutlineBuilder

/-- Whether a builder has gained some entries where it gathers them: at the top, or in its
innermost open entry, of which only the texts of parameters may have changed otherwise. -/
inductive Gains (before after : OutlineBuilder) (entries : List OutlineEntry) : Prop
  | top (bottom : before.stack = []) (bottomAfter : after.stack = [])
      (roots : after.roots = before.roots ++ entries)
  | inside {entry filled : OpenEntry} {outer : List OpenEntry}
      (shown : before.stack = entry :: outer) (shownAfter : after.stack = filled :: outer)
      (roots : after.roots = before.roots) (face : filled.face = entry.face)
      (children : filled.children = entry.children ++ entries)

variable {before middle after : OutlineBuilder} {first second : List OutlineEntry}

theorem gains_nothing (builder : OutlineBuilder) : builder.Gains builder [] := by
  cases shown : builder.stack with
  | nil => exact .top shown shown (by simp)
  | cons entry outer => exact .inside shown shown rfl rfl (by simp)

theorem Gains.trans (left : before.Gains middle first) (right : middle.Gains after second) :
    before.Gains after (first ++ second) := by
  cases left with
  | top bottom bottomMiddle roots =>
      cases right with
      | top _ bottomAfter rootsAfter =>
          exact .top bottom bottomAfter (by rw [rootsAfter, roots, List.append_assoc])
      | inside shown => cases bottomMiddle.symm.trans shown
  | inside shown shownMiddle roots face children =>
      cases right with
      | top bottom => cases shownMiddle.symm.trans bottom
      | inside again shownAfter rootsAfter faceAfter childrenAfter =>
          cases shownMiddle.symm.trans again
          exact .inside shown shownAfter (rootsAfter.trans roots) (faceAfter.trans face)
            (by rw [childrenAfter, children, List.append_assoc])

theorem gains_attach (builder : OutlineBuilder) (entry : OutlineEntry) :
    builder.Gains (builder.attach entry) [entry] := by
  cases shown : builder.stack with
  | nil => exact .top shown (by simp [attach, shown]) (by simp [attach, shown])
  | cons parent outer =>
      have attached : builder.attach entry = { builder with
          stack := { parent with children := parent.children ++ [entry] } :: outer } := by
        rw [attach, shown]
      rw [attached]
      exact .inside shown rfl rfl rfl rfl

/-- A builder that gathers in an open entry still does behind what it has gained. -/
theorem Gains.stack_ne_nil (gains : before.Gains after first) (inside : before.stack ≠ []) :
    after.stack ≠ [] := by
  cases gains with
  | top bottom => exact absurd bottom inside
  | inside _ shownAfter => simp [shownAfter]

/-- What is gained behind an entry was opened stands in that entry, and all else is as it was. -/
theorem Gains.of_push {builder : OutlineBuilder} {entry : OpenEntry}
    (gains : (builder.push entry).Gains after first) : ∃ filled : OpenEntry,
      after = builder.push filled ∧ filled.face = entry.face ∧
        filled.children = entry.children ++ first := by
  cases gains with
  | top bottom => cases bottom
  | @inside _ filled _ shown shownAfter roots face children =>
      cases shown
      refine ⟨filled, ?_, face, children⟩
      cases after
      exact congrArg₂ OutlineBuilder.mk shownAfter roots

/-! Every node that is shown to the builder finds it ready. -/

variable (builder : OutlineBuilder) {node : Node}

theorem exists_enter {kind : OutlineKind} (scope : node.kind.isScope = true)
    (sort : node.kind.outlineKind? = some kind) : ∃ entry : OpenEntry,
      builder.enter node = (none, builder.push entry) ∧
        entry.face = (kind, node.range.startOffset, node.range.length) ∧ entry.children = [] := by
  unfold enter
  cases shown : node.kind <;> simp only [shown, NodeKind.isScope, NodeKind.outlineKind?,
    Option.some.injEq, reduceCtorEq] at scope sort
  all_goals exact ⟨_, rfl, by rw [← sort]; rfl, rfl⟩

theorem exists_accept {kind : OutlineKind} (plain : node.kind.isScope = false)
    (sort : node.kind.outlineKind? = some kind) : ∃ label detail,
      builder.accept node = (none, builder.attach
        (.mk label kind detail node.range.startOffset node.range.length [])) := by
  unfold accept
  cases shown : node.kind <;> simp only [shown, NodeKind.isScope, NodeKind.outlineKind?,
    Option.some.injEq, reduceCtorEq] at plain sort
  all_goals exact ⟨_, _, by rw [← sort]; rfl⟩

theorem gains_noted {top : OpenEntry} {outer : List OpenEntry}
    (shown : builder.stack = top :: outer) (parameters : Option (List String))
    (arguments : List String) :
    builder.Gains { builder with
      stack := { top with parameters := parameters, arguments := arguments } :: outer } [] :=
  .inside shown rfl rfl rfl (by simp)

/-- A parameter is noted in the innermost open entry. -/
theorem exists_accept_parameter (parameter : node.kind.isParameter = true)
    (inside : builder.stack ≠ []) : ∃ after,
      builder.accept node = (none, after) ∧ builder.Gains after [] := by
  obtain ⟨top, outer, shown⟩ := List.exists_cons_of_ne_nil inside
  unfold accept
  cases kind : node.kind with
  | parameter declaration =>
      simp only [addParameter, shown]
      exact ⟨_, rfl, builder.gains_noted shown _ top.arguments⟩
  | templateParameter declaration =>
      simp only [addArgument, shown]
      exact ⟨_, rfl, builder.gains_noted shown top.parameters _⟩
  | _ => simp [kind, NodeKind.isParameter] at parameter

/-- A template with one entry in it becomes that entry. -/
theorem exit_folded {declaration : TemplateDecl} (template : node.kind = .template declaration)
    {filled : OpenEntry} {owned : OutlineEntry} (only : filled.children = [owned]) :
    (builder.push filled).exit node =
      (none, builder.attach (owned.moveTo filled.start filled.length)) := by
  simp [exit, template, closeTemplate, push, only]

/-- Any other scope becomes the entry that was opened for it. -/
theorem exit_kept {kind : OutlineKind} (sort : node.kind.outlineKind? = some kind)
    {filled : OpenEntry}
    (apart : node.kind.templateDecl?.isSome = true → filled.children.length ≠ 1) :
    (builder.push filled).exit node = (none, builder.attach filled.finish) := by
  unfold exit
  cases shown : node.kind with
  | translationUnit => simp [shown, NodeKind.outlineKind?] at sort
  | template declaration =>
      have several : filled.children.length ≠ 1 := apart (by simp [shown, NodeKind.templateDecl?])
      simp only [closeTemplate, push]
      split
      · rename_i only
        simp [only] at several
      · rfl
  | _ => rfl

end OutlineBuilder

/-! ## The walk -/

namespace Outlined

variable {tree : Tree}

theorem append {slots more : List (NodeId × NodeId)} {entries further : List OutlineEntry}
    (outlined : Outlined tree slots entries) (outlinedMore : Outlined tree more further) :
    Outlined tree (slots ++ more) (entries ++ further) := by
  induction outlined with
  | nothing => exact outlinedMore
  | folded folds _ inductionHypothesis => exact .folded folds inductionHypothesis
  | entry covers found sort apart inside _ _ inductionHypothesis =>
      exact .entry covers found sort apart inside inductionHypothesis

theorem length_eq {slots : List (NodeId × NodeId)} {entries : List OutlineEntry}
    (outlined : Outlined tree slots entries) : slots.length = entries.length := by
  induction outlined with
  | nothing => rfl
  | folded _ _ inductionHypothesis => exact inductionHypothesis
  | entry _ _ _ _ _ _ _ inductionHypothesis => exact congrArg (· + 1) inductionHypothesis

/-- The entry of a node moves to the bytes of a template around it. -/
theorem moveTo {cover outer id : NodeId} {around : Node} {entry : OutlineEntry}
    (outlined : Outlined tree [(cover, id)] [entry]) (found : tree.get? outer = some around) :
    Outlined tree [(outer, id)]
      [entry.moveTo around.range.startOffset around.range.length] := by
  generalize single : [(cover, id)] = slots at outlined
  generalize only : [entry] = entries at outlined
  induction outlined generalizing id with
  | nothing => cases single
  | folded folds _ inductionHypothesis =>
      cases single
      exact .folded folds (inductionHypothesis rfl only)
  | entry _ foundHere sort apart inside more _ _ =>
      cases single
      cases only
      exact .entry found foundHere sort apart inside more

end Outlined

namespace Tree

variable {tree : Tree} {id : NodeId} {node : Node}

theorem slots_singleton {kind : OutlineKind} (found : tree.get? id = some node)
    (sort : node.kind.outlineKind? = some kind) : tree.slots [id] = [(id, id)] := by
  simp [slots, isParameter, kindAt, found, NodeKind.not_isParameter sort]

/-- A node that is folded is a template with one node to be folded into. -/
theorem exists_of_folds (found : tree.get? id = some node) (folds : tree.folds id = true) :
    (∃ declaration, node.kind = .template declaration) ∧ ∃ inner, tree.members id = [inner] := by
  simp only [Tree.folds, Tree.kindAt, found, Option.map_some, Option.any_some,
    Bool.and_eq_true, beq_iff_eq] at folds
  refine ⟨?_, List.length_eq_one_iff.1 folds.2⟩
  cases kind : node.kind <;> simp [kind, NodeKind.templateDecl?] at folds ⊢

theorem slots_children (tree : Tree) (id : NodeId) :
    tree.slots (tree.children id) = (tree.members id).map fun member => (member, member) :=
  rfl

end Tree

namespace Walk

variable {tree : Tree} {before after : Walk OutlineBuilder} {id : NodeId} {node : Node}

/-- Whether a walk of the builder over some nodes has gained their entries without a failure. -/
def Outlines (tree : Tree) (ids : List NodeId) (before after : Walk OutlineBuilder) : Prop :=
  after.report.diagnostics = before.report.diagnostics ∧ ∃ entries,
    Outlined tree (tree.slots ids) entries ∧ before.state.Gains after.state entries

theorem deliver_none {event : VisitEvent} {builder : OutlineBuilder}
    (applies : event.applies node.kind = true)
    (answer : OutlineBuilder.visitor.visit event id node before.state = (none, builder)) :
    before.deliver tree OutlineBuilder.visitor event id node =
      (false, ⟨builder, before.report.count event⟩) := by
  simp [deliver, Visitor.deliver, applies, answer]

theorem diagnostics_count (report : WalkReport) (event : VisitEvent) :
    (report.count event).diagnostics = report.diagnostics := by
  cases event <;> rfl

theorem outlines_foldl {ids : List NodeId}
    {visit : NodeId → Walk OutlineBuilder → Walk OutlineBuilder}
    (each : ∀ id ∈ ids, ∀ before : Walk OutlineBuilder,
      (tree.isParameter id = true → before.state.stack ≠ []) →
        Outlines tree [id] before (visit id before))
    (before : Walk OutlineBuilder)
    (ready : ∀ id ∈ ids, tree.isParameter id = true → before.state.stack ≠ []) :
    Outlines tree ids before (ids.foldl (fun walk id => visit id walk) before) := by
  induction ids generalizing before with
  | nil => exact ⟨rfl, [], .nothing, before.state.gains_nothing⟩
  | cons id ids inductionHypothesis =>
      obtain ⟨quiet, entries, outlined, gains⟩ :=
        each id List.mem_cons_self before (ready id List.mem_cons_self)
      obtain ⟨quietRest, rest, outlinedRest, gainsRest⟩ := inductionHypothesis
        (fun other member => each other (List.mem_cons_of_mem id member)) (visit id before)
        (fun other member parameter =>
          gains.stack_ne_nil (ready other (List.mem_cons_of_mem id member) parameter))
      refine ⟨quietRest.trans quiet, entries ++ rest, ?_, gains.trans gainsRest⟩
      have split : tree.slots (id :: ids) = tree.slots [id] ++ tree.slots ids := by
        rw [Tree.slots, ← List.singleton_append, List.filter_append, List.map_append]
        rfl
      rw [split]
      exact outlined.append outlinedRest

/-- Leaving a scope gives the entry of its node. -/
theorem outlines_exit {inside : Walk OutlineBuilder} {kind : OutlineKind} {filled : OpenEntry}
    (found : tree.get? id = some node) (scope : node.kind.isScope = true)
    (sort : node.kind.outlineKind? = some kind)
    (quiet : inside.report.diagnostics = before.report.diagnostics)
    (shown : inside.state = before.state.push filled)
    (face : filled.face = (kind, node.range.startOffset, node.range.length))
    (outlined : Outlined tree (tree.slots node.children) filled.children) :
    Outlines tree [id] before (inside.deliver tree OutlineBuilder.visitor .exit id node).2 := by
  obtain ⟨sameKind, start, length⟩ : filled.kind = kind ∧
      filled.start = node.range.startOffset ∧ filled.length = node.range.length := by
    simpa [OpenEntry.face] using face
  have members := Tree.children_eq found ▸ tree.slots_children id
  have many : (tree.members id).length = filled.children.length := by
    rw [← outlined.length_eq, members, List.length_map]
  by_cases folds : tree.folds id = true
  · obtain ⟨⟨declaration, template⟩, inner, one⟩ := Tree.exists_of_folds found folds
    obtain ⟨owned, only⟩ : ∃ owned, filled.children = [owned] := by
      rw [← List.length_eq_one_iff, ← many, one]
      rfl
    have left : inside.deliver tree OutlineBuilder.visitor .exit id node = _ :=
      deliver_none scope (by rw [shown]; exact before.state.exit_folded template only)
    rw [left]
    refine ⟨(diagnostics_count _ _).trans quiet, _, ?_, before.state.gains_attach _⟩
    rw [members, one, only] at outlined
    rw [Tree.slots_singleton found sort, start, length]
    exact .folded ⟨folds, one ▸ List.mem_singleton_self inner⟩ (outlined.moveTo found)
  · have apart : node.kind.templateDecl?.isSome = true → filled.children.length ≠ 1 := by
      intro template single
      simp [Tree.folds, Tree.kindAt, found, template, many, single] at folds
    have left : inside.deliver tree OutlineBuilder.visitor .exit id node = _ :=
      deliver_none scope (by rw [shown]; exact before.state.exit_kept sort apart)
    rw [left]
    refine ⟨(diagnostics_count _ _).trans quiet, [filled.finish], ?_, before.state.gains_attach _⟩
    rw [Tree.slots_singleton found sort, OpenEntry.finish, sameKind, start, length]
    exact .entry found found sort (by simpa using folds) (Tree.children_eq found ▸ outlined)
      .nothing

/-- Accepting a leaf gives its entry, or notes a parameter. -/
theorem outlines_accept (housed : tree.Housed) (found : tree.get? id = some node)
    (plain : node.kind.isScope = false)
    (inner : node.kind.isParameter = true ∨ ∃ kind, node.kind.outlineKind? = some kind)
    (ready : tree.isParameter id = true → before.state.stack ≠ []) :
    Outlines tree [id] before (before.deliver tree OutlineBuilder.visitor .accept id node).2 := by
  have applies : VisitEvent.accept.applies node.kind = true := by
    simp [VisitEvent.applies, plain]
  rcases inner with parameter | ⟨kind, sort⟩
  · obtain ⟨after, accepted, gains⟩ := before.state.exists_accept_parameter parameter
      (ready (by simp [Tree.isParameter, Tree.kindAt, found, parameter]))
    have last : before.deliver tree OutlineBuilder.visitor .accept id node = _ :=
      deliver_none applies accepted
    rw [last]
    refine ⟨diagnostics_count _ _, [], ?_, gains⟩
    simpa [Tree.slots, Tree.isParameter, Tree.kindAt, found, parameter] using Outlined.nothing
  · obtain ⟨label, detail, accepted⟩ := before.state.exists_accept plain sort
    have last : before.deliver tree OutlineBuilder.visitor .accept id node = _ :=
      deliver_none applies accepted
    have nothing := housed.children_leaf found plain
    rw [last]
    refine ⟨diagnostics_count _ _, _, ?_, before.state.gains_attach _⟩
    rw [Tree.slots_singleton found sort]
    exact .entry found found sort (by simp [Tree.folds, Tree.members, nothing])
      (nothing ▸ .nothing) .nothing

/-- A walk over a node in another one gives its entry. -/
theorem outlines_visit (rooted : tree.Rooted) (housed : tree.Housed) {outer : NodeId}
    (id : NodeId) (held : tree.Holds outer id) (before : Walk OutlineBuilder)
    (ready : tree.isParameter id = true → before.state.stack ≠ []) :
    Outlines tree [id] before
      (visit tree OutlineBuilder.visitor .carryOn tree.size id before) := by
  induction id using rooted.induction_inward generalizing outer before with
  | step id inductionHypothesis =>
      obtain ⟨_, kind, _, known, fits⟩ := housed outer id held
      obtain ⟨node, found, rfl⟩ := Option.map_eq_some_iff.1 known
      have inner := NodeKind.outlineKind?_of_fitsIn fits
      by_cases scope : node.kind.isScope = true
      · obtain ⟨kind, sort⟩ := NodeKind.outlineKind?_of_isScope scope inner
        obtain ⟨entry, entered, face, empty⟩ := before.state.exists_enter scope sort
        have first : before.deliver tree OutlineBuilder.visitor .enter id node = _ :=
          deliver_none scope entered
        rw [rooted.visit_scope found scope, first]
        have each (child : NodeId) (member : child ∈ node.children) :=
          have heldChild := (Tree.holds_iff found).2 member
          inductionHypothesis child heldChild heldChild
        obtain ⟨quiet, entries, outlined, gains⟩ := outlines_foldl each
          ⟨before.state.push entry, before.report.count .enter⟩
          (fun _ _ _ => by simp [OutlineBuilder.push])
        obtain ⟨filled, shown, sameFace, children⟩ := gains.of_push
        rw [empty, List.nil_append] at children
        exact outlines_exit found scope sort (quiet.trans (diagnostics_count _ _)) shown
          (sameFace.trans face) (children ▸ outlined)
      · have plain : node.kind.isScope = false := by simpa using scope
        rw [rooted.visit_leaf found plain]
        exact outlines_accept housed found plain inner ready

end Walk

/-- The walk for an outline goes through, and its entries are those of the nodes in the
translation unit. -/
theorem Tree.outlined_walk {tree : Tree} (rooted : tree.Rooted) (housed : tree.Housed)
    {unit : UnitId} {symbol : SymbolId}
    (top : tree.kindAt root = some (.translationUnit unit symbol)) :
    (tree.walk OutlineBuilder.visitor .carryOn {}).report.diagnostics = [] ∧
      Outlined tree (tree.slots (tree.children root))
        (tree.walk OutlineBuilder.visitor .carryOn {}).state.roots := by
  obtain ⟨node, found, kind⟩ := Option.map_eq_some_iff.1 top
  have scope : node.kind.isScope = true := by rw [kind]; rfl
  have plain (child : NodeId) (member : child ∈ node.children) :
      tree.isParameter child = true → ([] : List OpenEntry) ≠ [] := by
    obtain ⟨around, inner, known, knownInner, fits⟩ :=
      housed root child ((holds_iff found).2 member)
    obtain rfl := Option.some.inj (top.symm.trans known)
    rw [isParameter, knownInner]
    cases inner <;> simp_all [NodeKind.isParameter, NodeKind.fitsIn]
  have first : (⟨{}, {}⟩ : Walk OutlineBuilder).deliver tree OutlineBuilder.visitor .enter root
      node = (false, ⟨{}, ({} : WalkReport).count .enter⟩) :=
    Walk.deliver_none scope (by simp [OutlineBuilder.visitor, OutlineBuilder.enter, kind])
  obtain ⟨quiet, entries, outlined, gains⟩ := Walk.outlines_foldl
    (fun child member => Walk.outlines_visit rooted housed child ((holds_iff found).2 member))
    ⟨({} : OutlineBuilder), ({} : WalkReport).count .enter⟩ plain
  obtain ⟨bottom, roots⟩ : _ ∧ _ = ([] : List OutlineEntry) ++ entries := by
    cases gains with
    | top _ bottom roots => exact ⟨bottom, roots⟩
    | inside shown => cases shown
  have last (inside : Walk OutlineBuilder) (empty : inside.state.stack = []) :
      inside.deliver tree OutlineBuilder.visitor .exit root node =
        (false, ⟨inside.state, inside.report.count .exit⟩) :=
    Walk.deliver_none scope
      (by simp [OutlineBuilder.visitor, OutlineBuilder.exit, kind, empty])
  unfold walk
  rw [rooted.visit_scope found scope, first]
  refine (congrArg Prod.snd (last _ bottom)) ▸ ⟨?_, ?_⟩
  · exact (Walk.diagnostics_count _ _).trans quiet
  · rw [children_eq found, roots]
    exact outlined

/-! ## What the shape says -/

namespace Tree

variable {tree : Tree}

theorem holds_of_mem_members {id member : NodeId} (inside : member ∈ tree.members id) :
    tree.Holds id member :=
  List.mem_of_mem_filter inside

/-- Nothing is folded into a node in one that is not folded itself. -/
theorem outermost_slots (rooted : tree.Rooted) {id : NodeId} (apart : tree.folds id = false) :
    ∀ slot ∈ tree.slots (tree.children id), tree.Outermost slot.1 slot.2 := by
  intro slot there
  obtain ⟨member, inside, rfl⟩ := List.mem_map.1 there
  refine ⟨.refl, ?_⟩
  rintro outer ⟨folds, insideOther⟩
  obtain rfl := rooted.unique member outer id (holds_of_mem_members insideOther)
    (holds_of_mem_members inside)
  simp [folds] at apart

theorem map_snd_slots (tree : Tree) (id : NodeId) :
    (tree.slots (tree.children id)).map Prod.snd = tree.members id := by
  simp [slots, members, Function.comp_def]

/-- A parameter has no entry, and nothing is inside it. -/
theorem filter_parameter (rooted : tree.Rooted) (housed : tree.Housed) {id : NodeId}
    (parameter : tree.isParameter id = true) :
    (id :: tree.inside id).filter tree.hasEntry = [] := by
  obtain ⟨kind, known, parameter⟩ := (Option.any_eq_true _ _).1 parameter
  obtain ⟨node, found, rfl⟩ := Option.map_eq_some_iff.1 known
  have plain : node.kind.isScope = false := by
    cases shown : node.kind <;> simp [shown, NodeKind.isParameter] at parameter <;> rfl
  have none : tree.hasEntry id = false := by
    cases shown : node.kind <;> simp [shown, NodeKind.isParameter] at parameter <;>
      simp [hasEntry, known, shown, NodeKind.outlineKind?]
  simp [rooted.inside_eq, housed.children_leaf found plain, none]

/-- The nodes with entries among some nodes and those inside them are found without the
parameters. -/
theorem filter_listing (rooted : tree.Rooted) (housed : tree.Housed) (ids : List NodeId) :
    (tree.listing ids).filter tree.hasEntry =
      (tree.listing (ids.filter fun id => !tree.isParameter id)).filter
        tree.hasEntry := by
  induction ids with
  | nil => rfl
  | cons id ids inductionHypothesis =>
      rw [listing_cons, ← List.cons_append, List.filter_append, inductionHypothesis]
      by_cases parameter : tree.isParameter id = true
      · have dropped : (id :: ids).filter (fun id => !tree.isParameter id) =
            ids.filter fun id => !tree.isParameter id := by simp [parameter]
        rw [dropped, filter_parameter rooted housed parameter, List.nil_append]
      · have kept : (id :: ids).filter (fun id => !tree.isParameter id) =
            id :: ids.filter fun id => !tree.isParameter id := by simp [parameter]
        rw [kept, listing_cons, ← List.cons_append, List.filter_append]

theorem filter_inside (rooted : tree.Rooted) (housed : tree.Housed) (id : NodeId) :
    (tree.inside id).filter tree.hasEntry =
      (tree.listing (tree.members id)).filter tree.hasEntry := by
  rw [rooted.inside_eq, filter_listing rooted housed]
  rfl

section Bytes

variable {length : Nat} {outer inner : NodeId} {around node : Node}

/-- A template covers what is folded into it. -/
theorem within_of_folds (rooted : tree.Rooted) (nested : tree.Nested length)
    (folds : Relation.ReflTransGen tree.FoldsInto outer inner)
    (covers : tree.get? outer = some around) (found : tree.get? inner = some node) :
    node.range.Within around.range := by
  induction folds generalizing node with
  | refl =>
      obtain rfl := Option.some.inj (covers.symm.trans found)
      exact .refl _
  | tail _ last inductionHypothesis =>
      have held := holds_of_mem_members last.2
      obtain ⟨between, there⟩ := exists_get? (tree.has_of_mem_children held)
      have wide := inductionHypothesis there
      have narrow := within_of_holds rooted nested held there found
      exact ⟨Nat.le_trans wide.1 narrow.1, Nat.le_trans narrow.2 wide.2⟩

end Bytes

end Tree

namespace Outlined

variable {tree : Tree} {slots : List (NodeId × NodeId)} {entries : List OutlineEntry}

theorem outermost_fold {cover id inner : NodeId} {rest : List (NodeId × NodeId)}
    (folds : tree.FoldsInto id inner)
    (outermost : ∀ slot ∈ (cover, id) :: rest, tree.Outermost slot.1 slot.2) :
    ∀ slot ∈ (cover, inner) :: rest, tree.Outermost slot.1 slot.2 := by
  intro slot member
  rcases List.mem_cons.1 member with rfl | later
  · obtain ⟨reaches, last⟩ := outermost (cover, id) List.mem_cons_self
    exact ⟨reaches.tail folds, last⟩
  · exact outermost slot (List.mem_cons_of_mem _ later)

/-- Of nodes with all that is inside them, each that has an entry has just one. -/
theorem describes (outlined : Outlined tree slots entries) (rooted : tree.Rooted)
    (housed : tree.Housed) (outermost : ∀ slot ∈ slots, tree.Outermost slot.1 slot.2) :
    List.Forall₂ tree.Describes ((tree.listing (slots.map Prod.snd)).filter tree.hasEntry)
      (OutlineEntry.allOf entries) := by
  induction outlined with
  | nothing => exact .nil
  | @folded cover id inner rest entries folds more inductionHypothesis =>
      have dropped : tree.hasEntry id = false := by simp [Tree.hasEntry, folds.1]
      have one : tree.members id = [inner] := by
        obtain ⟨node, found⟩ :=
          Tree.exists_get? (tree.has_of_mem_children (Tree.holds_of_mem_members folds.2))
        obtain ⟨_, only, same⟩ := Tree.exists_of_folds found folds.1
        have member := folds.2
        rw [same, List.mem_singleton] at member
        rw [same, member]
      have later := inductionHypothesis (outermost_fold folds outermost)
      rw [List.map_cons, Tree.listing_cons, ← List.cons_append, List.filter_append,
        List.filter_cons_of_neg (by simp [dropped]), Tree.filter_inside rooted housed, one]
      rw [List.map_cons, Tree.listing_cons, ← List.cons_append, List.filter_append] at later
      simpa [Tree.listing] using later
  | @entry cover id around node rest label kind detail children entries covers found sort apart
      inside more inductionInside inductionHypothesis =>
      have listed : tree.hasEntry id = true := by
        simp [Tree.hasEntry, Tree.kindAt, found, sort, apart]
      have inner := inductionInside (Tree.outermost_slots rooted apart)
      have later := inductionHypothesis fun slot there =>
        outermost slot (List.mem_cons_of_mem _ there)
      rw [Tree.map_snd_slots, ← Tree.filter_inside rooted housed] at inner
      rw [List.map_cons, Tree.listing_cons, List.filter_cons_of_pos listed, List.filter_append,
        OutlineEntry.allOf, OutlineEntry.all, List.cons_append]
      refine .cons ?_ (List.rel_append inner later)
      exact ⟨node, cover, around, found, sort, outermost _ List.mem_cons_self, covers, rfl, rfl⟩

/-- An entry covers the bytes of the node that comes first in its pair. -/
theorem exists_cover (outlined : Outlined tree slots entries) {entry : OutlineEntry}
    (member : entry ∈ entries) : ∃ cover ∈ slots.map Prod.fst, ∃ around,
      tree.get? cover = some around ∧ entry.start = around.range.startOffset ∧
        entry.length = around.range.length := by
  induction outlined with
  | nothing => cases member
  | folded _ _ inductionHypothesis => exact inductionHypothesis member
  | entry covers _ _ _ _ _ _ inductionHypothesis =>
      rcases List.mem_cons.1 member with rfl | later
      · exact ⟨_, List.mem_cons_self, _, covers, rfl, rfl⟩
      · obtain ⟨cover, there, known⟩ := inductionHypothesis later
        exact ⟨cover, List.mem_cons_of_mem _ there, known⟩

/-- No entry goes beyond the one around it. -/
theorem within (outlined : Outlined tree slots entries) (rooted : tree.Rooted) {length : Nat}
    (nested : tree.Nested length) (outermost : ∀ slot ∈ slots, tree.Outermost slot.1 slot.2)
    {entry child : OutlineEntry} (member : entry ∈ OutlineEntry.allOf entries)
    (inside : child ∈ entry.children) : child.Within entry := by
  induction outlined with
  | nothing => cases member
  | folded folds _ inductionHypothesis =>
      exact inductionHypothesis (outermost_fold folds outermost) member
  | @entry cover id around node rest label kind detail children entries covers found sort apart
      outlinedInside more inductionInside inductionHypothesis =>
      rw [OutlineEntry.allOf, OutlineEntry.all, List.cons_append, List.mem_cons,
        List.mem_append] at member
      rcases member with rfl | deeper | later
      · obtain ⟨inner, there, narrow, coversChild, start, length⟩ :=
          outlinedInside.exists_cover inside
        have held : tree.Holds id inner := by
          simp only [Tree.slots_children, List.map_map, Function.comp_def, List.map_id'] at there
          exact Tree.holds_of_mem_members there
        have wide :=
          Tree.within_of_folds rooted nested (outermost _ List.mem_cons_self).1 covers found
        have within := Tree.within_of_holds rooted nested held found coversChild
        have filled := nested.covered inner narrow coversChild (Tree.ne_root_of_holds rooted held)
        simp only [SourceRange.Within] at wide within
        change around.range.startOffset ≤ child.start ∧
          child.start + child.length ≤ around.range.startOffset + around.range.length
        rw [start, length]
        simp only [SourceRange.length]
        omega
      · exact inductionInside (Tree.outermost_slots rooted apart) deeper
      · exact inductionHypothesis (fun slot there => outermost slot (List.mem_cons_of_mem _ there))
          later

end Outlined

/-- The outline of every parsed unit is made, and is its tree without the translation unit and
the parameters, with each template that holds one declaration folded into it. -/
theorem outline_parseUnit (options : ParseOptions) {table : SymbolTable}
    (reached : table.Reachable) (unit : UnitId) (source : String) :
    ∃ entries, (parseUnit options table unit source).tree.outline = .ok entries ∧
      (parseUnit options table unit source).tree.OutlinedBy entries := by
  obtain ⟨rooted, nested⟩ := rooted_parseUnit options reached unit source
  have housed := housed_parseUnit options reached unit source
  have top := kindAt_root_parseUnit options reached unit source
  generalize (parseUnit options table unit source).tree = tree at *
  have apart : tree.folds Tree.root = false := by
    simp [Tree.folds, top, NodeKind.templateDecl?]
  have outermost := Tree.outermost_slots rooted apart
  obtain ⟨quiet, outlined⟩ := Tree.outlined_walk rooted housed top
  refine ⟨(tree.walk OutlineBuilder.visitor .carryOn {}).state.roots,
    by simp only [Tree.outline, quiet], ?_⟩
  constructor
  case shape => exact outlined
  case complete => exact rooted.perm_listing_root
  case listed =>
    have unlisted : tree.hasEntry Tree.root = false := by
      simp [Tree.hasEntry, top, NodeKind.outlineKind?]
    have described := outlined.describes rooted housed outermost
    rw [Tree.map_snd_slots, ← Tree.filter_inside rooted housed] at described
    rw [Tree.listing_cons, List.filter_cons_of_neg (by simp [unlisted])]
    simpa using described
  case nested =>
    intro entry member child inside
    exact outlined.within rooted nested outermost member inside

-- A template that only declares a class keeps its entry; the two around the function are folded
-- into it.
example :
    ((parseUnit {} .empty ⟨0⟩
        "template<class T> struct A; template<class T> template<class U> void f(T x);"
      ).tree.outline.toOption.map fun entries => (OutlineEntry.allOf entries).map fun entry =>
        (entry.kind, entry.start, entry.length)) =
      some [(.template, 0, 27), (.function, 28, 48)] := by
  decide +kernel

/-- The outline of every unit whose source has less than 2 ^ 32 - 1 bytes is made in this way. -/
theorem outline_parseUnit? (options : ParseOptions) {table : SymbolTable}
    (reached : table.Reachable) (unit : UnitId) {source : String}
    (short : source.utf8ByteSize < counterRange - 1) :
    ∃ parsed, parseUnit? options table unit source = some parsed ∧
      ∃ entries, parsed.tree.outline = .ok entries ∧ parsed.tree.OutlinedBy entries :=
  ⟨_, parseUnit?_eq options table unit short, outline_parseUnit options reached unit source⟩

/-- A function in two templates, behind one that is only declared. -/
theorem outline_parseUnit?_templates :
    SymbolTable.empty.Reachable ∧
      "template<class T> struct A; template<class T> template<class U> void f(T x);".utf8ByteSize <
        counterRange - 1 ∧
      ∃ parsed, parseUnit? {} .empty ⟨0⟩
          "template<class T> struct A; template<class T> template<class U> void f(T x);" =
            some parsed ∧
        ∃ entries, parsed.tree.outline = .ok entries ∧ parsed.tree.OutlinedBy entries :=
  ⟨.empty, by decide +kernel, outline_parseUnit? {} .empty ⟨0⟩ (by decide +kernel)⟩

/-- In a source that is too long an entry need not lie in the one around it: the enumeration that
a comment of nearly 2 ^ 32 bytes closes has the first two bytes, and its enumerator the sixth. -/
theorem outline_longEnum : SymbolTable.empty.Reachable ∧
    ∃ parsed, parseUnit? {} .empty ⟨0⟩ longEnum = some parsed ∧
      ∃ entries, parsed.tree.outline = .ok entries ∧
        (OutlineEntry.allOf entries).map (fun entry => (entry.kind, entry.start, entry.length)) =
          [(.enumType, 0, 2), (.enumerator, 5, 1)] ∧
        ∃ entry ∈ OutlineEntry.allOf entries, ∃ child ∈ entry.children, ¬ child.Within entry := by
  have shape : longEnumUnit.tree.outline.toOption.any (fun entries =>
      (OutlineEntry.allOf entries).map (fun entry => (entry.kind, entry.start, entry.length)) =
          [(.enumType, 0, 2), (.enumerator, 5, 1)] ∧
        ∃ entry ∈ OutlineEntry.allOf entries, ∃ child ∈ entry.children,
          ¬ child.Within entry) = true := by
    decide +kernel
  obtain ⟨entries, made, holds⟩ := (Option.any_eq_true _ _).1 shape
  obtain ⟨faces, apart⟩ := of_decide_eq_true holds
  refine ⟨.empty, _, parseUnit?_longEnum, entries, ?_, faces, apart⟩
  cases outline : longEnumUnit.tree.outline with
  | error _ => simp [outline, Except.toOption] at made
  | ok other => simpa [outline, Except.toOption] using made

end DeclTree
