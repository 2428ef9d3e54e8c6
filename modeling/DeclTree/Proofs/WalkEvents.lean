import DeclTree.Proofs.TreeOrder
import Mathlib.Algebra.GroupWithZero.Nat
import Mathlib.Data.List.Pairwise

/-!
# What a walk delivers

A walk over a parsed unit shows its nodes in document order, each scope around what is inside it,
whatever the visitor answers.  What the visitor was shown, with its answers, is the log of the
walk.  The shape of the log follows the tree; the report is what the log adds up to.
-/

namespace DeclTree

/-- One event that a visitor was shown, and how it answered. -/
structure Delivery where
  event : VisitEvent
  id : NodeId
  node : Node
  failure : Option Failure

/-- The visitor that does the same and keeps a log of what it is shown. -/
def Visitor.logged {σ : Type} (visitor : Visitor σ) : Visitor (σ × List Delivery) where
  visit event id node state :=
    let answer := visitor.visit event id node state.1
    (answer.1, answer.2, state.2 ++ [⟨event, id, node, answer.1⟩])

namespace Delivery

/-- Whether the inside of a node is passed over after its delivery. -/
def passes (policy : FaultPolicy) (delivery : Delivery) : Bool :=
  delivery.event = .enter && delivery.failure.isSome && policy == .skipSubtree

theorem passes_carryOn (delivery : Delivery) : delivery.passes .carryOn = false := by
  simp [passes]

/-- The nodes that are shown between a scope's entering, which this is, and its leaving. -/
def opens (policy : FaultPolicy) (delivery : Delivery) : List NodeId :=
  if delivery.passes policy then [] else delivery.node.children

def fault? (tree : Tree) (delivery : Delivery) : Option Diagnostic :=
  delivery.failure.map
    (Walk.failureDiagnostic tree delivery.event delivery.id delivery.node)

/-- The nodes that a delivery is the first or only word on, in document order: the node itself,
and those inside it where they are passed over. -/
def settles (tree : Tree) (policy : FaultPolicy) (delivery : Delivery) : List NodeId :=
  if delivery.event = .exit then []
  else delivery.id :: if delivery.passes policy then tree.inside delivery.id else []

end Delivery

/-- The logs that show some nodes one after the other: a leaf is accepted; a scope is entered,
then come the nodes in it in their order, unless they are passed over, and then it is left. -/
inductive Shown (tree : Tree) (policy : FaultPolicy) : List NodeId → List Delivery → Prop
  | nothing : Shown tree policy [] []
  | leaf {id : NodeId} {node : Node} {failure : Option Failure} {rest : List NodeId}
      {log : List Delivery} (found : tree.get? id = some node)
      (plain : node.kind.isScope = false) (more : Shown tree policy rest log) :
      Shown tree policy (id :: rest) (⟨.accept, id, node, failure⟩ :: log)
  | scope {id : NodeId} {node : Node} {failure failed : Option Failure} {rest : List NodeId}
      {inner log : List Delivery} (found : tree.get? id = some node)
      (scope : node.kind.isScope = true)
      (inside : Shown tree policy (Delivery.opens policy ⟨.enter, id, node, failure⟩) inner)
      (more : Shown tree policy rest log) :
      Shown tree policy (id :: rest)
        (⟨.enter, id, node, failure⟩ :: (inner ++ ⟨.exit, id, node, failed⟩ :: log))

namespace WalkReport

/-- The report of two walks, one behind the other. -/
def merge (first second : WalkReport) : WalkReport where
  entered := first.entered + second.entered
  exited := first.exited + second.exited
  accepted := first.accepted + second.accepted
  skipped := first.skipped + second.skipped
  diagnostics := first.diagnostics ++ second.diagnostics

/-- What a log adds up to: its events, the nodes inside scopes that were passed over, and a
diagnostic for each failure, in order. -/
def tally (tree : Tree) (policy : FaultPolicy) (log : List Delivery) : WalkReport where
  entered := log.countP (·.event = .enter)
  exited := log.countP (·.event = .exit)
  accepted := log.countP (·.event = .accept)
  skipped := ((log.filter (Delivery.passes policy)).map fun delivery =>
    (tree.inside delivery.id).length).sum
  diagnostics := log.filterMap (Delivery.fault? tree)

theorem merge_tally_append (report : WalkReport) (tree : Tree) (policy : FaultPolicy)
    (first second : List Delivery) :
    report.merge (tally tree policy (first ++ second)) =
      (report.merge (tally tree policy first)).merge (tally tree policy second) := by
  simp [merge, tally, Nat.add_assoc]

theorem merge_tally_nil (report : WalkReport) (tree : Tree) (policy : FaultPolicy) :
    report.merge (tally tree policy []) = report := by
  simp [merge, tally]

variable {tree : Tree} {policy : FaultPolicy} {delivery : Delivery}

theorem tally_opened (opened : delivery.passes policy = false) :
    tally tree policy [delivery] = tally tree .carryOn [delivery] := by
  have kept : [delivery].filter (Delivery.passes policy) = [] := by simp [opened]
  simp [tally, kept, Delivery.passes_carryOn]

theorem merge_tally_passed (report : WalkReport) (passes : delivery.passes policy = true) :
    report.merge (tally tree policy [delivery]) =
      (report.merge (tally tree .carryOn [delivery])).addSkipped
        (Walk.countInside tree tree.size delivery.id) := by
  have kept : [delivery].filter (Delivery.passes policy) = [delivery] := by simp [passes]
  simp [tally, kept, Delivery.passes_carryOn, merge, addSkipped, Tree.countInside_eq, Tree.inside]

end WalkReport

/-! ## The log of a walk -/

section Logging

variable {σ : Type} {tree : Tree} {policy : FaultPolicy} {visitor : Visitor σ}

theorem Shown.append {ids more : List NodeId} {log further : List Delivery}
    (shown : Shown tree policy ids log) (shownMore : Shown tree policy more further) :
    Shown tree policy (ids ++ more) (log ++ further) := by
  induction shown with
  | nothing => exact shownMore
  | leaf found plain _ inductionHypothesis => exact .leaf found plain inductionHypothesis
  | scope found scope inside _ _ inductionHypothesis =>
      simpa using Shown.scope found scope inside inductionHypothesis

namespace Walk

/-- Whether a walk that keeps a log has shown some nodes, and counted what it showed. -/
structure Shows (tree : Tree) (policy : FaultPolicy) (ids : List NodeId)
    (before after : Walk (σ × List Delivery)) (log : List Delivery) : Prop where
  shown : Shown tree policy ids log
  state : after.state.2 = before.state.2 ++ log
  report : after.report = before.report.merge (.tally tree policy log)

/-- A delivery is noted at the end of the log and in the report; what is passed over after it is
counted apart. -/
theorem deliver_logged (tree : Tree) (visitor : Visitor σ) (before : Walk (σ × List Delivery))
    (event : VisitEvent) (id : NodeId) {node : Node}
    (applies : event.applies node.kind = true) : ∃ failure state,
      before.deliver tree visitor.logged event id node = (failure.isSome,
        ⟨(state, before.state.2 ++ [⟨event, id, node, failure⟩]),
          before.report.merge (.tally tree .carryOn [⟨event, id, node, failure⟩])⟩) := by
  refine ⟨(visitor.visit event id node before.state.1).1,
    (visitor.visit event id node before.state.1).2, ?_⟩
  unfold deliver Visitor.deliver
  rw [if_pos applies]
  simp only [Visitor.logged]
  cases (visitor.visit event id node before.state.1).1 <;> cases event <;>
    simp [WalkReport.count, WalkReport.addDiagnostic, WalkReport.merge, WalkReport.tally,
      Delivery.passes, Delivery.fault?]

theorem shows_foldl {ids : List NodeId}
    {visit : NodeId → Walk (σ × List Delivery) → Walk (σ × List Delivery)}
    (each : ∀ id ∈ ids, ∀ before, ∃ log, Shows tree policy [id] before (visit id before) log)
    (before : Walk (σ × List Delivery)) : ∃ log,
      Shows tree policy ids before (ids.foldl (fun walk id => visit id walk) before) log := by
  induction ids generalizing before with
  | nil => exact ⟨[], .nothing, by simp, by simp [WalkReport.merge_tally_nil]⟩
  | cons id ids inductionHypothesis =>
      obtain ⟨log, first⟩ := each id List.mem_cons_self before
      obtain ⟨more, rest⟩ := inductionHypothesis
        (fun other member => each other (List.mem_cons_of_mem id member)) (visit id before)
      refine ⟨log ++ more, first.shown.append rest.shown, ?_, ?_⟩
      · rw [List.foldl_cons, rest.state, first.state, List.append_assoc]
      · rw [List.foldl_cons, rest.report, first.report, WalkReport.merge_tally_append]

/-- Leaving a scope completes its part of the log. -/
theorem exists_shows_exit {before inside : Walk (σ × List Delivery)} {id : NodeId} {node : Node}
    (scope : node.kind.isScope = true) (log : List Delivery)
    (shown : ∀ failed, Shown tree policy [id] (log ++ [⟨.exit, id, node, failed⟩]))
    (state : inside.state.2 = before.state.2 ++ log)
    (report : inside.report = before.report.merge (.tally tree policy log)) : ∃ more,
      Shows tree policy [id] before (inside.deliver tree visitor.logged .exit id node).2 more := by
  obtain ⟨failed, next, left⟩ := deliver_logged tree visitor inside .exit id scope
  have opened : Delivery.passes policy ⟨.exit, id, node, failed⟩ = false := by
    simp [Delivery.passes]
  refine ⟨_, shown failed, ?_, ?_⟩
  · rw [left, state, List.append_assoc]
  · rw [left, report, WalkReport.merge_tally_append, WalkReport.tally_opened opened]

/-- A walk over a scope shows it and what it opens, if a walk over each node in it shows that. -/
theorem exists_shows_scope (rooted : tree.Rooted) {id : NodeId} {node : Node}
    (found : tree.get? id = some node) (scope : node.kind.isScope = true)
    (each : ∀ child ∈ node.children, ∀ before, ∃ log, Shows tree policy [child] before
      (visit tree visitor.logged policy tree.size child before) log)
    (before : Walk (σ × List Delivery)) : ∃ log, Shows tree policy [id] before
      (visit tree visitor.logged policy tree.size id before) log := by
  obtain ⟨failure, state, entered⟩ := deliver_logged tree visitor before .enter id scope
  rw [rooted.visit_scope found scope, entered]
  dsimp only
  by_cases passes : Delivery.passes policy ⟨.enter, id, node, failure⟩ = true
  · have skips : (failure.isSome && policy == .skipSubtree) = true := by
      simpa [Delivery.passes] using passes
    rw [if_pos skips]
    have opens : Delivery.opens policy ⟨.enter, id, node, failure⟩ = [] := if_pos passes
    apply exists_shows_exit scope [⟨.enter, id, node, failure⟩]
    · exact fun failed => Shown.scope found scope (opens ▸ .nothing) .nothing
    · rfl
    · exact (WalkReport.merge_tally_passed _ passes).symm
  · have goesOn : ¬(failure.isSome && policy == .skipSubtree) = true := by
      simpa [Delivery.passes] using passes
    rw [if_neg goesOn]
    have opens : Delivery.opens policy ⟨.enter, id, node, failure⟩ = node.children :=
      if_neg passes
    obtain ⟨inner, inside⟩ := shows_foldl each ⟨(state, before.state.2 ++
      [⟨.enter, id, node, failure⟩]), before.report.merge (.tally tree .carryOn
        [⟨.enter, id, node, failure⟩])⟩
    apply exists_shows_exit scope (⟨.enter, id, node, failure⟩ :: inner)
    · exact fun failed => Shown.scope found scope (opens ▸ inside.shown) .nothing
    · rw [inside.state, List.append_assoc, List.singleton_append]
    · rw [inside.report, ← WalkReport.tally_opened (by simpa using passes),
        ← WalkReport.merge_tally_append, List.singleton_append]

/-- A walk over a node shows it and what is inside it. -/
theorem exists_shows (visitor : Visitor σ) (policy : FaultPolicy) (rooted : tree.Rooted)
    (id : NodeId) (present : tree.Has id) (before : Walk (σ × List Delivery)) : ∃ log,
      Shows tree policy [id] before (visit tree visitor.logged policy tree.size id before)
        log := by
  induction id using rooted.induction_inward generalizing before with
  | step id inductionHypothesis =>
      obtain ⟨node, found⟩ := Tree.exists_get? present
      by_cases scope : node.kind.isScope = true
      · apply exists_shows_scope rooted found scope
        intro child member
        have held := (Tree.holds_iff found).2 member
        exact inductionHypothesis child held (rooted.inward id child held).2
      · have plain : node.kind.isScope = false := by simpa using scope
        have applies : VisitEvent.accept.applies node.kind = true := by
          simp [VisitEvent.applies, plain]
        obtain ⟨failure, state, accepted⟩ := deliver_logged tree visitor before .accept id applies
        have opened : Delivery.passes policy ⟨.accept, id, node, failure⟩ = false := by
          simp [Delivery.passes]
        rw [rooted.visit_leaf found plain, accepted]
        refine ⟨_, .leaf found plain .nothing, rfl, ?_⟩
        rw [WalkReport.tally_opened opened]

def unlogged (walk : Walk (σ × List Delivery)) : Walk σ :=
  ⟨walk.state.1, walk.report⟩

theorem deliver_unlogged (walk : Walk (σ × List Delivery)) (event : VisitEvent) (id : NodeId)
    (node : Node) : walk.unlogged.deliver tree visitor event id node =
      ((walk.deliver tree visitor.logged event id node).1,
        (walk.deliver tree visitor.logged event id node).2.unlogged) := by
  unfold deliver Visitor.deliver
  by_cases applies : event.applies node.kind = true
  · simp only [if_pos applies, unlogged, Visitor.logged]
    cases (visitor.visit event id node walk.state.1).1 <;> rfl
  · simp only [if_neg applies, unlogged]

/-- Keeping a log changes nothing else. -/
theorem visit_unlogged (bound : Nat) (id : NodeId) (walk : Walk (σ × List Delivery)) :
    visit tree visitor policy bound id walk.unlogged =
      (visit tree visitor.logged policy bound id walk).unlogged := by
  induction bound generalizing id walk with
  | zero => rfl
  | succ bound inductionHypothesis =>
      have children (ids : List NodeId) (walk : Walk (σ × List Delivery)) :
          ids.foldl (fun walk child => visit tree visitor policy bound child walk) walk.unlogged =
            (ids.foldl (fun walk child => visit tree visitor.logged policy bound child walk)
              walk).unlogged :=
        List.foldl_hom unlogged fun walk child => inductionHypothesis child walk
      rw [visit, visit]
      cases tree.get? id with
      | none => rfl
      | some node =>
          have leave (inside : Walk (σ × List Delivery)) :
              (inside.unlogged.deliver tree visitor .exit id node).2 =
                (inside.deliver tree visitor.logged .exit id node).2.unlogged := by
            rw [deliver_unlogged]
          simp only [deliver_unlogged]
          split
          · split
            · exact leave { (walk.deliver tree visitor.logged .enter id node).2 with
                report := (walk.deliver tree visitor.logged .enter id node).2.report.addSkipped
                  (countInside tree tree.size id) }
            · rw [children]
              exact leave _
          · rfl

end Walk

end Logging

/-! ## What the log says -/

namespace Shown

variable {tree : Tree} {policy : FaultPolicy} {ids : List NodeId} {log : List Delivery}

/-- Every node is either shown or passed over, in document order. -/
theorem flatMap_settles (shown : Shown tree policy ids log) (rooted : tree.Rooted)
    (housed : tree.Housed) : log.flatMap (Delivery.settles tree policy) = tree.listing ids := by
  induction shown with
  | nothing => rfl
  | leaf found plain _ inductionHypothesis =>
      rw [Tree.listing_cons, rooted.inside_eq, housed.children_leaf found plain,
        List.flatMap_cons, inductionHypothesis]
      simp [Delivery.settles, Delivery.passes]
  | @scope id node failure _ _ _ _ found _ _ _ inductionInside inductionHypothesis =>
      rw [Tree.listing_cons, ← inductionHypothesis]
      by_cases passes : Delivery.passes policy ⟨.enter, id, node, failure⟩ = true
      · rw [Delivery.opens, if_pos passes] at inductionInside
        rw [List.flatMap_cons, List.flatMap_append, inductionInside]
        simp [Delivery.settles, passes]
      · rw [Delivery.opens, if_neg passes] at inductionInside
        rw [rooted.inside_eq, Tree.children_eq found, ← inductionInside]
        simp [Delivery.settles, passes]

/-- What is shown inside a scope is inside it. -/
theorem listing_opens_sublist (policy : FaultPolicy) (rooted : tree.Rooted) {id : NodeId}
    {node : Node} (found : tree.get? id = some node) (failure : Option Failure) :
    (tree.listing (Delivery.opens policy ⟨.enter, id, node, failure⟩)).Sublist
      (tree.inside id) := by
  unfold Delivery.opens
  split
  · exact List.nil_sublist _
  · rw [rooted.inside_eq, Tree.children_eq found]

/-- Every node that is shown has been entered or accepted. -/
theorem exists_opening (shown : Shown tree policy ids log) {delivery : Delivery}
    (member : delivery ∈ log) : ∃ opening ∈ log, opening.id = delivery.id ∧
      opening.event ≠ .exit := by
  induction shown with
  | nothing => cases member
  | leaf _ _ _ inductionHypothesis =>
      rcases List.mem_cons.1 member with rfl | later
      · exact ⟨_, List.mem_cons_self, rfl, nofun⟩
      · obtain ⟨opening, there, first⟩ := inductionHypothesis later
        exact ⟨opening, List.mem_cons_of_mem _ there, first⟩
  | scope _ _ _ _ inductionInside inductionHypothesis =>
      simp only [List.mem_cons, List.mem_append] at member ⊢
      rcases member with rfl | deeper | rfl | later
      · exact ⟨_, .inl rfl, rfl, nofun⟩
      · obtain ⟨opening, there, first⟩ := inductionInside deeper
        exact ⟨opening, .inr (.inl there), first⟩
      · exact ⟨_, .inl rfl, rfl, nofun⟩
      · obtain ⟨opening, there, first⟩ := inductionHypothesis later
        exact ⟨opening, .inr (.inr (.inr there)), first⟩

theorem mem_listing (shown : Shown tree policy ids log) (rooted : tree.Rooted)
    (housed : tree.Housed) {id : NodeId} (member : id ∈ log.map Delivery.id) :
    id ∈ tree.listing ids := by
  obtain ⟨delivery, there, rfl⟩ := List.mem_map.1 member
  obtain ⟨opening, first, same, opens⟩ := shown.exists_opening there
  rw [← shown.flatMap_settles rooted housed, List.mem_flatMap]
  refine ⟨opening, first, ?_⟩
  rw [Delivery.settles, if_neg opens, same]
  exact List.mem_cons_self

theorem balanced (shown : Shown tree policy ids log) :
    log.countP (·.event = .enter) = log.countP (·.event = .exit) := by
  induction shown with
  | nothing => rfl
  | leaf _ _ _ inductionHypothesis => simpa using inductionHypothesis
  | scope _ _ _ _ inductionInside inductionHypothesis =>
      simp [inductionInside, inductionHypothesis]
      omega

theorem filter_absent {id : NodeId} (absent : id ∉ log.map Delivery.id) :
    log.filter (·.id = id) = [] := by
  rw [List.filter_eq_nil_iff]
  intro delivery there same
  exact absent (List.mem_map.2 ⟨delivery, there, by simpa using same⟩)

/-- A scope that is shown is entered and then left, a leaf accepted, and that is all. -/
theorem events_of (shown : Shown tree policy ids log) (rooted : tree.Rooted)
    (housed : tree.Housed) (distinct : (tree.listing ids).Nodup) {id : NodeId} {node : Node}
    (found : tree.get? id = some node) (member : id ∈ log.map Delivery.id) :
    (log.filter (·.id = id)).map Delivery.event =
      if node.kind.isScope then [.enter, .exit] else [.accept] := by
  induction shown with
  | nothing => cases member
  | @leaf here _ _ rest log foundHere plain more inductionHypothesis =>
      rw [Tree.listing_cons, List.nodup_cons] at distinct
      obtain ⟨apart, distinct⟩ := distinct
      have absent : here ∉ log.map Delivery.id := fun there =>
        apart (List.mem_append_right _ (more.mem_listing rooted housed there))
      by_cases same : here = id
      · subst same
        obtain rfl := Option.some.inj (foundHere.symm.trans found)
        simp [filter_absent absent, plain]
      · have later : id ∈ log.map Delivery.id := by simpa [Ne.symm same] using member
        simpa [same] using inductionHypothesis (List.nodup_append.1 distinct).2.1 later
  | @scope here shownNode failure _ rest inner log foundHere scope inside more inductionInside
      inductionHypothesis =>
      have deeperOf := listing_opens_sublist policy rooted foundHere failure
      rw [Tree.listing_cons, List.nodup_cons, List.nodup_append] at distinct
      obtain ⟨apart, distinctInside, distinctLater, disjoint⟩ := distinct
      have inInside {id : NodeId} (there : id ∈ inner.map Delivery.id) :=
        deeperOf.subset (inside.mem_listing rooted housed there)
      have inLater {id : NodeId} (there : id ∈ log.map Delivery.id) :=
        more.mem_listing rooted housed there
      by_cases same : here = id
      · subst same
        obtain rfl := Option.some.inj (foundHere.symm.trans found)
        have absentInside := fun there => apart (List.mem_append_left _ (inInside there))
        have absentLater := fun there => apart (List.mem_append_right _ (inLater there))
        simp [filter_absent absentInside, filter_absent absentLater, scope]
      · have cases : id ∈ inner.map Delivery.id ∨ id ∈ log.map Delivery.id := by
          simpa [Ne.symm same] using member
        rcases cases with deeper | later
        · have absent := fun there => disjoint id (inInside deeper) id (inLater there) rfl
          simpa [same, filter_absent absent] using
            inductionInside (distinctInside.sublist deeperOf) deeper
        · have absent := fun there => disjoint id (inInside there) id (inLater later) rfl
          simpa [same, filter_absent absent] using inductionHypothesis distinctLater later

/-- With the policy for it, the nodes that are not shown are those inside a scope that could not
be entered. -/
theorem not_shown_iff (shown : Shown tree .skipSubtree [Tree.root] log) (rooted : tree.Rooted)
    (housed : tree.Housed) {id : NodeId} (present : tree.Has id) :
    id ∉ log.map Delivery.id ↔ ∃ delivery ∈ log, delivery.event = .enter ∧
      delivery.failure.isSome = true ∧ tree.Surrounds delivery.id id := by
  have settled := shown.flatMap_settles rooted housed
  have distinct := rooted.nodup_listing_root
  rw [← settled, List.nodup_flatMap] at distinct
  constructor
  · intro absent
    have member := rooted.mem_listing_root.2 present
    rw [← settled, List.mem_flatMap] at member
    obtain ⟨delivery, there, settles⟩ := member
    have other : id ≠ delivery.id := fun same =>
      absent (List.mem_map.2 ⟨delivery, there, same.symm⟩)
    by_cases passes : delivery.passes .skipSubtree = true
    · obtain ⟨enters, failed⟩ : delivery.event = .enter ∧ delivery.failure.isSome = true := by
        simpa [Delivery.passes] using passes
      have deeper : id ∈ tree.inside delivery.id := by
        simpa [Delivery.settles, enters, passes, other] using settles
      exact ⟨delivery, there, enters, failed, rooted.mem_inside.1 deeper⟩
    · simp [Delivery.settles, passes, other] at settles
  · rintro ⟨delivery, there, enters, failed, surrounds⟩ member
    obtain ⟨again, thereAgain, same⟩ := List.mem_map.1 member
    obtain ⟨opening, first, sameOpening, opens⟩ := shown.exists_opening thereAgain
    have inside : id ∈ tree.inside delivery.id := rooted.mem_inside.2 surrounds
    have passes : delivery.passes .skipSubtree = true := by
      simp [Delivery.passes, enters, failed]
    have settles : id ∈ delivery.settles tree .skipSubtree := by
      simp [Delivery.settles, enters, passes, inside]
    have settlesOpening : id ∈ opening.settles tree .skipSubtree := by
      simp [Delivery.settles, opens, sameOpening, same]
    by_cases once : delivery = opening
    · rw [once, sameOpening, same] at inside
      exact rooted.not_mem_inside id inside
    · have symmetric : Std.Symm
          (Function.onFun List.Disjoint (Delivery.settles tree .skipSubtree)) :=
        ⟨fun _ _ disjoint => List.disjoint_symm disjoint⟩
      exact distinct.2.forall there first once settles settlesOpening

end Shown

theorem length_flatMap_settles (tree : Tree) (policy : FaultPolicy) (log : List Delivery) :
    (log.flatMap (Delivery.settles tree policy)).length =
      (WalkReport.tally tree policy log).entered + (WalkReport.tally tree policy log).accepted +
        (WalkReport.tally tree policy log).skipped := by
  induction log with
  | nil => rfl
  | cons delivery log inductionHypothesis =>
      rw [List.flatMap_cons, List.length_append, inductionHypothesis]
      by_cases passes : delivery.passes policy = true
      · have enters : delivery.event = .enter := by simp_all [Delivery.passes]
        simp [WalkReport.tally, Delivery.settles, passes, enters]
        omega
      · cases event : delivery.event with
        | enter =>
            simp [WalkReport.tally, Delivery.settles, passes, event]
            omega
        | exit => simp [WalkReport.tally, Delivery.settles, passes, event]
        | accept =>
            simp [WalkReport.tally, Delivery.settles, passes, event]
            omega

/-- How a log and the report of a walk go with a tree.  The log shows the translation unit with
what is inside it, and so shows scopes around what is in them and all nodes in document order; a
node that it shows has its events once.  Of the others, all are inside scopes that could not be
entered.  The report counts the events and the nodes that were not shown, and has a diagnostic
for each failure, in the order of the log. -/
structure Tree.Delivers (tree : Tree) (policy : FaultPolicy) (log : List Delivery)
    (report : WalkReport) : Prop where
  shown : Shown tree policy [root] log
  events : ∀ id node, tree.get? id = some node → id ∈ log.map Delivery.id →
    (log.filter (·.id = id)).map Delivery.event =
      if node.kind.isScope then [.enter, .exit] else [.accept]
  entered : report.entered = log.countP (·.event = .enter)
  exited : report.exited = log.countP (·.event = .exit)
  accepted : report.accepted = log.countP (·.event = .accept)
  balanced : report.entered = report.exited
  complete : report.entered + report.accepted + report.skipped = tree.size
  carriesOn : policy = .carryOn → report.skipped = 0
  passes : policy = .skipSubtree → ∀ id, tree.Has id → (id ∉ log.map Delivery.id ↔
    ∃ delivery ∈ log, delivery.event = .enter ∧ delivery.failure.isSome = true ∧
      tree.Surrounds delivery.id id)
  diagnostics : report.diagnostics = log.filterMap (Delivery.fault? tree)

theorem Shown.delivers {tree : Tree} {policy : FaultPolicy} {log : List Delivery}
    (shown : Shown tree policy [Tree.root] log) (rooted : tree.Rooted) (housed : tree.Housed) :
    tree.Delivers policy log (.tally tree policy log) where
  shown := shown
  events _ _ found member :=
    shown.events_of rooted housed rooted.nodup_listing_root found member
  entered := rfl
  exited := rfl
  accepted := rfl
  balanced := shown.balanced
  complete := by
    rw [← length_flatMap_settles, shown.flatMap_settles rooted housed,
      rooted.length_listing_root]
  carriesOn := by
    rintro rfl
    have none : log.filter (Delivery.passes .carryOn) = [] := by
      simp [Delivery.passes_carryOn]
    simp [WalkReport.tally, none]
  passes := by
    rintro rfl id present
    exact shown.not_shown_iff rooted housed present
  diagnostics := rfl

/-- A walk over a parsed unit delivers well bracketed events in document order, and reports what
it delivered, whatever the visitor answers.  The log is that of the visitor that also keeps one;
keeping it changes neither the state nor the report. -/
theorem walk_delivers (options : ParseOptions) {table : SymbolTable} (reached : table.Reachable)
    (unit : UnitId) (source : String) {σ : Type} (visitor : Visitor σ) (policy : FaultPolicy)
    (state : σ) :
    let tree := (parseUnit options table unit source).tree
    let walk := tree.walk visitor policy state
    let logged := tree.walk visitor.logged policy (state, [])
    logged.state.1 = walk.state ∧ logged.report = walk.report ∧
      tree.Delivers policy logged.state.2 walk.report := by
  intro tree walk logged
  have rooted : tree.Rooted := (rooted_parseUnit options reached unit source).1
  have housed : tree.Housed := housed_parseUnit options reached unit source
  have same : walk = logged.unlogged :=
    Walk.visit_unlogged tree.size Tree.root ⟨(state, []), {}⟩
  obtain ⟨log, shows⟩ :=
    Walk.exists_shows visitor policy rooted Tree.root rooted.root ⟨(state, []), {}⟩
  have kept : logged.state.2 = log := shows.state
  have whole : logged.report = .tally tree policy log := by
    have counted : logged.report = ({} : WalkReport).merge (.tally tree policy log) :=
      shows.report
    rw [counted]
    simp [WalkReport.merge]
  clear_value walk logged
  subst same
  refine ⟨rfl, rfl, ?_⟩
  rw [kept, Walk.unlogged, whole]
  exact shows.shown.delivers rooted housed

/-- A walk that cannot enter the class passes over the two nodes in it. -/
theorem walk_delivers_refused_class :
    SymbolTable.empty.Reachable ∧
      let tree := (parseUnit {} .empty ⟨0⟩ "struct A { int x, y; } a;").tree
      let visitor : Visitor Nat := ⟨fun event _ _ count =>
        (if event = .enter ∧ count = 1 then some ⟨["full"]⟩ else none, count + 1)⟩
      let walk := tree.walk visitor .skipSubtree 0
      let logged := tree.walk visitor.logged .skipSubtree (0, [])
      logged.state.1 = walk.state ∧ logged.report = walk.report ∧
        tree.Delivers .skipSubtree logged.state.2 walk.report :=
  ⟨.empty, walk_delivers {} .empty ⟨0⟩ _ _ .skipSubtree 0⟩

example :
    let tree := (parseUnit {} .empty ⟨0⟩ "struct A { int x, y; } a;").tree
    let visitor : Visitor Nat := ⟨fun event _ _ count =>
      (if event = .enter ∧ count = 1 then some ⟨["full"]⟩ else none, count + 1)⟩
    let report := (tree.walk visitor .skipSubtree 0).report
    (report.entered, report.exited, report.accepted, report.skipped) = (2, 2, 1, 2) := by
  decide +kernel

end DeclTree
