import DeclTree.Proofs.LookupTermination

/-!
# Refused operations

An operation that is refused leaves the table as it was, with one exception.  A
declaration behind template prefixes moves the open templates to their places one
after the other, and finds out only there whether one of them would come to lie
inside itself.  By then the declaration is in the table and frames are closed.
-/

namespace DeclTree

def refusalOf {α : Type} : Except SymbolError α → Option SymbolError
  | .ok _ => none
  | .error error => some error

namespace SymbolTable

def refusal? (table : SymbolTable) : TableOperation → Option SymbolError
  | .declare scope request => refusalOf (table.declare scope request)
  | .openNamespace scope name unit => refusalOf (table.openNamespace scope name unit)
  | .move id scope => refusalOf (table.move id scope)
  | .setOrigin id origin => refusalOf (table.setOrigin id origin)
  | .factoryFor container => refusalOf (table.factoryFor container)
  | .openTemplate factory unit => refusalOf (table.openTemplate factory unit)
  | .addParameter template request => refusalOf (table.addParameter template request)
  | .declareTemplated factory target request =>
      refusalOf (table.declareTemplated factory target request).1
  | .popFrame factory =>
      (table.factory? factory).bind fun frames =>
        if frames.pop?.isNone then some .emptyFactoryStack else none
  | .addUsing _ _ | .discardFrames _ _ => none

/-- Scopes that are to be put one into the next, where none lies inside an
earlier one already. -/
def Nestable (table : SymbolTable) (scopes : List SymbolId) : Prop :=
  scopes.Pairwise fun inner outer => inner ∉ outer :: table.ancestors outer

/-- Whether a declaration behind template prefixes passes the checks although
its templates and its target cannot be put one into the next. -/
def Entangles (table : SymbolTable) (factory : FactoryId) (target : SymbolId)
    (request : SymbolRequest) : Prop :=
  ∃ innermost frames, table.openFrames factory target request = .ok (innermost, frames) ∧
    ¬ table.Nestable (frames ++ [target])

theorem settle_of_refusal {α : Type} {table : SymbolTable}
    {outcome : Except SymbolError (α × SymbolTable)} {error : SymbolError}
    (refused : refusalOf outcome = some error) : table.settle outcome = table := by
  cases outcome with
  | ok _ => cases refused
  | error _ => rfl

theorem settle_map_of_refusal {table : SymbolTable} {outcome : Except SymbolError SymbolTable}
    {error : SymbolError} (refused : refusalOf outcome = some error) :
    table.settle (outcome.map ((), ·)) = table := by
  cases outcome with
  | ok _ => cases refused
  | error _ => rfl

theorem updateFactory_eq_self {table : SymbolTable} {id : FactoryId}
    {change : TemplateFactory → TemplateFactory}
    (same : ∀ frames, table.factory? id = some frames → change frames = frames) :
    table.updateFactory id change = table := by
  have factories : (table.updateFactory id change).factories = table.factories := by
    apply Array.ext_getElem?
    intro index
    have changed := factory?_updateFactory table id ⟨index⟩ change
    simp only [factory?] at changed
    rw [changed]
    split
    · rename_i equal
      subst equal
      cases found : table.factories[index]? with
      | none => rfl
      | some frames => exact congrArg some (same frames found)
    · rfl
  cases table
  simp_all [SymbolTable.updateFactory]

theorem popFrame_of_refusal {table : SymbolTable} {factory : FactoryId} {error : SymbolError}
    (refused : table.refusal? (.popFrame factory) = some error) :
    table.updateFactory factory TemplateFactory.popped = table := by
  apply updateFactory_eq_self
  intro frames found
  simp only [refusal?, found, Option.bind_some, Option.ite_none_right_eq_some,
    Option.isNone_iff_eq_none] at refused
  simp [TemplateFactory.popped, refused.1]

/-! ## Chains of owners across one change -/

namespace OwnershipTree

theorem not_mem_ancestors {table : SymbolTable} (tree : table.OwnershipTree) {id : SymbolId}
    (present : table.Has id) : id ∉ table.ancestors id :=
  (tree.ownedThrough_ancestors present).not_mem

/-- The scopes around a symbol stay where their owners stay. -/
theorem ancestors_congr {before after : SymbolTable} (tree : before.OwnershipTree)
    (treeAfter : after.OwnershipTree) {id : SymbolId} (present : before.Has id)
    (same : ∀ other ∈ id :: before.ancestors id, after.owner other = before.owner other)
    (presentAfter : after.Has id) : after.ancestors id = before.ancestors id := by
  have through := (tree.ownedThrough_ancestors present).congr same
  exact (treeAfter.ownedThrough_ancestors presentAfter).unique through

/-- Whatever lies inside a moved symbol lies inside its new scope. -/
theorem mem_ancestors_of_moved {before after : SymbolTable} (tree : before.OwnershipTree)
    (treeAfter : after.OwnershipTree) {moved scope : SymbolId}
    (owners : ∀ other, after.owner other = if moved = other then some scope
      else before.owner other)
    {id : SymbolId} (present : before.Has id) (inside : moved ∈ id :: before.ancestors id) :
    scope ∈ after.ancestors id := by
  have through := tree.ownedThrough_ancestors present
  generalize before.ancestors id = chain at through inside
  induction through with
  | @outermost id _ =>
      obtain rfl := List.mem_singleton.1 inside
      rw [treeAfter.ancestors_eq (by rw [owners, if_pos rfl])]
      exact List.mem_cons_self
  | @inside id outer chain owned _ ih =>
      by_cases same : moved = id
      · rw [treeAfter.ancestors_eq (by rw [owners, if_pos same])]
        exact List.mem_cons_self
      · have further : moved ∈ outer :: chain := by
          rcases List.mem_cons.1 inside with equal | further
          · exact absurd equal same
          · exact further
        rw [treeAfter.ancestors_eq (by rw [owners, if_neg same, owned])]
        exact List.mem_cons_of_mem _ (ih (tree.owner_scope _ _ owned).has further)

end OwnershipTree

/-! ## Putting one symbol into a scope -/

/-- One table with the same scopes as another, and the same owners but for one
symbol. -/
structure Adopted (before after : SymbolTable) (id scope : SymbolId) : Prop where
  tree : after.OwnershipTree
  scopes : ∀ other, after.HasScope other ↔ before.HasScope other
  owners : ∀ other, after.owner other = if id = other then some scope else before.owner other

theorem move_of_inside {table : SymbolTable} {id scope : SymbolId}
    (container : table.HasScope scope) (inside : id ∈ scope :: table.ancestors scope) :
    table.move id scope = .error (.cyclicScope (table.qualifiedName id)) := by
  have around : id = scope ∨ id ∈ table.ancestors scope := List.mem_cons.1 inside
  simp only [SymbolTable.move, checkContainer_ok_iff.2 container, bind, Except.bind]
  rw [if_pos around]
  rfl

theorem move_of_outside {table : SymbolTable} {id scope : SymbolId}
    (container : table.HasScope scope) (outside : id ∉ scope :: table.ancestors scope) :
    table.move id scope = .ok (table.relocate id scope) := by
  have around : ¬ (id = scope ∨ id ∈ table.ancestors scope) := by
    rwa [← List.mem_cons]
  simp only [SymbolTable.move, checkContainer_ok_iff.2 container, bind, Except.bind]
  rw [if_neg around]
  rfl

/-- A scope adopts every symbol that it does not lie inside of, and refuses the
others. -/
theorem adopt_cases {table : SymbolTable} (tree : table.OwnershipTree) (name : String)
    {id scope : SymbolId} (present : table.Has id) (container : table.HasScope scope) :
    (id ∈ scope :: table.ancestors scope ∧
      ∃ text, table.adopt name id scope = .error (.cyclicScope text)) ∨
    (id ∉ scope :: table.ancestors scope ∧
      ∃ after, table.adopt name id scope = .ok after ∧ Adopted table after id scope) := by
  unfold SymbolTable.adopt
  by_cases owned : table.owner id = some scope
  · have outside : id ∉ scope :: table.ancestors scope := by
      rw [← tree.ancestors_eq owned]
      exact tree.not_mem_ancestors present
    have same : ∀ other, (table.updateMembers scope (Members.register · name id)).shape other =
        table.shape other := by
      apply shape_update_of_eq
      intro symbol
      refine ⟨rfl, ?_⟩
      simp [Symbol.mapMembers, Function.comp_def, Members.order_register]
    rw [if_pos owned]
    refine .inr ⟨outside, _, rfl, tree.congr same, hasScope_of_shape same, ?_⟩
    intro other
    rw [owner_eq_shape, same, ← owner_eq_shape]
    split
    · rename_i equal
      rw [← equal, owned]
    · rfl
  · rw [if_neg owned]
    by_cases inside : id ∈ scope :: table.ancestors scope
    · exact .inl ⟨inside, _, move_of_inside container inside⟩
    · refine .inr ⟨inside, _, move_of_outside container inside, ?_, ?_, ?_⟩
      · exact tree.relocate present container inside
      · exact hasScope_relocate table id scope
      · exact owner_relocate present scope

/-- What a scope adopts depends on owners and members only. -/
theorem adopt_cases_of_shape {table changed : SymbolTable} (tree : table.OwnershipTree)
    (same : ∀ id, changed.shape id = table.shape id) (name : String) {id scope : SymbolId}
    (present : table.Has id) (container : table.HasScope scope) :
    (id ∈ scope :: table.ancestors scope ∧
      ∃ text, changed.adopt name id scope = .error (.cyclicScope text)) ∨
    (id ∉ scope :: table.ancestors scope ∧
      ∃ after, changed.adopt name id scope = .ok after ∧ Adopted table after id scope) := by
  have owners (other : SymbolId) : changed.owner other = table.owner other := by
    rw [owner_eq_shape, same, ← owner_eq_shape]
  have presentChanged : changed.Has id := by
    rw [has_iff_shape, same, ← has_iff_shape]
    exact present
  have containerChanged := (hasScope_of_shape same scope).2 container
  have ancestors : changed.ancestors scope = table.ancestors scope :=
    tree.ancestors_congr (tree.congr same) container.has (fun other _ => owners other)
      containerChanged.has
  have cases := adopt_cases (tree.congr same) name presentChanged containerChanged
  rw [ancestors] at cases
  refine cases.imp_right ?_
  rintro ⟨outside, after, adopted, moved⟩
  refine ⟨outside, after, adopted, moved.tree, ?_, ?_⟩
  · intro other
    rw [moved.scopes, hasScope_of_shape same]
  · intro other
    rw [moved.owners, owners]

/-- Once the innermost of some scopes is put into the next, the others can be put
one into the next exactly if all of them could before. -/
theorem Adopted.nestable_iff {before after : SymbolTable} {id scope : SymbolId}
    (adopted : Adopted before after id scope) (tree : before.OwnershipTree)
    (outside : id ∉ scope :: before.ancestors scope) {rest : List SymbolId}
    (scopes : ∀ other ∈ scope :: rest, before.HasScope other) :
    after.Nestable (scope :: rest) ↔ before.Nestable (id :: scope :: rest) := by
  have unchanged (other : SymbolId) (member : other ∈ scope :: rest)
      (apart : id ∉ other :: before.ancestors other) :
      after.ancestors other = before.ancestors other := by
    have here := scopes other member
    refine tree.ancestors_congr adopted.tree here.has ?_ ((adopted.scopes other).2 here).has
    intro outer around
    rw [adopted.owners, if_neg]
    rintro rfl
    exact apart around
  unfold Nestable
  rw [List.pairwise_cons (a := id)]
  constructor
  · intro nestable
    have apart : ∀ other ∈ scope :: rest, id ∉ other :: before.ancestors other := by
      intro other member inside
      rcases List.mem_cons.1 member with rfl | later
      · exact outside inside
      · apply (List.pairwise_cons.1 nestable).1 other later
        exact List.mem_cons_of_mem _ (tree.mem_ancestors_of_moved adopted.tree adopted.owners
          (scopes other member).has inside)
    refine ⟨apart, nestable.imp_of_mem ?_⟩
    intro inner outer _ member
    rw [unchanged outer member (apart outer member)]
    exact fun free => free
  · rintro ⟨apart, nestable⟩
    refine nestable.imp_of_mem ?_
    intro inner outer _ member
    rw [unchanged outer member (apart outer member)]
    exact fun free => free

/-! ## Closing all frames -/

/-- The frames of a factory can be closed around a symbol exactly if everything
can be put one into the next; if not, the work stops at a scope that would come
to lie inside itself. -/
theorem closeFrames_cases (factory : FactoryId) (target : SymbolId) (request : SymbolRequest)
    {table : SymbolTable} (tree : table.OwnershipTree) {inner : SymbolId}
    (present : table.Has inner) {frames : List SymbolId}
    (scopes : ∀ scope ∈ frames ++ [target], table.HasScope scope) :
    (¬ table.Nestable (inner :: frames ++ [target]) ∧
      ∃ text, (closeFrames factory target request table inner frames).1 =
        .error (.cyclicScope text)) ∨
    (table.Nestable (inner :: frames ++ [target]) ∧
      (closeFrames factory target request table inner frames).1 = .ok ()) := by
  induction frames generalizing table inner with
  | nil =>
      have container := scopes target (by simp)
      have single : table.Nestable [inner, target] ↔ inner ∉ target :: table.ancestors target := by
        simp [Nestable]
      unfold closeFrames
      rcases adopt_cases tree request.name present container with
        ⟨inside, text, refused⟩ | ⟨outside, after, adopted, _⟩
      · exact .inl ⟨fun nests => single.1 nests inside, text, by rw [refused]⟩
      · exact .inr ⟨single.2 outside, by rw [adopted]⟩
  | cons template outer ih =>
      have container := scopes template (by simp)
      unfold closeFrames
      simp only
      generalize bound : (table.updateFactory factory TemplateFactory.popped).bindTemplate request
        template inner = changed
      have same (other : SymbolId) : changed.shape other = table.shape other := by
        rw [← bound, bindTemplate]
        apply shape_update_of_eq
        intro symbol
        exact ⟨rfl, rfl⟩
      rcases adopt_cases_of_shape tree same request.name present container with
        ⟨inside, text, refused⟩ | ⟨outside, after, adopted, moved⟩
      · refine .inl ⟨fun nests => ?_, text, by rw [refused]⟩
        exact (List.pairwise_cons.1 nests).1 template (by simp) inside
      · rw [adopted]
        have nests : after.Nestable (template :: (outer ++ [target])) ↔
            table.Nestable (inner :: template :: (outer ++ [target])) :=
          moved.nestable_iff tree outside scopes
        rw [List.cons_append, List.cons_append, ← nests]
        apply ih moved.tree ((moved.scopes template).2 container).has
        intro scope member
        exact (moved.scopes scope).2 (scopes scope (List.mem_cons_of_mem _ member))

theorem size_closeFrames (factory : FactoryId) (target : SymbolId) (request : SymbolRequest)
    (table : SymbolTable) (inner : SymbolId) (frames : List SymbolId) :
    (closeFrames factory target request table inner frames).2.size = table.size := by
  induction frames generalizing table inner with
  | nil =>
      unfold closeFrames
      split
      · rfl
      · rename_i adopted
        exact size_adopt adopted
  | cons template outer ih =>
      have bound : ((table.updateFactory factory TemplateFactory.popped).bindTemplate request
          template inner).size = table.size := size_update _ _ _
      unfold closeFrames
      simp only
      split
      · exact bound
      · rename_i adopted
        rw [ih, size_adopt adopted, bound]

/-- A symbol that was just added lies around nothing. -/
theorem nestable_attach_iff {table : SymbolTable} (tree : table.OwnershipTree)
    {innermost : SymbolId} (container : table.HasScope innermost) (request : SymbolRequest)
    {scopes : List SymbolId} (present : ∀ scope ∈ scopes, table.Has scope) :
    (table.attach innermost request).2.Nestable (⟨table.size⟩ :: scopes) ↔
      table.Nestable scopes := by
  have fresh : ¬ table.Has ⟨table.size⟩ := table.not_has_fresh
  have ancestors (scope : SymbolId) (member : scope ∈ scopes) :
      (table.attach innermost request).2.ancestors scope = table.ancestors scope := by
    have here := present scope member
    refine tree.ancestors_congr (tree.attach container request) here ?_
      ((has_attach table innermost request scope).2 (.inr here))
    intro other around
    rw [owner_attach container.has, if_neg]
    rintro rfl
    exact fresh (tree.has_of_chain (tree.ownedThrough_ancestors here) here _ around)
  have apart : ∀ scope ∈ scopes,
      (⟨table.size⟩ : SymbolId) ∉ scope :: (table.attach innermost request).2.ancestors scope := by
    intro scope member around
    have here := present scope member
    rw [ancestors scope member] at around
    exact fresh (tree.has_of_chain (tree.ownedThrough_ancestors here) here _ around)
  unfold Nestable
  rw [List.pairwise_cons]
  constructor
  · rintro ⟨_, nests⟩
    refine nests.imp_of_mem ?_
    intro inner outer _ member
    rw [ancestors outer member]
    exact fun free => free
  · intro nests
    refine ⟨apart, nests.imp_of_mem ?_⟩
    intro inner outer _ member
    rw [ancestors outer member]
    exact fun free => free

theorem declareTemplated_of_openFrames {table : SymbolTable} {factory : FactoryId}
    {target : SymbolId} {request : SymbolRequest} {innermost : SymbolId} {frames : List SymbolId}
    (checked : table.openFrames factory target request = .ok (innermost, frames)) :
    table.declareTemplated factory target request =
      ((closeFrames factory target request (table.attach innermost request).2 ⟨table.size⟩
        frames).1.map fun _ => ⟨table.size⟩,
      (closeFrames factory target request (table.attach innermost request).2 ⟨table.size⟩
        frames).2) := by
  simp only [declareTemplated, checked]
  rfl

/-- Behind all checks, a declaration behind template prefixes is refused exactly
if templates and target cannot be put one into the next. -/
theorem Consistent.declareTemplated_cases {table : SymbolTable} (consistent : table.Consistent)
    {factory : FactoryId} {target : SymbolId} {request : SymbolRequest} {innermost : SymbolId}
    {frames : List SymbolId}
    (checked : table.openFrames factory target request = .ok (innermost, frames)) :
    (table.perform (.declareTemplated factory target request)).size = table.size + 1 ∧
    ((¬ table.Nestable (frames ++ [target]) ∧
      ∃ text, table.refusal? (.declareTemplated factory target request) =
        some (.cyclicScope text)) ∨
    (table.Nestable (frames ++ [target]) ∧
      table.refusal? (.declareTemplated factory target request) = none)) := by
  obtain ⟨opened, outer, found, stack, nonempty, container, _⟩ := openFrames_ok_iff.1 checked
  have scopes : ∀ scope ∈ frames ++ [target], table.HasScope scope := by
    intro scope member
    rcases List.mem_append.1 member with frame | last
    · rw [← stack] at frame
      exact (consistent.factories factory opened found).frames scope frame
    · rw [List.mem_singleton.1 last]
      exact checkContainer_ok_iff.1 container
  have innermostScope := scopes innermost (by simp [nonempty])
  have closing := closeFrames_cases factory target request
    (consistent.tree.attach innermostScope request)
    ((has_attach table innermost request _).2 (.inl rfl))
    (fun scope member => (hasScope_attach innermostScope.has request scope).2
      (.inr (scopes scope member)))
  rw [List.cons_append, nestable_attach_iff consistent.tree innermostScope request
    fun scope member => (scopes scope member).has] at closing
  have result := declareTemplated_of_openFrames checked
  constructor
  · rw [SymbolTable.perform, result, size_closeFrames, size_attach]
  · rw [refusal?, result]
    rcases closing with ⟨entangled, text, refused⟩ | ⟨nests, closed⟩
    · exact .inl ⟨entangled, text, by rw [refused]; rfl⟩
    · exact .inr ⟨nests, by rw [closed]; rfl⟩

/-- A refused operation leaves the table as it was, except for a declaration
behind template prefixes that passes all checks and then finds a template or the
target inside another template that has to move there. -/
theorem refused_changes_iff {table : SymbolTable} (reached : table.Reachable)
    (operation : TableOperation) :
    ((∃ error, table.refusal? operation = some error) ∧ table.perform operation ≠ table) ↔
      ∃ factory target request, operation = .declareTemplated factory target request ∧
        table.Entangles factory target request := by
  constructor
  · rintro ⟨⟨error, refused⟩, changed⟩
    cases operation with
    | declare | openNamespace | factoryFor | openTemplate | addParameter =>
        exact absurd (settle_of_refusal refused) changed
    | move | setOrigin => exact absurd (settle_map_of_refusal refused) changed
    | popFrame => exact absurd (popFrame_of_refusal refused) changed
    | addUsing | discardFrames => cases refused
    | declareTemplated factory target request =>
        refine ⟨factory, target, request, rfl, ?_⟩
        cases checked : table.openFrames factory target request with
        | error _ =>
            refine absurd ?_ changed
            simp only [perform, SymbolTable.declareTemplated, checked]
        | ok opened =>
            obtain ⟨innermost, frames⟩ := opened
            refine ⟨innermost, frames, checked, ?_⟩
            rcases (reached.consistent.declareTemplated_cases checked).2 with
              ⟨entangled, _⟩ | ⟨_, accepted⟩
            · exact entangled
            · rw [accepted] at refused
              cases refused
  · rintro ⟨factory, target, request, rfl, innermost, frames, checked, entangled⟩
    obtain ⟨grows, outcome⟩ := reached.consistent.declareTemplated_cases checked
    constructor
    · rcases outcome with ⟨_, text, refused⟩ | ⟨nests, _⟩
      · exact ⟨_, refused⟩
      · exact absurd nests entangled
    · intro same
      rw [same] at grows
      omega

/-- A template that is to become a member of itself is refused, yet it has a name
and a member afterwards and its frame is gone. -/
theorem refused_changes_self :
    let table := ([.factoryFor root, .openTemplate ⟨0⟩ none] : List TableOperation).foldl
      SymbolTable.perform .empty
    let operation := TableOperation.declareTemplated ⟨0⟩ ⟨1⟩ { name := "f", kind := .function }
    table.Reachable ∧ (∃ error, table.refusal? operation = some error) ∧
      table.perform operation ≠ table := by
  intro table operation
  have reached : table.Reachable := by
    simp only [table, List.foldl]
    refine .perform (.perform .empty ?_) ?_
    · trivial
    · trivial
  have checked : table.openFrames ⟨0⟩ ⟨1⟩ { name := "f", kind := .function } =
      .ok (⟨1⟩, [⟨1⟩]) := by decide
  refine ⟨reached, (refused_changes_iff reached operation).2 ⟨_, _, _, rfl, _, _, checked, ?_⟩⟩
  simp [Nestable]

end SymbolTable

end DeclTree
