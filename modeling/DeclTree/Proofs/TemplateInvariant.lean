import DeclTree.Proofs.TableInvariant

/-!
# Opening and closing templates keeps a table consistent

Frames are opened one inside the other and every template is created behind the
ones around it, so a template that is closed wraps a symbol created after
itself.  This holds also where closing the frames stops half way.
-/

namespace DeclTree

theorem TemplateFactory.Fits.popped {table : SymbolTable} {factory : TemplateFactory}
    (fits : factory.Fits table) : factory.popped.Fits table := by
  have suffix := factory.stack_popped_suffix
  have container : factory.popped.container = factory.container := by
    unfold TemplateFactory.popped pop?
    cases factory.stack <;> rfl
  exact ⟨container ▸ fits.container, fun template member =>
    fits.frames template (suffix.subset member), fits.descending.sublist suffix.sublist,
    fits.replays.popped⟩

theorem TemplateFactory.Fits.discard {table : SymbolTable} {factory : TemplateFactory}
    (fits : factory.Fits table) (template : SymbolId) : (factory.discard template).Fits table := by
  have suffix := factory.stack_discard_suffix template
  have container : (factory.discard template).container = factory.container := by
    unfold TemplateFactory.discard
    split <;> rfl
  exact ⟨container ▸ fits.container, fun frame member =>
    fits.frames frame (suffix.subset member), fits.descending.sublist suffix.sublist,
    fits.replays.discard template⟩

theorem Members.order_register (members : Members) (name : String) (symbol : SymbolId) :
    (members.register name symbol).order = members.order := by
  unfold Members.register
  split <;> rfl

namespace SymbolTable

theorem templated?_eq_some_iff {table : SymbolTable} {template inner : SymbolId} :
    table.templated? template = some inner ↔ ∃ symbol info, table.get? template = some symbol ∧
      symbol.kind = .template info ∧ info.templated = some inner := by
  unfold templated?
  cases table.get? template with
  | none => simp
  | some symbol => cases kind : symbol.kind <;> simp [kind, SymbolKind.templateInfo?]

theorem Consistent.popFrame {table : SymbolTable} (consistent : table.Consistent)
    (factory : FactoryId) :
    (table.updateFactory factory TemplateFactory.popped).Consistent :=
  consistent.updateFactory fun _ _ fits => fits.popped

theorem Consistent.discardTemplate {table : SymbolTable} (consistent : table.Consistent)
    (factory : FactoryId) (template : SymbolId) :
    (table.discardTemplate factory template).Consistent :=
  consistent.updateFactory fun _ _ fits => fits.discard template

/-- The scope that a new template is created in. -/
theorem Consistent.parent_scope {table : SymbolTable} (consistent : table.Consistent)
    {factory : FactoryId} {frames : TemplateFactory}
    (found : table.factory? factory = some frames) :
    table.HasScope (frames.current?.getD frames.container) := by
  have fits := consistent.factories factory frames found
  cases innermost : frames.current? with
  | none => exact fits.container
  | some template => exact fits.frames template (List.mem_of_head? innermost)

theorem factory?_attach (table : SymbolTable) (scope : SymbolId) (request : SymbolRequest)
    (factory : FactoryId) :
    (table.attach scope request).2.factory? factory = table.factory? factory :=
  rfl

/-- A new template stands inside the innermost open one of its factory, or in the
factory's scope. -/
theorem openTemplate_ok {table after : SymbolTable} {factory : FactoryId} {unit : Option UnitId}
    {template : SymbolId} (opened : table.openTemplate factory unit = .ok (template, after)) :
    ∃ frames, table.factory? factory = some frames ∧ template = ⟨table.size⟩ ∧
      after = (table.attach (frames.current?.getD frames.container)
        { name := "", kind := .template {}, unit := unit }).2.updateFactory factory
          (TemplateFactory.push · template) := by
  unfold SymbolTable.openTemplate at opened
  split at opened
  · simp at opened
  · rename_i frames found
    simp only [Except.ok.injEq, Prod.mk.injEq] at opened
    obtain ⟨rfl, rfl⟩ := opened
    exact ⟨frames, found, rfl, rfl⟩

theorem Consistent.openTemplate {table after : SymbolTable} (consistent : table.Consistent)
    {factory : FactoryId} {unit : Option UnitId} {template : SymbolId}
    (opened : table.openTemplate factory unit = .ok (template, after)) : after.Consistent := by
  obtain ⟨frames, found, rfl, rfl⟩ := openTemplate_ok opened
  have inside := consistent.parent_scope found
  have extended : (table.attach (frames.current?.getD frames.container)
      { name := "", kind := .template {}, unit := unit }).2.Consistent :=
    consistent.attach inside (by simp)
  apply extended.updateFactory
  intro before foundBefore fits
  -- The new template is a scope created after all others.
  rw [factory?_attach, found] at foundBefore
  obtain rfl := Option.some.inj foundBefore
  refine ⟨fits.container, ?_, ?_, fits.replays.push _⟩
  · intro frame member
    rcases List.mem_cons.1 member with rfl | member
    · exact (hasScope_attach inside.has _ _).2 (.inl ⟨rfl, rfl⟩)
    · exact fits.frames frame member
  · refine List.pairwise_cons.2 ⟨?_, fits.descending⟩
    intro frame member
    exact (table.has_iff_lt frame).1
      ((consistent.factories factory frames found).frames frame member).has

theorem addParameter_ok {table after : SymbolTable} {template parameter : SymbolId}
    {request : SymbolRequest}
    (added : table.addParameter template request = .ok (parameter, after)) :
    ∃ extended, table.declare template request = .ok (parameter, extended) ∧
      after = extended.update template fun symbol =>
        { symbol with
          kind := symbol.kind.mapTemplate fun info =>
            { info with parameters := info.parameters ++ [parameter] } } := by
  unfold SymbolTable.addParameter at added
  split at added
  · simp [throw, throwThe, MonadExceptOf.throw, bind, Except.bind] at added
  · cases declared : table.declare template request with
    | error _ => simp [declared, bind, Except.bind] at added
    | ok result =>
        obtain ⟨id, extended⟩ := result
        simp only [declared, bind, Except.bind, pure, Except.pure, Except.ok.injEq,
          Prod.mk.injEq] at added
        obtain ⟨rfl, rfl⟩ := added
        exact ⟨extended, rfl, rfl⟩

theorem Consistent.addParameter {table after : SymbolTable} (consistent : table.Consistent)
    {template parameter : SymbolId} {request : SymbolRequest}
    (plain : request.kind.templateInfo? = none)
    (added : table.addParameter template request = .ok (parameter, after)) :
    after.Consistent := by
  obtain ⟨extended, declared, rfl⟩ := addParameter_ok added
  have size : parameter.index < extended.size := by
    obtain ⟨_, attached⟩ := attach_of_declare declared
    obtain ⟨rfl, rfl⟩ := Prod.mk.inj attached
    simp [size, updateMembers, SymbolTable.update]
  apply (consistent.declare plain declared).update
  · intro symbol
    exact ⟨rfl, rfl⟩
  · intro symbol _ fits
    refine { fits with parameters := ?_, templated := ?_ }
    · intro info kind other member
      cases before : symbol.kind <;> simp only [before, SymbolKind.mapTemplate] at kind <;>
        cases kind
      rcases List.mem_append.1 member with member | member
      · exact fits.parameters _ before other member
      · rw [List.mem_singleton.1 member]
        exact size
    · intro info inner kind wraps
      cases before : symbol.kind <;> simp only [before, SymbolKind.mapTemplate] at kind <;>
        cases kind
      exact fits.templated _ inner before wraps

/-! ## Closing frames -/

theorem Consistent.bindTemplate {table : SymbolTable} (consistent : table.Consistent)
    (request : SymbolRequest) {template inner : SymbolId} (present : table.Has inner)
    (later : template.index < inner.index) :
    (table.bindTemplate request template inner).Consistent := by
  apply consistent.update
  · intro symbol
    exact ⟨rfl, rfl⟩
  · intro symbol _ fits
    refine { fits with parameters := ?_, templated := ?_ }
    · intro info kind parameter member
      cases before : symbol.kind <;> simp only [before, SymbolKind.mapTemplate] at kind <;>
        cases kind
      exact fits.parameters _ before parameter member
    · intro info wrapped kind wraps
      cases before : symbol.kind <;> simp only [before, SymbolKind.mapTemplate] at kind <;>
        cases kind
      obtain rfl := Option.some.inj wraps
      exact ⟨later, (table.has_iff_lt inner).1 present⟩

/-- Entering a name for a member keeps the table consistent. -/
theorem Consistent.register {table : SymbolTable} (consistent : table.Consistent)
    {name : String} {id scope : SymbolId} (owned : table.owner id = some scope) :
    (table.updateMembers scope (Members.register · name id)).Consistent := by
  apply consistent.update
  · intro symbol
    refine ⟨rfl, ?_⟩
    simp [Symbol.mapMembers, Function.comp_def, Members.order_register]
  · intro symbol found fits
    apply fits_mapMembers fits
    intro members kept entry member
    rw [Members.order_register]
    have child := (consistent.tree.mem_children scope id).2 owned
    have mem_order : id ∈ members.order := by
      simpa [children, members?, found, kept] using child
    unfold Members.register at member
    split at member
    · exact fits.names members kept entry member
    · rcases List.mem_append.1 member with member | member
      · exact fits.names members kept entry member
      · rw [List.mem_singleton.1 member]
        exact mem_order

theorem Consistent.adopt {table after : SymbolTable} (consistent : table.Consistent)
    {name : String} {id scope : SymbolId} (present : table.Has id)
    (adopted : table.adopt name id scope = .ok after) : after.Consistent := by
  unfold SymbolTable.adopt at adopted
  split at adopted
  · obtain rfl := Except.ok.inj adopted
    exact consistent.register ‹_›
  · exact consistent.move present adopted

theorem size_adopt {table after : SymbolTable} {name : String} {id scope : SymbolId}
    (adopted : table.adopt name id scope = .ok after) : after.size = table.size := by
  unfold SymbolTable.adopt at adopted
  split at adopted
  · obtain rfl := Except.ok.inj adopted
    simp [updateMembers]
  · obtain ⟨_, _, rfl⟩ := move_ok adopted
    exact size_relocate table id scope

theorem factories_adopt {table after : SymbolTable} {name : String} {id scope : SymbolId}
    (adopted : table.adopt name id scope = .ok after) : after.factories = table.factories := by
  unfold SymbolTable.adopt at adopted
  split at adopted
  · obtain rfl := Except.ok.inj adopted
    rfl
  · obtain ⟨_, _, rfl⟩ := move_ok adopted
    exact factories_relocate table id scope

theorem stack_popped {factory : TemplateFactory} {template : SymbolId} {outer : List SymbolId}
    (frames : factory.stack = template :: outer) : factory.popped.stack = outer := by
  simp [TemplateFactory.popped, TemplateFactory.pop?, frames]

/-- Closing the open frames of a factory, each around a symbol created after it,
keeps the table consistent, also where it stops early. -/
theorem Consistent.closeFrames {factory : FactoryId} {target : SymbolId}
    {request : SymbolRequest} {frames : List SymbolId} {table : SymbolTable} {inner : SymbolId}
    (consistent : table.Consistent) (present : table.Has inner)
    {opened : TemplateFactory} (found : table.factory? factory = some opened)
    (stack : opened.stack = frames) (later : ∀ template ∈ frames, template.index < inner.index) :
    (SymbolTable.closeFrames factory target request table inner frames).2.Consistent := by
  induction frames generalizing table inner opened with
  | nil =>
      unfold SymbolTable.closeFrames
      split
      · exact consistent
      · rename_i adopted
        exact consistent.adopt present adopted
  | cons template outer ih =>
      have below := later template (by simp)
      have bound : ((table.updateFactory factory TemplateFactory.popped).bindTemplate
          request template inner).Consistent :=
        (consistent.popFrame factory).bindTemplate request present below
      unfold SymbolTable.closeFrames
      simp only
      split
      · exact bound
      · rename_i adoptedTable adopted
        have size := size_adopt adopted
        have presentInner : ((table.updateFactory factory TemplateFactory.popped).bindTemplate
            request template inner).Has inner := by
          rw [has_iff_lt] at present ⊢
          rw [SymbolTable.bindTemplate, size_update]
          exact present
        have descending := (consistent.factories factory opened found).descending
        rw [stack] at descending
        have foundPopped : adoptedTable.factory? factory = some opened.popped := by
          have same := factories_adopt adopted
          simp only [factory?, same]
          have popped := factory?_updateFactory table factory factory TemplateFactory.popped
          simp only [if_true, found, Option.map_some] at popped
          exact popped
        refine ih (bound.adopt presentInner adopted) ?_ foundPopped (stack_popped stack) ?_
        · rw [has_iff_lt] at presentInner ⊢
          rw [size]
          exact Nat.lt_trans below presentInner
        · exact (List.pairwise_cons.1 descending).1

/-- What lets a declaration close the frames of a factory. -/
theorem openFrames_ok_iff {table : SymbolTable} {factory : FactoryId} {target : SymbolId}
    {request : SymbolRequest} {innermost : SymbolId} {frames : List SymbolId} :
    table.openFrames factory target request = .ok (innermost, frames) ↔
      ∃ opened outer, table.factory? factory = some opened ∧ opened.stack = frames ∧
        frames = innermost :: outer ∧ table.checkContainer target = .ok () ∧
        table.checkConflict target request.name (.ofRequest request true) = .ok () := by
  unfold openFrames
  cases found : table.factory? factory with
  | none => simp [throw, throwThe, MonadExceptOf.throw]
  | some opened =>
      cases stack : opened.stack with
      | nil =>
          simp only [stack, throw, throwThe, MonadExceptOf.throw, reduceCtorEq, false_iff]
          rintro ⟨_, _, ⟨⟩, rfl, empty, _⟩
          simp [stack] at empty
      | cons first outer =>
          cases table.checkContainer target with
          | error _ => simp [stack, bind, Except.bind]
          | ok _ =>
              cases table.checkConflict target request.name (.ofRequest request true) with
              | error _ => simp [stack, bind, Except.bind]
              | ok _ =>
                  simp only [stack, bind, Except.bind, pure, Except.pure, Except.ok.injEq,
                    Prod.mk.injEq, Option.some.injEq, and_true]
                  constructor
                  · rintro ⟨rfl, rfl⟩
                    exact ⟨opened, outer, rfl, stack, rfl⟩
                  · rintro ⟨_, _, rfl, rfl, frames⟩
                    rw [stack] at frames ⊢
                    cases frames
                    exact ⟨rfl, rfl⟩

theorem Consistent.declareTemplated {table : SymbolTable} (consistent : table.Consistent)
    (factory : FactoryId) (target : SymbolId) {request : SymbolRequest}
    (plain : request.kind.templateInfo? = none) :
    (table.declareTemplated factory target request).2.Consistent := by
  unfold SymbolTable.declareTemplated
  split
  · exact consistent
  · rename_i innermost frames checked
    obtain ⟨opened, outer, found, stack, rfl, _, _⟩ := openFrames_ok_iff.1 checked
    have fits := consistent.factories factory opened found
    have inside : ∀ template ∈ innermost :: outer, table.HasScope template := by
      rw [← stack]
      exact fits.frames
    have innermostScope := inside innermost (by simp)
    apply (consistent.attach innermostScope (plain_of_templateInfo? plain)).closeFrames
      _ found stack
    · intro template member
      exact (table.has_iff_lt template).1 (inside template member).has
    · exact (has_attach table innermost request _).2 (.inl rfl)

/-! ## All operations -/

theorem consistent_empty : SymbolTable.empty.Consistent := by
  have symbol {id : SymbolId} {symbol : Symbol} (found : SymbolTable.empty.get? id = some symbol) :
      id = root ∧ symbol = Symbol.ofRequest none { name := "", kind := .translationUnit } := by
    have present := (SymbolTable.empty.has_iff_lt id).1 (has_of_get? found)
    obtain rfl : id = root := by
      cases id
      simpa [root, SymbolTable.empty, size] using present
    exact ⟨rfl, (Option.some.inj found).symm⟩
  have free (id : SymbolId) : SymbolTable.empty.owner id = none := by
    cases owned : SymbolTable.empty.owner id with
    | none => rfl
    | some scope =>
        obtain ⟨entry, found, owner⟩ := owner_eq_some_iff.1 owned
        rw [(symbol found).2] at owner
        cases owner
  have childless (scope : SymbolId) : SymbolTable.empty.children scope = [] := by
    unfold children members?
    cases found : SymbolTable.empty.get? scope with
    | none => rfl
    | some entry =>
        rw [(symbol found).2]
        rfl
  refine ⟨⟨rfl, rfl, ?_, ?_, ?_, ?_, ?_⟩, ?_, ?_⟩
  · intro id present other
    obtain ⟨entry, found⟩ := Option.isSome_iff_exists.1 present
    exact absurd (symbol found).1 other
  · intro id scope owned
    simp [free] at owned
  · intro scope
    simp [childless]
  · intro scope id
    simp [childless, free]
  · intro id _
    exact ⟨[], .outermost (free id)⟩
  · intro id entry found
    rw [(symbol found).2]
    exact fits_ofRequest (by simp) _ _ _ _
  · intro id factory found
    simp [SymbolTable.empty, factory?] at found

theorem Consistent.settle {α : Type} {table : SymbolTable} (consistent : table.Consistent)
    {outcome : Except SymbolError (α × SymbolTable)}
    (changed : ∀ value after, outcome = .ok (value, after) → after.Consistent) :
    (table.settle outcome).Consistent := by
  cases outcome with
  | error _ => exact consistent
  | ok result => exact changed result.1 result.2 rfl

/-- No operation makes a consistent table inconsistent. -/
theorem Consistent.perform {table : SymbolTable} (consistent : table.Consistent)
    {operation : TableOperation} (admitted : table.Admits operation) :
    (table.perform operation).Consistent := by
  cases operation with
  | declare scope request =>
      exact consistent.settle fun _ _ declared => consistent.declare admitted declared
  | openNamespace scope name unit =>
      exact consistent.settle fun _ _ opened => consistent.openNamespace opened
  | move id scope =>
      exact consistent.settle fun _ _ moved => consistent.move admitted (map_pair_ok moved)
  | addUsing scope target => exact consistent.addUsing scope admitted
  | setOrigin id origin =>
      apply consistent.settle
      intro _ after changed
      rw [setOrigin_ok (map_pair_ok changed)]
      exact consistent.updateOrigin id fun _ => origin
  | factoryFor container =>
      exact consistent.settle fun _ _ created => consistent.factoryFor created
  | openTemplate factory unit =>
      exact consistent.settle fun _ _ opened => consistent.openTemplate opened
  | addParameter template request =>
      exact consistent.settle fun _ _ added => consistent.addParameter admitted added
  | declareTemplated factory target request =>
      exact consistent.declareTemplated factory target admitted
  | popFrame factory => exact consistent.popFrame factory
  | discardFrames factory template => exact consistent.discardTemplate factory template

/-- Every table that operations lead to is consistent. -/
theorem Reachable.consistent {table : SymbolTable} (reached : table.Reachable) :
    table.Consistent := by
  induction reached with
  | empty => exact consistent_empty
  | perform _ admitted ih => exact ih.perform admitted

end SymbolTable

end DeclTree
