import DeclTree.Proofs.Standing

/-!
# Factories and the scopes they serve

A factory serves one scope from the start, and a scope that has a factory has the one that
serves it.
-/

namespace DeclTree

namespace SymbolTable

/-- Whether every scope has a factory that serves it, if it has one. -/
def Homed (table : SymbolTable) : Prop :=
  ∀ id factory, table.factoryOf id = some factory → table.homeOf factory = some id

theorem Homed.congr {before after : SymbolTable} (homed : before.Homed)
    (factories : ∀ id, after.factoryOf id = before.factoryOf id)
    (homes : ∀ factory, after.homeOf factory = before.homeOf factory) : after.Homed := by
  intro id factory found
  rw [homes]
  rw [factories] at found
  exact homed id factory found

section Factories

variable {table after : SymbolTable}

theorem factoryOf_update {id : SymbolId} {change : Symbol → Symbol}
    (keeps : ∀ symbol, (change symbol).factory = symbol.factory) (other : SymbolId) :
    (table.update id change).factoryOf other = table.factoryOf other := by
  unfold factoryOf
  rw [get?_update]
  split
  · cases table.get? other <;> simp [keeps]
  · rfl

theorem factoryOf_attach (table : SymbolTable) (scope : SymbolId) (request : SymbolRequest)
    (other : SymbolId) : (table.attach scope request).2.factoryOf other =
      table.factoryOf other := by
  have extended : ({ table with
      symbols := table.symbols.push (.ofRequest (some scope) request) } :
        SymbolTable).factoryOf other = table.factoryOf other := by
    unfold factoryOf
    rw [get?_push]
    split
    · rename_i fresh
      have missing : table.get? other = none := by
        rw [fresh]
        simpa [Has] using table.not_has_fresh
      rw [missing]
      rfl
    · rfl
  rw [← extended]
  apply factoryOf_update
  intro symbol
  rfl

theorem factoryOf_relocate (table : SymbolTable) (id scope other : SymbolId) :
    (table.relocate id scope).factoryOf other = table.factoryOf other := by
  unfold factoryOf
  rw [get?_relocate]
  cases table.get? other with
  | none => rfl
  | some symbol =>
      simp only [Option.map_some, Option.bind_eq_bind, Option.bind_some]
      split <;> split <;> split <;> rfl

theorem homeOf_congr (same : after.factories = table.factories) (factory : FactoryId) :
    after.homeOf factory = table.homeOf factory := by
  simp [homeOf, factory?, same]

theorem homeOf_updateFactory {id : FactoryId} {change : TemplateFactory → TemplateFactory}
    (keeps : ∀ frames, (change frames).container = frames.container) (factory : FactoryId) :
    (table.updateFactory id change).homeOf factory = table.homeOf factory := by
  unfold homeOf
  rw [factory?_updateFactory]
  split
  · cases table.factory? factory <;> simp [keeps]
  · rfl

theorem container_popped (frames : TemplateFactory) :
    frames.popped.container = frames.container := by
  unfold TemplateFactory.popped TemplateFactory.pop?
  cases frames.stack <;> rfl

theorem container_discard (frames : TemplateFactory) (template : SymbolId) :
    (frames.discard template).container = frames.container := by
  unfold TemplateFactory.discard
  split <;> rfl

theorem homeOf_discardTemplate (table : SymbolTable) (factory other : FactoryId)
    (template : SymbolId) :
    (table.discardTemplate factory template).homeOf other = table.homeOf other :=
  homeOf_updateFactory (container_discard · template) other

theorem Homed.adopt (homed : table.Homed) {name : String} {id scope : SymbolId}
    (adopted : table.adopt name id scope = .ok after) : after.Homed := by
  apply homed.congr _ (homeOf_congr (factories_adopt adopted))
  intro other
  unfold SymbolTable.adopt at adopted
  split at adopted
  · obtain rfl := Except.ok.inj adopted
    apply factoryOf_update
    intro symbol
    rfl
  · obtain ⟨_, _, rfl⟩ := move_ok adopted
    exact factoryOf_relocate table id scope other

theorem Homed.closeFrames (homed : table.Homed) (factory : FactoryId) (target : SymbolId)
    (request : SymbolRequest) (inner : SymbolId) (frames : List SymbolId) :
    (closeFrames factory target request table inner frames).2.Homed := by
  induction frames generalizing table inner with
  | nil =>
      unfold SymbolTable.closeFrames
      split
      · exact homed
      · exact homed.adopt ‹_›
  | cons template outer ih =>
      have bound : ((table.updateFactory factory TemplateFactory.popped).bindTemplate request
          template inner).Homed := by
        refine homed.congr (fun other => ?_) (homeOf_updateFactory container_popped)
        change ((table.updateFactory factory TemplateFactory.popped).update template _).factoryOf
          other = (table.updateFactory factory TemplateFactory.popped).factoryOf other
        apply factoryOf_update
        intro symbol
        rfl
      unfold SymbolTable.closeFrames
      simp only
      split
      · exact bound
      · exact ih (bound.adopt ‹_›) template

theorem Homed.declare (homed : table.Homed) {scope id : SymbolId} {request : SymbolRequest}
    (declared : table.declare scope request = .ok (id, after)) : after.Homed := by
  obtain ⟨_, attached⟩ := attach_of_declare declared
  obtain ⟨rfl, rfl⟩ := Prod.mk.inj attached
  exact homed.congr (factoryOf_attach table scope request) fun _ => rfl

/-- A scope has its factory already, or gets a new one. -/
theorem factoryFor_cases {container : SymbolId} {factory : FactoryId}
    (created : table.factoryFor container = .ok (factory, after)) :
    (table.factoryOf container = some factory ∧ after = table) ∨
      (factory = ⟨table.factories.size⟩ ∧ after = ({ table with
          factories := table.factories.push { container := container } } : SymbolTable).update
        container fun symbol => { symbol with factory := some factory }) := by
  unfold SymbolTable.factoryFor at created
  cases inside : table.checkContainer container with
  | error _ => simp [inside, bind, Except.bind] at created
  | ok _ =>
      simp only [inside, bind, Except.bind, pure, Except.pure] at created
      cases existing : table.factoryOf container with
      | some old =>
          simp only [existing, Except.ok.injEq, Prod.mk.injEq] at created
          exact .inl ⟨congrArg some created.1, created.2.symm⟩
      | none =>
          simp only [existing, Except.ok.injEq, Prod.mk.injEq] at created
          obtain ⟨rfl, rfl⟩ := created
          exact .inr ⟨rfl, rfl⟩

theorem homeOf_factoryFor_of_some {container : SymbolId} {factory other : FactoryId}
    {home : SymbolId} (created : table.factoryFor container = .ok (factory, after))
    (served : table.homeOf other = some home) : after.homeOf other = some home := by
  rcases factoryFor_cases created with ⟨_, rfl⟩ | ⟨rfl, rfl⟩
  · exact served
  · have old : other ≠ ⟨table.factories.size⟩ := by
      rintro rfl
      simp [homeOf, factory?] at served
    change (({ table with factories := table.factories.push { container := container } } :
      SymbolTable).factory? other).map _ = _
    rw [factory?_push, if_neg old]
    exact served

/-- The factory of a scope serves that scope. -/
theorem homeOf_factoryFor {container : SymbolId} {factory : FactoryId} (homed : table.Homed)
    (created : table.factoryFor container = .ok (factory, after)) :
    after.homeOf factory = some container := by
  rcases factoryFor_cases created with ⟨found, rfl⟩ | ⟨rfl, rfl⟩
  · exact homed container factory found
  · change (({ table with factories := table.factories.push { container := container } } :
      SymbolTable).factory? _).map _ = _
    rw [factory?_push, if_pos rfl]
    rfl

theorem Homed.factoryFor {container : SymbolId} {factory : FactoryId} (homed : table.Homed)
    (created : table.factoryFor container = .ok (factory, after)) : after.Homed := by
  intro id other found
  rcases factoryFor_cases created with ⟨_, rfl⟩ | ⟨_, changed⟩
  · exact homed id other found
  · by_cases here : container = id
    · subst here
      have same : other = factory := by
        rw [changed, factoryOf, get?_update, if_pos rfl] at found
        cases there : table.get? container with
        | none =>
            have absent : ({ table with
              factories := table.factories.push { container := container } } :
                SymbolTable).get? container = none := there
            simp [absent] at found
        | some symbol =>
            have present : ({ table with
              factories := table.factories.push { container := container } } :
                SymbolTable).get? container = some symbol := there
            simp only [present, Option.map_some, Option.bind_eq_bind, Option.bind_some,
              Option.some.injEq] at found
            exact found.symm
      subst same
      exact homeOf_factoryFor homed created
    · have before : table.factoryOf id = some other := by
        rw [changed, factoryOf, get?_update, if_neg here] at found
        exact found
      exact homeOf_factoryFor_of_some created (homed id other before)

theorem Homed.openTemplate (homed : table.Homed) {factory : FactoryId} {unit : Option UnitId}
    {template : SymbolId} (opened : table.openTemplate factory unit = .ok (template, after)) :
    after.Homed := by
  obtain ⟨frames, _, _, rfl⟩ := openTemplate_ok opened
  exact homed.congr (factoryOf_attach table _ _) (homeOf_updateFactory fun _ => rfl)

theorem Homed.addParameter (homed : table.Homed) {template parameter : SymbolId}
    {request : SymbolRequest}
    (added : table.addParameter template request = .ok (parameter, after)) : after.Homed := by
  obtain ⟨extended, declared, rfl⟩ := addParameter_ok added
  refine (homed.declare declared).congr ?_ fun _ => rfl
  apply factoryOf_update
  intro symbol
  rfl

theorem Homed.declareTemplated (homed : table.Homed) (factory : FactoryId) (target : SymbolId)
    (request : SymbolRequest) : (table.declareTemplated factory target request).2.Homed := by
  unfold SymbolTable.declareTemplated
  split
  · exact homed
  · rename_i innermost frames _
    apply Homed.closeFrames
    exact homed.congr (factoryOf_attach table innermost request) fun _ => rfl

theorem Homed.settle {α : Type} (homed : table.Homed)
    {outcome : Except SymbolError (α × SymbolTable)}
    (changed : ∀ value after, outcome = .ok (value, after) → after.Homed) :
    (table.settle outcome).Homed := by
  cases outcome with
  | error _ => exact homed
  | ok result => exact changed result.1 result.2 rfl

theorem Homed.perform (homed : table.Homed) (operation : TableOperation) :
    (table.perform operation).Homed := by
  cases operation with
  | declare scope request => exact homed.settle fun _ _ => homed.declare
  | openNamespace scope name unit =>
      apply homed.settle
      intro _ _ opened
      rcases openNamespace_ok opened with ⟨_, rfl⟩ | declared
      · exact homed
      · exact homed.declare declared
  | move id scope =>
      apply homed.settle
      intro _ _ moved
      obtain ⟨_, _, rfl⟩ := move_ok (map_pair_ok moved)
      exact homed.congr (factoryOf_relocate table id scope)
        (homeOf_congr (factories_relocate table id scope))
  | addUsing scope target =>
      refine homed.congr ?_ fun _ => rfl
      apply factoryOf_update
      intro symbol
      rfl
  | setOrigin id origin =>
      apply homed.settle
      intro _ after changed
      rw [setOrigin_ok (map_pair_ok changed)]
      refine homed.congr ?_ fun _ => rfl
      apply factoryOf_update
      intro symbol
      rfl
  | factoryFor container => exact homed.settle fun _ _ => homed.factoryFor
  | openTemplate factory unit => exact homed.settle fun _ _ => homed.openTemplate
  | addParameter template request => exact homed.settle fun _ _ => homed.addParameter
  | declareTemplated factory target request =>
      exact homed.declareTemplated factory target request
  | popFrame factory => exact homed.congr (fun _ => rfl) (homeOf_updateFactory container_popped)
  | discardFrames factory template =>
      exact homed.congr (fun _ => rfl) fun other =>
        homeOf_discardTemplate table factory other template

/-- In every table that operations lead to, a scope's factory serves it. -/
theorem Reachable.homed (reached : table.Reachable) : table.Homed := by
  induction reached with
  | empty =>
      intro id factory found
      have missing : SymbolTable.empty.factoryOf id = none := by
        obtain ⟨index⟩ := id
        cases index with
        | zero => rfl
        | succ index => simp [factoryOf, get?, SymbolTable.empty]
      cases missing.symm.trans found
  | perform _ _ ih => exact ih.perform _

end Factories

end SymbolTable

end DeclTree
