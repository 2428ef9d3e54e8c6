import DeclTree.Proofs.TemplateInvariant

/-!
# The open templates of all factories

Declarations leave the open templates of every factory alone, a declaration
behind template prefixes closes some of them, innermost first, and a template
that is opened and given up later leaves no frame behind.
-/

namespace DeclTree

namespace SymbolTable

/-- The open templates of a factory, innermost first. -/
def stackOf (table : SymbolTable) (factory : FactoryId) : List SymbolId :=
  ((table.factory? factory).map TemplateFactory.stack).getD []

/-- Whether every template open in a table was open before. -/
def StacksWithin (before after : SymbolTable) : Prop :=
  ∀ factory, after.stackOf factory <:+ before.stackOf factory

theorem StacksWithin.trans {first second third : SymbolTable}
    (left : StacksWithin first second) (right : StacksWithin second third) :
    StacksWithin first third :=
  fun factory => (right factory).trans (left factory)

theorem stacksWithin_of_eq {before after : SymbolTable}
    (same : ∀ factory, after.stackOf factory = before.stackOf factory) :
    before.StacksWithin after :=
  fun factory => same factory ▸ List.suffix_refl _

theorem stackOf_congr {before after : SymbolTable} (same : after.factories = before.factories)
    (factory : FactoryId) : after.stackOf factory = before.stackOf factory := by
  simp [stackOf, factory?, same]

theorem stackOf_updateFactory (table : SymbolTable) (id factory : FactoryId)
    (change : TemplateFactory → TemplateFactory) :
    (table.updateFactory id change).stackOf factory =
      if id = factory then
        ((table.factory? factory).map fun frames => (change frames).stack).getD []
      else table.stackOf factory := by
  unfold stackOf
  rw [factory?_updateFactory]
  split
  · rw [Option.map_map]
    rfl
  · rfl

/-! ## Operations that keep the open templates -/

theorem stackOf_settle {α : Type} {table : SymbolTable} {factory : FactoryId}
    {outcome : Except SymbolError (α × SymbolTable)}
    (same : ∀ value after, outcome = .ok (value, after) →
      after.stackOf factory = table.stackOf factory) :
    (table.settle outcome).stackOf factory = table.stackOf factory := by
  cases outcome with
  | error _ => rfl
  | ok result => exact same result.1 result.2 rfl

theorem stackOf_declare {table after : SymbolTable} {scope id : SymbolId}
    {request : SymbolRequest} (declared : table.declare scope request = .ok (id, after))
    (factory : FactoryId) : after.stackOf factory = table.stackOf factory := by
  obtain ⟨_, attached⟩ := attach_of_declare declared
  obtain ⟨rfl, rfl⟩ := Prod.mk.inj attached
  rfl

/-- A new factory has no open template. -/
theorem stackOf_factoryFor {table after : SymbolTable} {container : SymbolId} {id : FactoryId}
    (created : table.factoryFor container = .ok (id, after)) (factory : FactoryId) :
    after.stackOf factory = table.stackOf factory := by
  obtain ⟨_, rfl | rfl⟩ := factoryFor_ok created
  · rfl
  · have pushed := factory?_push table { container := container } factory
    unfold stackOf
    change (Option.map _ (({ table with
      factories := table.factories.push { container := container } } :
        SymbolTable).factory? factory)).getD [] = _
    rw [pushed]
    split
    · rename_i fresh
      subst fresh
      simp [factory?]
    · rfl

end SymbolTable

/-- Whether an operation declares something without touching open templates. -/
def TableOperation.KeepsFrames : TableOperation → Prop
  | .declare .. | .openNamespace .. | .addUsing .. | .setOrigin .. | .factoryFor ..
  | .addParameter .. => True
  | _ => False

namespace SymbolTable

/-- Declaring things leaves the open templates alone. -/
theorem stackOf_perform (table : SymbolTable) {operation : TableOperation}
    (keeps : operation.KeepsFrames) (factory : FactoryId) :
    (table.perform operation).stackOf factory = table.stackOf factory := by
  cases operation with
  | declare scope request =>
      exact stackOf_settle fun _ _ declared => stackOf_declare declared factory
  | openNamespace scope name unit =>
      apply stackOf_settle
      intro id after opened
      rcases openNamespace_ok opened with ⟨_, rfl⟩ | declared
      · rfl
      · exact stackOf_declare declared factory
  | addUsing scope target => rfl
  | setOrigin id origin =>
      apply stackOf_settle
      intro _ after changed
      rw [setOrigin_ok (map_pair_ok changed)]
      rfl
  | factoryFor container =>
      exact stackOf_settle fun _ _ created => stackOf_factoryFor created factory
  | addParameter template request =>
      apply stackOf_settle
      intro parameter after added
      obtain ⟨extended, declared, rfl⟩ := addParameter_ok added
      exact stackOf_declare declared factory
  | move | openTemplate | declareTemplated | popFrame | discardFrames => exact keeps.elim

/-! ## Closing templates -/

theorem stacksWithin_popFrame (table : SymbolTable) (factory : FactoryId) :
    table.StacksWithin (table.updateFactory factory TemplateFactory.popped) := by
  intro other
  rw [stackOf_updateFactory]
  split
  · unfold stackOf
    cases table.factory? other with
    | none => exact List.suffix_refl _
    | some frames => exact frames.stack_popped_suffix
  · exact List.suffix_refl _

theorem stacksWithin_closeFrames (factory : FactoryId) (target : SymbolId)
    (request : SymbolRequest) (frames : List SymbolId) (table : SymbolTable) (inner : SymbolId) :
    table.StacksWithin (closeFrames factory target request table inner frames).2 := by
  induction frames generalizing table inner with
  | nil =>
      unfold closeFrames
      split
      · exact fun _ => List.suffix_refl _
      · rename_i adopted
        exact stacksWithin_of_eq (stackOf_congr (factories_adopt adopted))
  | cons template outer ih =>
      have popped := table.stacksWithin_popFrame factory
      unfold closeFrames
      simp only
      split
      · exact popped
      · rename_i adopted
        apply popped.trans
        apply StacksWithin.trans _ (ih _ _)
        apply stacksWithin_of_eq
        intro other
        rw [stackOf_congr (factories_adopt adopted)]
        rfl

/-- A declaration behind template prefixes opens no template. -/
theorem stacksWithin_declareTemplated (table : SymbolTable) (factory : FactoryId)
    (target : SymbolId) (request : SymbolRequest) :
    table.StacksWithin (table.perform (.declareTemplated factory target request)) := by
  simp only [perform, SymbolTable.declareTemplated]
  split
  · exact fun _ => List.suffix_refl _
  · exact stacksWithin_closeFrames _ _ _ _ _ _

/-! ## Opening a template and giving it up -/

theorem stackOf_openTemplate {table after : SymbolTable} {factory : FactoryId}
    {unit : Option UnitId} {template : SymbolId}
    (opened : table.openTemplate factory unit = .ok (template, after)) (other : FactoryId) :
    after.stackOf other =
      if factory = other then template :: table.stackOf other else table.stackOf other := by
  obtain ⟨frames, found, rfl, rfl⟩ := openTemplate_ok opened
  rw [stackOf_updateFactory]
  split
  · rename_i same
    subst same
    simp only [factory?_attach, stackOf, found, Option.map_some, Option.getD_some]
    rfl
  · rfl

/-- Behind a template given up, what is left of the frames around it is open. -/
theorem stack_discard_suffix_of_cons {frames : TemplateFactory} {template : SymbolId}
    {outer : List SymbolId} (within : frames.stack <:+ template :: outer) :
    (frames.discard template).stack <:+ outer := by
  rcases List.suffix_cons_iff.1 within with whole | inner
  · exact frames.stack_discard_cons whole ▸ List.suffix_refl _
  · exact (frames.stack_discard_suffix template).trans inner

/-- A template that is opened and given up later leaves no frame behind. -/
theorem stacksWithin_template {table opened closed : SymbolTable} {factory : FactoryId}
    {unit : Option UnitId} {template : SymbolId}
    (opens : table.openTemplate factory unit = .ok (template, opened))
    (within : opened.StacksWithin closed) :
    table.StacksWithin (closed.discardTemplate factory template) := by
  intro other
  have inside := within other
  rw [stackOf_openTemplate opens] at inside
  unfold discardTemplate
  rw [stackOf_updateFactory]
  split
  · rename_i same
    subst same
    rw [if_pos rfl] at inside
    unfold stackOf at inside
    cases found : closed.factory? factory with
    | none => simp
    | some frames =>
        simp only [found, Option.map_some, Option.getD_some] at inside ⊢
        exact stack_discard_suffix_of_cons inside
  · rename_i different
    rw [if_neg different] at inside
    exact inside

end SymbolTable

end DeclTree
