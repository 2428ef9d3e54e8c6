import DeclTree.Proofs.Displacement
import DeclTree.Proofs.Activity
import DeclTree.Proofs.LookupView

/-!
# Symbol tables with displaced origins

A symbol table is changed and searched in the same way wherever the nodes that introduced its
symbols stand.  So the table that a displaced source leads to is the one of the source on its own
with other origins, those of symbols that are settled from before apart.
-/

namespace DeclTree

/-- A symbol with its origin displaced, unless it is settled. -/
def Symbol.relabel (displacement : Displacement) (isSettled : Bool) (symbol : Symbol) : Symbol :=
  { symbol with origin := if isSettled then symbol.origin else displacement.move symbol.origin }

namespace SymbolTable

/-- A table with the origins of all symbols displaced that are not settled. -/
def relabel (displacement : Displacement) (settled : SymbolId → Bool) (table : SymbolTable) :
    SymbolTable :=
  { table with
    symbols := table.symbols.mapIdx fun index => Symbol.relabel displacement (settled ⟨index⟩) }

def relabelOutcome {α : Type} (displacement : Displacement) (settled : SymbolId → Bool)
    (outcome : Except SymbolError (α × SymbolTable)) : Except SymbolError (α × SymbolTable) :=
  outcome.map fun changed => (changed.1, changed.2.relabel displacement settled)

variable {displacement : Displacement} {settled : SymbolId → Bool} {table : SymbolTable}

@[simp] theorem get?_relabel (id : SymbolId) :
    (table.relabel displacement settled).get? id =
      (table.get? id).map (Symbol.relabel displacement (settled id)) :=
  Array.getElem?_mapIdx

@[simp] theorem size_relabel : (table.relabel displacement settled).size = table.size :=
  Array.size_mapIdx

@[simp] theorem factory?_relabel (factory : FactoryId) :
    (table.relabel displacement settled).factory? factory = table.factory? factory := rfl

/-- Tables are the same if their symbols and their factories are. -/
theorem ext_get? {first second : SymbolTable} (symbols : ∀ id, first.get? id = second.get? id)
    (factories : first.factories = second.factories) : first = second := by
  obtain ⟨firstSymbols, firstFactories⟩ := first
  obtain ⟨secondSymbols, secondFactories⟩ := second
  obtain rfl : firstFactories = secondFactories := factories
  obtain rfl : firstSymbols = secondSymbols := Array.ext_getElem? fun index => symbols ⟨index⟩
  rfl

/-! ## Small changes -/

/-- Whether a change of a symbol takes no notice of its origin. -/
def Blind (change : Symbol → Symbol) : Prop :=
  ∀ (displacement : Displacement) isSettled symbol,
    change (symbol.relabel displacement isSettled) = (change symbol).relabel displacement isSettled

theorem update_relabel {change : Symbol → Symbol} (blind : Blind change) (id : SymbolId) :
    (table.relabel displacement settled).update id change =
      (table.update id change).relabel displacement settled := by
  refine ext_get? (fun other => ?_) rfl
  rw [get?_update, get?_relabel, get?_relabel, get?_update]
  split
  · rw [Option.map_map, Option.map_map]
    exact congrArg (fun change => (table.get? other).map change) (funext fun symbol =>
      blind displacement (settled other) symbol)
  · rfl

theorem updateMembers_relabel (id : SymbolId) (change : Members → Members) :
    (table.relabel displacement settled).updateMembers id change =
      (table.updateMembers id change).relabel displacement settled :=
  update_relabel (fun _ _ _ => rfl) id

theorem updateFactory_relabel (id : FactoryId) (change : TemplateFactory → TemplateFactory) :
    (table.relabel displacement settled).updateFactory id change =
      (table.updateFactory id change).relabel displacement settled := rfl

theorem attach_relabel (owner : SymbolId) (request : SymbolRequest) :
    (table.relabel displacement settled).attach owner request =
      ((table.attach owner request).1,
        (table.attach owner request).2.relabel displacement settled) := by
  have fresh :
      Symbol.relabel displacement (settled ⟨table.size⟩) (.ofRequest (some owner) request) =
        .ofRequest (some owner) request := by
    unfold Symbol.relabel
    split <;> rfl
  have extended : ({ symbols := table.symbols.push (.ofRequest (some owner) request)
                     factories := table.factories } : SymbolTable).relabel displacement settled =
      ⟨(table.relabel displacement settled).symbols.push (.ofRequest (some owner) request),
        table.factories⟩ := by
    unfold relabel
    rw [Array.mapIdx_push]
    exact congrArg (fun symbol => SymbolTable.mk (Array.push _ symbol) _) fresh
  simp only [attach, size_relabel]
  rw [← updateMembers_relabel, extended]
  rfl

/-! ## What is read from a table -/

/-- Where symbols come from is nothing that a lookup reads. -/
theorem looksAlike_relabel : table.LooksAlike (table.relabel displacement settled) where
  size := size_relabel
  symbols id := by
    rw [get?_relabel]
    cases table.get? id with
    | none => exact ⟨none, [], rfl⟩
    | some symbol => exact ⟨_, symbol.directives, rfl⟩
  usings scope := by
    unfold usings
    rw [get?_relabel]
    cases table.get? scope <;> rfl

theorem checkContainer_relabel (scope : SymbolId) :
    (table.relabel displacement settled).checkContainer scope = table.checkContainer scope := by
  unfold checkContainer
  rw [get?_relabel, looksAlike_relabel.qualifiedName]
  cases table.get? scope <;> rfl

theorem ofSymbol_relabel (isSettled : Bool) (symbol : Symbol) :
    Profile.ofSymbol (table.relabel displacement settled) (symbol.relabel displacement isSettled) =
      Profile.ofSymbol table symbol := by
  obtain ⟨name, kind⟩ := symbol
  cases kind with
  | template info =>
      obtain ⟨parameters, templated⟩ := info
      cases templated with
      | none => rfl
      | some templated =>
          have found : (table.relabel displacement settled).get? templated = _ :=
            get?_relabel templated
          simp only [Profile.ofSymbol, Symbol.relabel, Option.bind_eq_bind, Option.bind_some, found]
          cases table.get? templated <;> rfl
  | _ => rfl

theorem clashes_relabel (incoming : Profile) (id : SymbolId) :
    (table.relabel displacement settled).clashes incoming id = table.clashes incoming id := by
  unfold clashes
  rw [get?_relabel]
  cases table.get? id with
  | none => rfl
  | some symbol => exact congrArg (Profile.conflicts · incoming) (ofSymbol_relabel _ symbol)

theorem checkConflict_relabel (scope : SymbolId) (name : String) (incoming : Profile) :
    (table.relabel displacement settled).checkConflict scope name incoming =
      table.checkConflict scope name incoming := by
  simp only [checkConflict, looksAlike_relabel.entries, looksAlike_relabel.qualifiedName,
    funext (clashes_relabel incoming)]

/-! ## Declaring -/

theorem declare_relabel (scope : SymbolId) (request : SymbolRequest) :
    (table.relabel displacement settled).declare scope request =
      relabelOutcome displacement settled (table.declare scope request) := by
  unfold declare
  rw [checkContainer_relabel, checkConflict_relabel, attach_relabel]
  cases table.checkContainer scope with
  | error => rfl
  | ok => cases table.checkConflict scope request.name (.ofRequest request false) <;> rfl

theorem findNamespace?_relabel (scope : SymbolId) (name : String) :
    (table.relabel displacement settled).findNamespace? scope name =
      table.findNamespace? scope name := by
  have anonymous (id : SymbolId) : (table.relabel displacement settled).isAnonymousNamespace id =
      table.isAnonymousNamespace id := by
    unfold isAnonymousNamespace
    rw [get?_relabel]
    cases table.get? id <;> rfl
  have named (id : SymbolId) : (table.relabel displacement settled).isNamespace id =
      table.isNamespace id := by
    unfold isNamespace
    rw [get?_relabel]
    cases table.get? id <;> rfl
  simp only [findNamespace?, looksAlike_relabel.children, looksAlike_relabel.entries,
    funext anonymous, funext named]

theorem openNamespace_relabel (scope : SymbolId) (name : String) (unit : Option UnitId) :
    (table.relabel displacement settled).openNamespace scope name unit =
      relabelOutcome displacement settled (table.openNamespace scope name unit) := by
  unfold openNamespace
  rw [findNamespace?_relabel, declare_relabel]
  cases table.findNamespace? scope name <;> rfl

theorem addUsing_relabel (scope target : SymbolId) :
    (table.relabel displacement settled).addUsing scope target =
      (table.addUsing scope target).relabel displacement settled :=
  update_relabel (fun _ _ _ => rfl) scope

/-! ## Templates -/

theorem factoryFor_relabel (container : SymbolId) :
    (table.relabel displacement settled).factoryFor container =
      relabelOutcome displacement settled (table.factoryFor container) := by
  have found : (table.relabel displacement settled).factoryOf container =
      table.factoryOf container := by
    unfold factoryOf
    rw [get?_relabel]
    cases table.get? container <;> rfl
  unfold factoryFor
  rw [checkContainer_relabel, found]
  cases table.checkContainer container with
  | error => rfl
  | ok =>
      cases table.factoryOf container with
      | some existing => rfl
      | none =>
          let id : FactoryId := ⟨table.factories.size⟩
          let extended : SymbolTable :=
            ⟨table.symbols, table.factories.push { container := container }⟩
          have changed : (extended.relabel displacement settled).update container
              (fun symbol => { symbol with factory := some id }) = _ :=
            update_relabel (fun _ _ _ => rfl) container
          exact congrArg (fun changed => Except.ok (id, changed)) changed

theorem openTemplate_relabel (factory : FactoryId) (unit : Option UnitId) :
    (table.relabel displacement settled).openTemplate factory unit =
      relabelOutcome displacement settled (table.openTemplate factory unit) := by
  unfold openTemplate
  rw [factory?_relabel]
  cases table.factory? factory with
  | none => rfl
  | some frames =>
      simp only [attach_relabel]
      rfl

theorem addParameter_relabel (template : SymbolId) (request : SymbolRequest) :
    (table.relabel displacement settled).addParameter template request =
      relabelOutcome displacement settled (table.addParameter template request) := by
  have template? : (table.relabel displacement settled).isTemplate template =
      table.isTemplate template := by
    unfold isTemplate
    rw [get?_relabel]
    cases table.get? template <;> rfl
  unfold addParameter
  rw [template?, declare_relabel, looksAlike_relabel.qualifiedName]
  cases table.isTemplate template with
  | false => rfl
  | true =>
      cases table.declare template request with
      | error => rfl
      | ok declared =>
          have changed : (declared.2.relabel displacement settled).update template (fun symbol =>
              { symbol with
                kind := symbol.kind.mapTemplate fun info =>
                  { info with parameters := info.parameters ++ [declared.1] } }) = _ :=
            update_relabel (fun _ _ _ => rfl) template
          exact congrArg (fun changed => Except.ok (declared.1, changed)) changed

theorem relocate_relabel (id scope : SymbolId) :
    (table.relabel displacement settled).relocate id scope =
      (table.relocate id scope).relabel displacement settled := by
  have name : ((table.relabel displacement settled).get? id).map Symbol.name =
      (table.get? id).map Symbol.name := by
    rw [get?_relabel]
    cases table.get? id <;> rfl
  have owned (table : SymbolTable) : (table.relabel displacement settled).update id
      (fun symbol => { symbol with owner := some scope }) = _ :=
    update_relabel (fun _ _ _ => rfl) id
  unfold relocate
  simp only [name, looksAlike_relabel.owner]
  cases table.owner id <;> simp only [updateMembers_relabel, owned]

theorem move_relabel (id scope : SymbolId) :
    (table.relabel displacement settled).move id scope =
      (table.move id scope).map (relabel displacement settled) := by
  unfold move
  rw [checkContainer_relabel, looksAlike_relabel.ancestors, relocate_relabel,
    looksAlike_relabel.qualifiedName]
  cases table.checkContainer scope with
  | error => rfl
  | ok =>
      by_cases cyclic : id = scope ∨ id ∈ table.ancestors scope
      · simp only [if_pos cyclic]
        rfl
      · simp only [if_neg cyclic]
        rfl

theorem adopt_relabel (name : String) (id scope : SymbolId) :
    (table.relabel displacement settled).adopt name id scope =
      (table.adopt name id scope).map (relabel displacement settled) := by
  unfold adopt
  rw [looksAlike_relabel.owner, move_relabel, updateMembers_relabel]
  split <;> rfl

theorem bindTemplate_relabel (request : SymbolRequest) (template inner : SymbolId) :
    (table.relabel displacement settled).bindTemplate request template inner =
      (table.bindTemplate request template inner).relabel displacement settled :=
  update_relabel (fun _ _ _ => rfl) template

theorem closeFrames_relabel (factory : FactoryId) (target : SymbolId) (request : SymbolRequest)
    (inner : SymbolId) (frames : List SymbolId) :
    closeFrames factory target request (table.relabel displacement settled) inner frames =
      ((closeFrames factory target request table inner frames).1,
        (closeFrames factory target request table inner frames).2.relabel displacement
          settled) := by
  induction frames generalizing table inner with
  | nil =>
      unfold closeFrames
      rw [adopt_relabel]
      cases table.adopt request.name inner target <;> rfl
  | cons template outer ih =>
      unfold closeFrames
      simp only [updateFactory_relabel, bindTemplate_relabel, adopt_relabel]
      cases ((table.updateFactory factory TemplateFactory.popped).bindTemplate request template
        inner).adopt request.name inner template with
      | error => rfl
      | ok adopted => exact ih template

theorem openFrames_relabel (factory : FactoryId) (target : SymbolId) (request : SymbolRequest) :
    (table.relabel displacement settled).openFrames factory target request =
      table.openFrames factory target request := by
  unfold openFrames
  rw [factory?_relabel, checkContainer_relabel, checkConflict_relabel]

theorem declareTemplated_relabel (factory : FactoryId) (target : SymbolId)
    (request : SymbolRequest) :
    (table.relabel displacement settled).declareTemplated factory target request =
      ((table.declareTemplated factory target request).1,
        (table.declareTemplated factory target request).2.relabel displacement settled) := by
  unfold declareTemplated
  rw [openFrames_relabel]
  cases table.openFrames factory target request with
  | error => rfl
  | ok opened => simp only [attach_relabel, closeFrames_relabel]

theorem discardTemplate_relabel (factory : FactoryId) (template : SymbolId) :
    (table.relabel displacement settled).discardTemplate factory template =
      (table.discardTemplate factory template).relabel displacement settled := rfl

/-! ## Symbols that have an origin -/

/-- Whether all symbols that have an origin still have one in another table. -/
def KeepsOrigins (before after : SymbolTable) : Prop :=
  ∀ id symbol, before.get? id = some symbol → symbol.origin.isSome = true →
    ∃ kept, after.get? id = some kept ∧ kept.origin.isSome = true

section KeepsOrigins

variable {before after last : SymbolTable}

theorem KeepsOrigins.refl (table : SymbolTable) : table.KeepsOrigins table :=
  fun _ symbol found origin => ⟨symbol, found, origin⟩

theorem KeepsOrigins.trans (first : before.KeepsOrigins after) (second : after.KeepsOrigins last) :
    before.KeepsOrigins last := by
  intro id symbol found origin
  obtain ⟨kept, there, still⟩ := first id symbol found origin
  exact second id kept there still

theorem keepsOrigins_update {change : Symbol → Symbol} (id : SymbolId)
    (same : ∀ symbol, (change symbol).origin = symbol.origin := by intro _; rfl) :
    table.KeepsOrigins (table.update id change) := by
  intro other symbol found origin
  rw [get?_update, found]
  split
  · exact ⟨_, rfl, (congrArg Option.isSome (same symbol)).trans origin⟩
  · exact ⟨_, rfl, origin⟩

theorem keepsOrigins_updateMembers (id : SymbolId) (change : Members → Members) :
    table.KeepsOrigins (table.updateMembers id change) :=
  keepsOrigins_update id

theorem keepsOrigins_updateFactory (id : FactoryId) (change : TemplateFactory → TemplateFactory) :
    table.KeepsOrigins (table.updateFactory id change) :=
  fun _ symbol found origin => ⟨symbol, found, origin⟩

theorem keepsOrigins_recordOrigin (reference : NodeRef) (id : SymbolId) :
    table.KeepsOrigins (table.update id (ParseM.recordOrigin reference)) := by
  intro other symbol found origin
  rw [get?_update, found]
  split
  · refine ⟨_, rfl, ?_⟩
    unfold ParseM.recordOrigin
    split
    · rfl
    · exact origin
  · exact ⟨_, rfl, origin⟩

theorem keepsOrigins_attach (owner : SymbolId) (request : SymbolRequest) :
    table.KeepsOrigins (table.attach owner request).2 := by
  refine KeepsOrigins.trans (fun id symbol found origin => ⟨symbol, ?_, origin⟩)
    (keepsOrigins_updateMembers owner _)
  have present : id.index < table.symbols.size :=
    (Array.getElem?_eq_some_iff.1 found).choose
  exact (Array.getElem?_push_lt present).trans (Array.getElem?_eq_getElem present ▸ found)

theorem keepsOrigins_declare {scope id : SymbolId} {request : SymbolRequest}
    (declared : table.declare scope request = .ok (id, after)) : table.KeepsOrigins after := by
  unfold declare at declared
  cases container : table.checkContainer scope with
  | error => rw [container] at declared; cases declared
  | ok =>
      cases conflict : table.checkConflict scope request.name (.ofRequest request false) with
      | error => rw [container, conflict] at declared; cases declared
      | ok =>
          rw [container, conflict] at declared
          cases declared
          exact keepsOrigins_attach scope request

theorem keepsOrigins_openNamespace {scope id : SymbolId} {name : String} {unit : Option UnitId}
    (opened : table.openNamespace scope name unit = .ok (id, after)) :
    table.KeepsOrigins after := by
  unfold openNamespace at opened
  split at opened
  · cases opened
    exact .refl table
  · exact keepsOrigins_declare opened

theorem keepsOrigins_addUsing (scope target : SymbolId) :
    table.KeepsOrigins (table.addUsing scope target) :=
  keepsOrigins_update scope

theorem keepsOrigins_factoryFor {container : SymbolId} {factory : FactoryId}
    (found : table.factoryFor container = .ok (factory, after)) : table.KeepsOrigins after := by
  unfold factoryFor at found
  cases allowed : table.checkContainer container with
  | error => rw [allowed] at found; cases found
  | ok =>
      rw [allowed] at found
      cases known : table.factoryOf container with
      | some existing =>
          rw [known] at found
          cases found
          exact .refl table
      | none =>
          rw [known] at found
          cases found
          let extended : SymbolTable :=
            ⟨table.symbols, table.factories.push { container := container }⟩
          have same : table.KeepsOrigins extended :=
            fun _ symbol found origin => ⟨symbol, found, origin⟩
          exact same.trans (keepsOrigins_update container)

theorem keepsOrigins_openTemplate {factory : FactoryId} {unit : Option UnitId}
    {template : SymbolId} (opened : table.openTemplate factory unit = .ok (template, after)) :
    table.KeepsOrigins after := by
  unfold openTemplate at opened
  split at opened
  · cases opened
  · cases opened
    exact (keepsOrigins_attach _ _).trans (keepsOrigins_updateFactory factory _)

theorem keepsOrigins_addParameter {template id : SymbolId} {request : SymbolRequest}
    (added : table.addParameter template request = .ok (id, after)) :
    table.KeepsOrigins after := by
  unfold addParameter at added
  cases allowed : table.isTemplate template with
  | false => rw [allowed] at added; cases added
  | true =>
      rw [allowed] at added
      cases declared : table.declare template request with
      | error => rw [declared] at added; cases added
      | ok parameter =>
          rw [declared] at added
          cases added
          exact (keepsOrigins_declare declared).trans
            (keepsOrigins_update template)

theorem keepsOrigins_relocate (id scope : SymbolId) :
    table.KeepsOrigins (table.relocate id scope) := by
  have behind (released : SymbolTable) (keeps : table.KeepsOrigins released) (name : String) :
      table.KeepsOrigins ((released.update id fun symbol =>
        { symbol with owner := some scope }).updateMembers scope (Members.insert · name id)) :=
    keeps.trans ((keepsOrigins_update id).trans
      (keepsOrigins_updateMembers scope _))
  unfold relocate
  cases table.owner id with
  | none => exact behind table (.refl table) _
  | some old => exact behind _ (keepsOrigins_updateMembers old _) _

theorem keepsOrigins_adopt {name : String} {id scope : SymbolId}
    (adopted : table.adopt name id scope = .ok after) : table.KeepsOrigins after := by
  unfold adopt at adopted
  split at adopted
  · cases adopted
    exact keepsOrigins_updateMembers scope _
  · unfold move at adopted
    cases allowed : table.checkContainer scope with
    | error => rw [allowed] at adopted; cases adopted
    | ok =>
        rw [allowed] at adopted
        by_cases cyclic : id = scope ∨ id ∈ table.ancestors scope
        · simp only [if_pos cyclic] at adopted
          cases adopted
        · simp only [if_neg cyclic] at adopted
          cases adopted
          exact keepsOrigins_relocate id scope

theorem keepsOrigins_closeFrames (factory : FactoryId) (target : SymbolId)
    (request : SymbolRequest) (inner : SymbolId) (frames : List SymbolId) :
    table.KeepsOrigins (closeFrames factory target request table inner frames).2 := by
  induction frames generalizing table inner with
  | nil =>
      unfold closeFrames
      split
      · exact .refl table
      · rename_i adopted
        exact keepsOrigins_adopt adopted
  | cons template outer ih =>
      have bound : table.KeepsOrigins
          ((table.updateFactory factory TemplateFactory.popped).bindTemplate request template
            inner) :=
        (keepsOrigins_updateFactory factory _).trans
          (keepsOrigins_update template)
      unfold closeFrames
      simp only
      split
      · exact bound
      · rename_i adopted
        exact bound.trans ((keepsOrigins_adopt adopted).trans (ih template))

theorem keepsOrigins_declareTemplated (factory : FactoryId) (target : SymbolId)
    (request : SymbolRequest) :
    table.KeepsOrigins (table.declareTemplated factory target request).2 := by
  unfold declareTemplated
  split
  · exact .refl table
  · exact (keepsOrigins_attach _ request).trans
      (keepsOrigins_closeFrames factory target request _ _)

theorem keepsOrigins_discardTemplate (factory : FactoryId) (template : SymbolId) :
    table.KeepsOrigins (table.discardTemplate factory template) :=
  keepsOrigins_updateFactory factory _

end KeepsOrigins

def HasOrigins (table : SymbolTable) (settled : SymbolId → Bool) : Prop :=
  ∀ id, settled id = true → ∃ symbol, table.get? id = some symbol ∧ symbol.origin.isSome = true

theorem HasOrigins.of_keepsOrigins {after : SymbolTable} (settles : table.HasOrigins settled)
    (keeps : table.KeepsOrigins after) : after.HasOrigins settled := by
  intro id known
  obtain ⟨symbol, found, origin⟩ := settles id known
  exact keeps id symbol found origin

/-- The first node of a symbol is its origin, wherever it stands. -/
theorem recordOrigin_relabel (settles : table.HasOrigins settled) (reference : NodeRef)
    (id : SymbolId) :
    (table.relabel displacement settled).update id
        (ParseM.recordOrigin (displacement.move reference)) =
      (table.update id (ParseM.recordOrigin reference)).relabel displacement settled := by
  refine ext_get? (fun other => ?_) rfl
  rw [get?_update, get?_relabel, get?_relabel, get?_update]
  split
  · rename_i same
    subst same
    cases found : table.get? id with
    | none => rfl
    | some symbol =>
        refine congrArg some ?_
        cases known : settled id with
        | true =>
            obtain ⟨_, there, origin⟩ := settles id known
            obtain rfl := Option.some.inj (there.symm.trans found)
            obtain ⟨first, origin⟩ := Option.isSome_iff_exists.1 origin
            simp [ParseM.recordOrigin, Symbol.relabel, origin]
        | false =>
            cases origin : symbol.origin with
            | none =>
                simp [ParseM.recordOrigin, Symbol.relabel, origin, Displacement.move,
                  Displaceable.displaced]
            | some first =>
                simp [ParseM.recordOrigin, Symbol.relabel, origin, Displacement.move,
                  Displaceable.displaced]
  · rfl

/-! ## Nothing to displace -/

theorem relabel_zero (settled : SymbolId → Bool) (table : SymbolTable) :
    table.relabel .zero settled = table := by
  have same (reference : NodeRef) : Displacement.zero.move reference = reference :=
    congrArg (NodeRef.mk reference.unit) (Displacement.zero_move_id reference.node)
  refine ext_get? (fun id => ?_) rfl
  rw [get?_relabel]
  cases table.get? id with
  | none => rfl
  | some symbol =>
      unfold Symbol.relabel
      rw [Option.map_some, Displacement.zero_move_option same, ite_self]

def hasOrigin (table : SymbolTable) (id : SymbolId) : Bool :=
  ((table.get? id).bind Symbol.origin).isSome

theorem hasOrigins_hasOrigin (table : SymbolTable) : table.HasOrigins table.hasOrigin := by
  intro id known
  unfold hasOrigin at known
  cases found : table.get? id with
  | none =>
      rw [found] at known
      cases known
  | some symbol =>
      rw [found] at known
      exact ⟨symbol, rfl, known⟩

/-- Where all symbols with an origin are settled there is nothing to displace. -/
theorem relabel_hasOrigin (displacement : Displacement) (table : SymbolTable) :
    table.relabel displacement table.hasOrigin = table := by
  refine ext_get? (fun id => ?_) rfl
  rw [get?_relabel]
  unfold hasOrigin
  cases table.get? id with
  | none => rfl
  | some symbol =>
      obtain ⟨name, kind, isDefined, isSpecial, unit, origin⟩ := symbol
      cases origin <;> rfl

end SymbolTable

end DeclTree
