import DeclTree.Proofs.TableOperation

/-!
# Tables in use are consistent

Every operation on a consistent table leaves a consistent one, whether it
succeeds, is refused, or stops half way.  Each is made of a few basic changes:
adding a symbol, moving one, changing what a symbol says of itself, and changing
a factory.
-/

namespace DeclTree

theorem TemplateFactory.Fits.mono {before after : SymbolTable} {factory : TemplateFactory}
    (fits : factory.Fits before) (scopes : ∀ id, before.HasScope id → after.HasScope id) :
    factory.Fits after where
  container := scopes _ fits.container
  frames template member := scopes _ (fits.frames template member)
  descending := fits.descending
  replays := fits.replays

namespace Members

theorem mem_names_insert {members : Members} {name : String} {symbol : SymbolId}
    (inside : ∀ entry ∈ members.names, entry.2 ∈ members.order) :
    ∀ entry ∈ (members.insert name symbol).names,
      entry.2 ∈ (members.insert name symbol).order := by
  intro entry member
  simp only [Members.insert] at member ⊢
  split at member
  · exact List.mem_append_left _ (inside entry member)
  · rcases List.mem_append.1 member with member | member
    · exact List.mem_append_left _ (inside entry member)
    · rw [List.mem_singleton.1 member]
      simp

theorem mem_names_erase {members : Members} {symbol : SymbolId}
    (inside : ∀ entry ∈ members.names, entry.2 ∈ members.order) :
    ∀ entry ∈ (members.erase symbol).names, entry.2 ∈ (members.erase symbol).order := by
  intro entry member
  simp only [Members.erase, List.mem_filter] at member ⊢
  exact ⟨inside entry member.1, member.2⟩

end Members

namespace SymbolTable

/-! ## Basic changes -/

theorem hasScope_of_shape {before after : SymbolTable}
    (same : ∀ id, after.shape id = before.shape id) (id : SymbolId) :
    after.HasScope id ↔ before.HasScope id := by
  rw [hasScope_iff_shape, hasScope_iff_shape, same]

theorem shape_update_of_eq {table : SymbolTable} {id : SymbolId} {change : Symbol → Symbol}
    (keeps : ∀ symbol, (change symbol).owner = symbol.owner ∧
      (change symbol).members.map Members.order = symbol.members.map Members.order)
    (other : SymbolId) : (table.update id change).shape other = table.shape other := by
  simp only [shape, get?_update]
  by_cases same : id = other
  · cases table.get? other with
    | none => simp
    | some symbol => simp [same, keeps symbol]
  · simp [same]

/-- A change of a symbol that leaves its owner and members alone. -/
theorem Consistent.update {table : SymbolTable} (consistent : table.Consistent) {id : SymbolId}
    {change : Symbol → Symbol}
    (keeps : ∀ symbol, (change symbol).owner = symbol.owner ∧
      (change symbol).members.map Members.order = symbol.members.map Members.order)
    (fits : ∀ symbol, table.get? id = some symbol →
      symbol.Fits id table.size table.factories.size →
      (change symbol).Fits id table.size table.factories.size) :
    (table.update id change).Consistent := by
  have same : ∀ other, (table.update id change).shape other = table.shape other :=
    shape_update_of_eq keeps
  constructor
  · exact consistent.tree.congr same
  · intro other symbol found
    rw [size_update]
    rw [get?_update] at found
    split at found
    · rename_i equal
      subst equal
      obtain ⟨before, foundBefore, rfl⟩ := Option.map_eq_some_iff.1 found
      exact fits before foundBefore (consistent.symbols id before foundBefore)
    · exact consistent.symbols other symbol found
  · intro factory frames found
    exact (consistent.factories factory frames found).mono fun other scope =>
      (hasScope_of_shape same other).2 scope

theorem factory?_updateFactory (table : SymbolTable) (id other : FactoryId)
    (change : TemplateFactory → TemplateFactory) :
    (table.updateFactory id change).factory? other =
      if id = other then (table.factory? other).map change else table.factory? other := by
  cases id
  cases other
  simp [factory?, updateFactory, Array.getElem?_modify]

/-- A change of a factory that it survives. -/
theorem Consistent.updateFactory {table : SymbolTable} (consistent : table.Consistent)
    {id : FactoryId} {change : TemplateFactory → TemplateFactory}
    (fits : ∀ factory, table.factory? id = some factory → factory.Fits table →
      (change factory).Fits table) :
    (table.updateFactory id change).Consistent := by
  constructor
  · exact consistent.tree.congr fun _ => rfl
  · intro other symbol found
    have count : (table.updateFactory id change).factories.size = table.factories.size := by
      simp [SymbolTable.updateFactory]
    rw [count]
    exact consistent.symbols other symbol found
  · intro other factory found
    rw [factory?_updateFactory] at found
    have fitsBefore : factory.Fits table := by
      split at found
      · rename_i equal
        subst equal
        obtain ⟨before, foundBefore, rfl⟩ := Option.map_eq_some_iff.1 found
        exact fits before foundBefore (consistent.factories id before foundBefore)
      · exact consistent.factories other factory found
    exact fitsBefore.mono fun _ scope => scope

theorem fits_mapMembers {id : SymbolId} {symbols factories : Nat} {symbol : Symbol}
    {change : Members → Members} (fits : symbol.Fits id symbols factories)
    (inside : ∀ members, symbol.members = some members →
      ∀ entry ∈ (change members).names, entry.2 ∈ (change members).order) :
    (symbol.mapMembers change).Fits id symbols factories where
  names members found := by
    obtain ⟨before, foundBefore, rfl⟩ := Option.map_eq_some_iff.1 found
    exact inside before foundBefore
  directives := fits.directives
  distinct := fits.distinct
  factory := fits.factory
  parameters := fits.parameters
  templated := fits.templated

theorem fits_ofRequest {request : SymbolRequest}
    (plain : ∀ info, request.kind = .template info → info = {}) (owner : Option SymbolId)
    (id : SymbolId) (symbols factories : Nat) :
    (Symbol.ofRequest owner request).Fits id symbols factories where
  names members found := by
    simp only [Symbol.ofRequest] at found
    split at found
    · obtain rfl := Option.some.inj found
      simp
    · simp at found
  directives := by simp [Symbol.ofRequest]
  distinct := .nil
  factory := by simp [Symbol.ofRequest]
  parameters info kind := by simp [plain info kind]
  templated info inner kind wraps := by simp [plain info kind] at wraps

/-- Adding a symbol to a scope. -/
theorem Consistent.attach {table : SymbolTable} (consistent : table.Consistent)
    {scope : SymbolId} (inside : table.HasScope scope) {request : SymbolRequest}
    (plain : ∀ info, request.kind = .template info → info = {}) :
    (table.attach scope request).2.Consistent := by
  constructor
  · exact consistent.tree.attach inside request
  · intro id symbol found
    rw [size_attach]
    rw [get?_attach] at found
    obtain ⟨before, foundBefore, rfl⟩ := Option.map_eq_some_iff.1 found
    have fits : before.Fits id (table.size + 1) table.factories.size := by
      split at foundBefore
      · obtain rfl := Option.some.inj foundBefore
        exact fits_ofRequest plain _ _ _ _
      · exact (consistent.symbols id before foundBefore).mono (by omega) (Nat.le_refl _)
    split
    · apply fits_mapMembers fits
      intro members kept
      exact Members.mem_names_insert (fits.names members kept)
    · exact fits
  · intro factory frames found
    exact (consistent.factories factory frames found).mono fun other scope =>
      (hasScope_attach inside.has request other).2 (.inr scope)

theorem size_relocate (table : SymbolTable) (id scope : SymbolId) :
    (table.relocate id scope).size = table.size := by
  simp only [relocate, updateMembers, size_update]
  split <;> simp

theorem factories_relocate (table : SymbolTable) (id scope : SymbolId) :
    (table.relocate id scope).factories = table.factories := by
  simp only [relocate, updateMembers, SymbolTable.update]
  split <;> rfl

/-- Moving a symbol to a scope that does not lie inside it. -/
theorem Consistent.relocate {table : SymbolTable} (consistent : table.Consistent)
    {id scope : SymbolId} (present : table.Has id) (inside : table.HasScope scope)
    (outside : id ∉ scope :: table.ancestors scope) : (table.relocate id scope).Consistent := by
  constructor
  · exact consistent.tree.relocate present inside outside
  · intro other symbol found
    rw [size_relocate, factories_relocate]
    rw [get?_relocate] at found
    obtain ⟨before, foundBefore, rfl⟩ := Option.map_eq_some_iff.1 found
    have fits := consistent.symbols other before foundBefore
    have released : (if table.owner id = some other then
        before.mapMembers (Members.erase · id) else before).Fits other table.size
          table.factories.size := by
      split
      · exact fits_mapMembers fits fun members kept =>
          Members.mem_names_erase (fits.names members kept)
      · exact fits
    have owned (symbol : Symbol) (fitsSymbol : symbol.Fits other table.size table.factories.size) :
        (if id = other then { symbol with owner := some scope } else symbol).Fits other
          table.size table.factories.size := by
      split
      · exact { fitsSymbol with }
      · exact fitsSymbol
    have fitsOwned := owned _ released
    simp only
    split
    · exact fits_mapMembers fitsOwned fun members kept =>
        Members.mem_names_insert (fitsOwned.names members kept)
    · exact fitsOwned
  · intro factory frames found
    rw [factory?, factories_relocate] at found
    exact (consistent.factories factory frames found).mono fun other here =>
      (hasScope_relocate table id scope other).2 here

/-! ## Operations -/

theorem checkContainer_ok_iff {table : SymbolTable} {scope : SymbolId} :
    table.checkContainer scope = .ok () ↔ table.HasScope scope := by
  unfold checkContainer HasScope members?
  cases table.get? scope with
  | none => simp
  | some symbol => cases inside : symbol.members <;> simp [Symbol.isContainer, inside]

/-- A declaration that is not refused adds a symbol to a scope. -/
theorem attach_of_declare {table after : SymbolTable} {scope id : SymbolId}
    {request : SymbolRequest} (declared : table.declare scope request = .ok (id, after)) :
    table.HasScope scope ∧ (id, after) = table.attach scope request := by
  unfold declare at declared
  cases inside : table.checkContainer scope with
  | error _ => simp [inside, bind, Except.bind] at declared
  | ok _ =>
      cases free : table.checkConflict scope request.name (.ofRequest request false) with
      | error _ => simp [inside, free, bind, Except.bind] at declared
      | ok _ =>
          simp only [inside, free, bind, Except.bind, pure, Except.pure, Except.ok.injEq]
            at declared
          exact ⟨checkContainer_ok_iff.1 inside, declared.symm⟩

theorem plain_of_templateInfo? {kind : SymbolKind} (plain : kind.templateInfo? = none) :
    ∀ info, kind = .template info → info = {} := by
  rintro info rfl
  simp [SymbolKind.templateInfo?] at plain

theorem Consistent.declare {table after : SymbolTable} (consistent : table.Consistent)
    {scope id : SymbolId} {request : SymbolRequest} (plain : request.kind.templateInfo? = none)
    (declared : table.declare scope request = .ok (id, after)) : after.Consistent := by
  obtain ⟨inside, added⟩ := attach_of_declare declared
  obtain rfl : after = (table.attach scope request).2 := congrArg Prod.snd added
  exact consistent.attach inside (plain_of_templateInfo? plain)

theorem openNamespace_ok {table after : SymbolTable} {scope id : SymbolId} {name : String}
    {unit : Option UnitId} (opened : table.openNamespace scope name unit = .ok (id, after)) :
    (table.findNamespace? scope name = some id ∧ after = table) ∨
      table.declare scope { name := name, kind := .namespaceScope, unit := unit } =
        .ok (id, after) := by
  unfold SymbolTable.openNamespace at opened
  split at opened
  · rename_i existing found
    simp only [Except.ok.injEq, Prod.mk.injEq] at opened
    exact .inl ⟨opened.1 ▸ found, opened.2.symm⟩
  · exact .inr opened

theorem Consistent.openNamespace {table after : SymbolTable} (consistent : table.Consistent)
    {scope id : SymbolId} {name : String} {unit : Option UnitId}
    (opened : table.openNamespace scope name unit = .ok (id, after)) : after.Consistent := by
  rcases openNamespace_ok opened with ⟨_, rfl⟩ | declared
  · exact consistent
  · exact consistent.declare rfl declared

theorem move_ok {table after : SymbolTable} {id scope : SymbolId}
    (moved : table.move id scope = .ok after) :
    table.HasScope scope ∧ id ∉ scope :: table.ancestors scope ∧
      after = table.relocate id scope := by
  unfold move at moved
  cases inside : table.checkContainer scope with
  | error _ => simp [inside, bind, Except.bind] at moved
  | ok _ =>
      simp only [inside, bind, Except.bind] at moved
      split at moved
      · simp [throw, throwThe, MonadExceptOf.throw] at moved
      · rename_i outside
        simp only [pure, Except.pure, Except.ok.injEq] at moved
        exact ⟨checkContainer_ok_iff.1 inside, by simpa using outside, moved.symm⟩

theorem Consistent.move {table after : SymbolTable} (consistent : table.Consistent)
    {id scope : SymbolId} (present : table.Has id) (moved : table.move id scope = .ok after) :
    after.Consistent := by
  obtain ⟨inside, outside, rfl⟩ := move_ok moved
  exact consistent.relocate present inside outside

theorem Consistent.addUsing {table : SymbolTable} (consistent : table.Consistent)
    (scope : SymbolId) {target : SymbolId} (present : table.Has target) :
    (table.addUsing scope target).Consistent := by
  apply consistent.update
  · intro symbol
    exact ⟨rfl, rfl⟩
  · intro symbol _ fits
    refine { fits with directives := ?_, distinct := fits.distinct.insert }
    intro used member
    rcases List.mem_insert_iff.1 member with rfl | member
    · exact (table.has_iff_lt used).1 present
    · exact fits.directives used member

theorem mem_usings {table : SymbolTable} {scope target : SymbolId} :
    target ∈ table.usings scope ↔
      ∃ symbol, table.get? scope = some symbol ∧ target ∈ symbol.directives := by
  rw [usings]
  cases table.get? scope <;> simp [Symbol.mem_uses]

/-- Whether no scope names another one twice in its using directives. -/
def UsesDistinct (table : SymbolTable) : Prop :=
  ∀ id symbol, table.get? id = some symbol → symbol.directives.Nodup

theorem Consistent.usesDistinct {table : SymbolTable} (consistent : table.Consistent) :
    table.UsesDistinct :=
  fun id symbol found => (consistent.symbols id symbol found).distinct

/-- Visible scopes are seen in ascending order, each of them once. -/
theorem UsesDistinct.pairwise_usings {table : SymbolTable} (distinct : table.UsesDistinct)
    (scope : SymbolId) : (table.usings scope).Pairwise (·.index < ·.index) := by
  rw [usings]
  cases found : table.get? scope with
  | none => exact .nil
  | some symbol => exact symbol.pairwise_uses (distinct scope symbol found)

/-- Recording where a symbol comes from. -/
theorem Consistent.updateOrigin {table : SymbolTable} (consistent : table.Consistent)
    (id : SymbolId) (origin : Symbol → Option NodeRef) :
    (table.update id fun symbol => { symbol with origin := origin symbol }).Consistent := by
  apply consistent.update
  · intro symbol
    exact ⟨rfl, rfl⟩
  · intro symbol _ fits
    exact { fits with }

theorem factory?_push (table : SymbolTable) (factory : TemplateFactory) (id : FactoryId) :
    ({ table with factories := table.factories.push factory } : SymbolTable).factory? id =
      if id = ⟨table.factories.size⟩ then some factory else table.factory? id := by
  cases id
  simp [factory?, Array.getElem?_push]

/-- The factory of a scope is there already, or is a new one. -/
theorem factoryFor_ok {table after : SymbolTable} {container : SymbolId} {factory : FactoryId}
    (created : table.factoryFor container = .ok (factory, after)) :
    table.HasScope container ∧ (after = table ∨
      after = ({ table with
          factories := table.factories.push { container := container } } : SymbolTable).update
        container fun symbol => { symbol with factory := some ⟨table.factories.size⟩ }) := by
  unfold SymbolTable.factoryFor at created
  cases inside : table.checkContainer container with
  | error _ => simp [inside, bind, Except.bind] at created
  | ok _ =>
      refine ⟨checkContainer_ok_iff.1 inside, ?_⟩
      simp only [inside, bind, Except.bind, pure, Except.pure] at created
      cases existing : table.factoryOf container with
      | some old =>
          simp only [existing, Except.ok.injEq, Prod.mk.injEq] at created
          exact .inl created.2.symm
      | none =>
          simp only [existing, Except.ok.injEq, Prod.mk.injEq] at created
          exact .inr created.2.symm

theorem Consistent.factoryFor {table after : SymbolTable} (consistent : table.Consistent)
    {container : SymbolId} {factory : FactoryId}
    (created : table.factoryFor container = .ok (factory, after)) : after.Consistent := by
  obtain ⟨scope, rfl | rfl⟩ := factoryFor_ok created
  · exact consistent
  · have extended : ({ table with
        factories := table.factories.push { container := container } } :
          SymbolTable).Consistent := by
      constructor
      · exact consistent.tree.congr fun _ => rfl
      · intro id symbol found
        exact (consistent.symbols id symbol found).mono (Nat.le_refl _) (by simp)
      · intro id frames found
        rw [factory?_push] at found
        split at found
        · obtain rfl := Option.some.inj found
          exact ⟨scope, by simp, by simp, rfl⟩
        · exact (consistent.factories id frames found).mono fun _ here => here
    apply extended.update
    · intro symbol
      exact ⟨rfl, rfl⟩
    · intro symbol _ fits
      refine { fits with factory := ?_ }
      rintro _ ⟨⟩
      simp

theorem setOrigin_ok {table after : SymbolTable} {id : SymbolId} {origin : Option NodeRef}
    (changed : table.setOrigin id origin = .ok after) :
    after = table.update id fun symbol => { symbol with origin := origin } := by
  unfold SymbolTable.setOrigin at changed
  split at changed
  · simp at changed
  · exact (Except.ok.inj changed).symm

/-- An operation without a value of its own changes the table as it says. -/
theorem map_pair_ok {after : SymbolTable} {value : Unit}
    {outcome : Except SymbolError SymbolTable}
    (changed : outcome.map ((), ·) = .ok (value, after)) : outcome = .ok after := by
  cases outcome with
  | error _ => simp [Except.map] at changed
  | ok result =>
      simp only [Except.map, Except.ok.injEq, Prod.mk.injEq] at changed
      rw [changed.2]

end SymbolTable

end DeclTree
