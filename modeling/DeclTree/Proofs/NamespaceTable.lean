import DeclTree.Proofs.ParseCourse
import DeclTree.Proofs.PlainDeclarations

/-!
# One namespace for each name in a scope

A namespace that is opened is looked for in its scope first, among the entries of its name or,
without a name, among all members.  That finds the only one there is: a namespace keeps its name
and its scope, stays entered under its name, and comes into a scope in no other way, since all
that is moved or named later are templates and what they wrap.
-/

namespace DeclTree

/-- Whether a symbol that is changed is the namespace it was, or still none. -/
def Symbol.KeepsRole (symbol changed : Symbol) : Prop :=
  (changed.kind = symbol.kind ∧ changed.name = symbol.name ∧ changed.owner = symbol.owner) ∨
    (symbol.kind ≠ .namespaceScope ∧ changed.kind ≠ .namespaceScope)

theorem Symbol.KeepsRole.refl (symbol : Symbol) : symbol.KeepsRole symbol :=
  .inl ⟨rfl, rfl, rfl⟩

/-- A template is no namespace, whatever else becomes of it. -/
theorem Symbol.KeepsRole.mapTemplate (symbol : Symbol) (change : TemplateInfo → TemplateInfo) :
    symbol.KeepsRole { symbol with kind := symbol.kind.mapTemplate change } := by
  cases known : symbol.kind with
  | template info => exact .inr (by simp [known, SymbolKind.mapTemplate])
  | _ => exact .inl ⟨known.symm, rfl, rfl⟩

namespace SymbolTable

variable {before after later table : SymbolTable}

/-! ## What operations do to namespaces -/

/-- Whether a table has the namespaces it had, entered where they were, and no others. -/
structure KeepsNamespaces (before after : SymbolTable) : Prop where
  same : ∀ scope name id, after.NamespaceIn scope name id ↔ before.NamespaceIn scope name id
  entered : ∀ scope name id, before.NamespaceIn scope name id →
    id ∈ before.entries scope name → id ∈ after.entries scope name

namespace KeepsNamespaces

theorem refl (table : SymbolTable) : KeepsNamespaces table table where
  same _ _ _ := Iff.rfl
  entered _ _ _ _ member := member

theorem trans (left : KeepsNamespaces before after) (right : KeepsNamespaces after later) :
    KeepsNamespaces before later where
  same scope name id := (right.same scope name id).trans (left.same scope name id)
  entered scope name id inside member :=
    right.entered scope name id ((left.same scope name id).2 inside)
      (left.entered scope name id inside member)

/-- Symbols that are changed in place. -/
theorem of_map (change : SymbolId → Symbol → Symbol)
    (found : ∀ id, after.get? id = (before.get? id).map (change id))
    (kept : ∀ id symbol, before.get? id = some symbol → symbol.KeepsRole (change id symbol))
    (entered : ∀ scope name id, before.NamespaceIn scope name id →
      id ∈ before.entries scope name → id ∈ after.entries scope name) :
    KeepsNamespaces before after := by
  refine ⟨?_, entered⟩
  intro scope name id
  unfold NamespaceIn
  rw [found]
  cases known : before.get? id with
  | none => simp
  | some symbol =>
      simp only [Option.map_some, Option.some.injEq, exists_eq_left']
      rcases kept id symbol known with ⟨kind, named, owned⟩ | ⟨before, after⟩
      · rw [kind, named, owned]
      · simp [before, after]

/-- A change of one symbol. -/
theorem change (table : SymbolTable) {id : SymbolId} {change : Symbol → Symbol}
    (kept : ∀ symbol, table.get? id = some symbol → symbol.KeepsRole (change symbol))
    (entered : ∀ scope name other, table.NamespaceIn scope name other →
      other ∈ table.entries scope name → other ∈ (table.update id change).entries scope name) :
    KeepsNamespaces table (table.update id change) := by
  refine of_map (fun other symbol => if id = other then change symbol else symbol) ?_ ?_ entered
  · intro other
    rw [get?_update]
    split <;> simp
  · intro other symbol found
    split
    · rename_i here
      exact kept symbol (here ▸ found)
    · exact .refl symbol

/-- A change of a symbol that leaves its members alone. -/
theorem update (table : SymbolTable) {id : SymbolId} {change : Symbol → Symbol}
    (kept : ∀ symbol, table.get? id = some symbol → symbol.KeepsRole (change symbol))
    (members : ∀ symbol, (change symbol).members = symbol.members) :
    KeepsNamespaces table (table.update id change) :=
  .change table kept fun scope name other _ member => by rwa [entries_update members]

/-- Tables with the same symbols. -/
theorem of_get? (same : after.get? = before.get?) : KeepsNamespaces before after := by
  refine of_map (fun _ symbol => symbol) ?_ (fun _ symbol _ => .refl symbol) ?_
  · intro id
    rw [same, Option.map_id']
  · intro scope name id _ member
    unfold SymbolTable.entries members? at member ⊢
    rwa [same]

end KeepsNamespaces

/-- A namespace of a table is not a symbol that is none. -/
theorem NamespaceIn.ne {scope id other : SymbolId} {name : String}
    (inside : table.NamespaceIn scope name id) (plain : table.isNamespace other = false) :
    id ≠ other := by
  rintro rfl
  simp [(namespaceIn_iff.1 inside).1] at plain

/-- What is entered stays so when a symbol is added. -/
theorem mem_entries_attach_of_mem {scope other id : SymbolId} {name : String}
    (request : SymbolRequest) (member : id ∈ table.entries other name) :
    id ∈ (table.attach scope request).2.entries other name := by
  obtain ⟨members, found, entered⟩ := mem_entries.1 member
  obtain ⟨symbol, there, known⟩ := Option.bind_eq_some_iff.1 found
  have old : other ≠ ⟨table.size⟩ := by
    rintro rfl
    exact table.not_has_fresh (has_of_get? there)
  refine mem_entries.2 ?_
  unfold members?
  rw [get?_attach, if_neg old, there]
  by_cases here : other = scope
  · refine ⟨members.insert request.name ⟨table.size⟩, by simp [here, known, Symbol.mapMembers], ?_⟩
    unfold Members.insert
    dsimp only
    split
    · exact entered
    · exact List.mem_append_left _ entered
  · exact ⟨members, by simp [here, known], entered⟩

/-- The namespaces behind the adding of a symbol are those before, and that symbol if it is
one. -/
theorem namespaceIn_attach (table : SymbolTable) (scope : SymbolId) (request : SymbolRequest)
    {owner id : SymbolId} {name : String} :
    (table.attach scope request).2.NamespaceIn owner name id ↔
      table.NamespaceIn owner name id ∨
        (id = ⟨table.size⟩ ∧ request.kind = .namespaceScope ∧ request.name = name ∧
          scope = owner) := by
  unfold NamespaceIn
  rw [get?_attach]
  by_cases new : id = ⟨table.size⟩
  · have missing : table.get? id = none := by
      rw [new]
      simpa [Has] using table.not_has_fresh
    rw [if_pos new, missing]
    split <;> simp [Symbol.ofRequest, Symbol.mapMembers, new]
  · rw [if_neg new]
    cases table.get? id with
    | none => simp [new]
    | some symbol => split <;> simp [Symbol.mapMembers, new]

namespace KeepsNamespaces

/-- A symbol that is no namespace may be added anywhere. -/
theorem attach (table : SymbolTable) (scope : SymbolId) {request : SymbolRequest}
    (plain : request.kind ≠ .namespaceScope) :
    KeepsNamespaces table (table.attach scope request).2 where
  same owner name id := by
    rw [namespaceIn_attach]
    simp [plain]
  entered _ _ _ _ member := mem_entries_attach_of_mem request member

/-- A symbol that is no namespace may be entered in another scope. -/
theorem adopt {name : String} {id scope : SymbolId} (plain : table.isNamespace id = false)
    (adopted : table.adopt name id scope = .ok after) : KeepsNamespaces table after := by
  unfold SymbolTable.adopt at adopted
  split at adopted
  · cases adopted
    refine .change table (fun symbol _ => .inl ⟨rfl, rfl, rfl⟩) ?_
    intro owner given other _ member
    have entries := entries_updateMembers table scope owner (Members.register · name id) given
    change other ∈ (table.updateMembers scope _).entries owner given
    rw [entries]
    split
    · unfold SymbolTable.entries at member
      cases known : table.members? owner with
      | none => simp [known] at member
      | some members =>
          simp only [known, Option.map_some, Option.getD_some, Members.named_register] at member ⊢
          exact List.mem_append_left _ member
    · exact member
  · obtain ⟨inside, _, rfl⟩ := move_ok adopted
    refine .of_map _ (table.get?_relocate id scope) ?_ ?_
    · intro other symbol found
      by_cases moved : id = other
      · subst moved
        have none : symbol.kind ≠ .namespaceScope := by simpa [isNamespace, found] using plain
        refine .inr ⟨none, ?_⟩
        simp only [if_true]
        split <;> split <;> exact none
      · left
        simp only [if_neg moved]
        split <;> split <;> exact ⟨rfl, rfl, rfl⟩
    · intro owner given other namespaceIn member
      rw [entries_relocate inside]
      refine List.mem_append_left _ ?_
      split
      · exact List.mem_filter.2 ⟨member, by simpa using namespaceIn.ne plain⟩
      · exact member

/-- A template may be named. -/
theorem bindTemplate (request : SymbolRequest) {template : SymbolId}
    (isTemplate : table.isTemplate template = true) (inner : SymbolId) :
    KeepsNamespaces table (table.bindTemplate request template inner) := by
  refine .update table ?_ fun _ => rfl
  intro symbol found
  have known : symbol.isTemplate = true := by
    simpa [SymbolTable.isTemplate, found] using isTemplate
  right
  cases kind : symbol.kind with
  | template info => simp [SymbolKind.mapTemplate]
  | _ => simp [Symbol.isTemplate, kind, SymbolKind.templateInfo?] at known

end KeepsNamespaces

theorem isNamespace_of_isTemplate {id : SymbolId} (template : table.isTemplate id = true) :
    table.isNamespace id = false := by
  unfold SymbolTable.isTemplate at template
  unfold isNamespace
  cases found : table.get? id with
  | none => rfl
  | some symbol =>
      have known : symbol.isTemplate = true := by simpa [found] using template
      cases kind : symbol.kind with
      | template info => simp [kind]
      | _ => simp [Symbol.isTemplate, kind, SymbolKind.templateInfo?] at known

theorem Agrees.isNamespace (agrees : before.Agrees after) {id : SymbolId}
    (present : before.Has id) : after.isNamespace id = before.isNamespace id := by
  obtain ⟨symbol, found⟩ := Option.isSome_iff_exists.1 present
  obtain ⟨changed, there, same⟩ := agrees id symbol found
  cases template : symbol.isTemplate with
  | true =>
      have first : before.isTemplate id = true := by simp [SymbolTable.isTemplate, found, template]
      have second := (agrees.isTemplate present).trans first
      rw [isNamespace_of_isTemplate first, isNamespace_of_isTemplate second]
  | false => simp [SymbolTable.isNamespace, found, there, same.kind template]

namespace KeepsNamespaces

/-- Closing the frames of templates around something that is no namespace. -/
theorem closeFrames (factory : FactoryId) (target : SymbolId) (request : SymbolRequest)
    {inner : SymbolId} {frames : List SymbolId}
    (templates : ∀ template ∈ frames, table.isTemplate template = true)
    (present : table.Has inner) (plain : table.isNamespace inner = false) :
    KeepsNamespaces table (closeFrames factory target request table inner frames).2 := by
  induction frames generalizing table inner with
  | nil =>
      unfold SymbolTable.closeFrames
      split
      · exact .refl table
      · rename_i adopted
        exact .adopt plain adopted
  | cons template outer ih =>
      have isTemplate : (table.updateFactory factory TemplateFactory.popped).isTemplate template =
        true := templates template List.mem_cons_self
      have popped : KeepsPlain table (table.updateFactory factory TemplateFactory.popped) :=
        .of_get? rfl
      have bound := popped.trans (.bindTemplate request isTemplate inner)
      have pops : KeepsNamespaces table (table.updateFactory factory TemplateFactory.popped) :=
        .of_get? rfl
      have closes := pops.trans (.bindTemplate request isTemplate inner)
      have still {next : SymbolTable} (keeps : KeepsPlain table next) {other : SymbolId}
          (member : other ∈ template :: outer) : next.isTemplate other = true := by
        have known := templates other member
        rw [keeps.agrees.isTemplate (has_of_isTemplate known), known]
      unfold SymbolTable.closeFrames
      simp only
      split
      · exact closes
      · rename_i adopted
        have further := bound.trans (.adopt (.inl (still bound List.mem_cons_self)) adopted)
        have around := still further List.mem_cons_self
        have plainBound := (bound.agrees.isNamespace present).trans plain
        refine (closes.trans (.adopt plainBound adopted)).trans (ih ?_ (has_of_isTemplate around)
          (isNamespace_of_isTemplate around))
        intro other member
        exact still further (List.mem_cons_of_mem _ member)

/-- A declaration behind template prefixes. -/
theorem declareTemplated (reached : table.Reachable) (factory : FactoryId) (target : SymbolId)
    {request : SymbolRequest} (plain : request.kind ≠ .namespaceScope) :
    KeepsNamespaces table (table.declareTemplated factory target request).2 := by
  cases opened : table.openFrames factory target request with
  | error error =>
      simp only [SymbolTable.declareTemplated, opened]
      exact .refl table
  | ok result =>
      obtain ⟨innermost, frames⟩ := result
      obtain ⟨factories, outer, found, rfl, _, _, _⟩ := openFrames_ok_iff.1 opened
      have agrees := table.agrees_attach innermost request
      rw [declareTemplated_of_openFrames opened]
      refine (KeepsNamespaces.attach table innermost plain).trans
        (.closeFrames factory target request ?_ ?_ ?_)
      · intro template member
        have known := (reached.framesSince.stack found template member).2
        rw [agrees.isTemplate (has_of_isTemplate known), known]
      · exact (has_attach table innermost request _).2 (.inl rfl)
      · unfold isNamespace
        rw [get?_attach, if_pos rfl]
        split <;> simp [Symbol.ofRequest, Symbol.mapMembers, plain]

theorem settle {α : Type} {outcome : Except SymbolError (α × SymbolTable)}
    (succeeds : ∀ value after, outcome = .ok (value, after) → KeepsNamespaces table after) :
    KeepsNamespaces table (table.settle outcome) := by
  cases outcome with
  | error _ => exact .refl table
  | ok result => exact succeeds result.1 result.2 rfl

theorem declare {scope id : SymbolId} {request : SymbolRequest}
    (plain : request.kind ≠ .namespaceScope)
    (declared : table.declare scope request = .ok (id, after)) : KeepsNamespaces table after := by
  obtain ⟨_, attached⟩ := attach_of_declare declared
  rw [(Prod.mk.inj attached).2]
  exact .attach table scope plain

/-- The operations of a parse keep namespaces, apart from the opening of one. -/
theorem perform (reached : table.Reachable) {operation : TableOperation}
    (ordinary : operation.Ordinary)
    (other : ∀ scope name unit, operation ≠ .openNamespace scope name unit) :
    KeepsNamespaces table (table.perform operation) := by
  cases operation with
  | declare scope request => exact .settle fun _ _ declared => .declare ordinary declared
  | openNamespace scope name unit => exact absurd rfl (other scope name unit)
  | move | setOrigin => exact ordinary.elim
  | addUsing scope target =>
      exact .update table (fun symbol _ => .inl ⟨rfl, rfl, rfl⟩) fun _ => rfl
  | factoryFor container =>
      apply KeepsNamespaces.settle
      intro factory after created
      obtain ⟨_, rfl | rfl⟩ := factoryFor_ok created
      · exact .refl _
      · have extended : KeepsNamespaces table { table with
            factories := table.factories.push { container := container } } := .of_get? rfl
        exact extended.trans (.update _ (fun symbol _ => .inl ⟨rfl, rfl, rfl⟩) fun _ => rfl)
  | openTemplate factory unit =>
      apply KeepsNamespaces.settle
      intro template after opened
      obtain ⟨frames, _, rfl, rfl⟩ := openTemplate_ok opened
      exact (KeepsNamespaces.attach table _ (by simp)).trans (.of_get? rfl)
  | addParameter template request =>
      apply KeepsNamespaces.settle
      intro parameter after added
      obtain ⟨extended, declared, rfl⟩ := addParameter_ok added
      exact (KeepsNamespaces.declare ordinary declared).trans
        (.update extended (fun symbol _ => .mapTemplate symbol _) fun _ => rfl)
  | declareTemplated factory target request =>
      exact .declareTemplated reached factory target ordinary
  | popFrame factory => exact .of_get? rfl
  | discardFrames factory template => exact .of_get? rfl

/-- A node that is recorded with its symbol. -/
theorem recorded (table : SymbolTable) (kind : NodeKind) (reference : NodeRef) :
    KeepsNamespaces table (table.recorded kind reference) := by
  unfold SymbolTable.recorded
  split
  · refine .update table (fun symbol _ => .inl ?_) fun symbol => ?_
    · unfold ParseM.recordOrigin
      split <;> exact ⟨rfl, rfl, rfl⟩
    · unfold ParseM.recordOrigin
      split <;> rfl
  · exact .refl table

end KeepsNamespaces

/-! ## Namespaces of one scope -/

/-- Whether namespaces are found under their names, and no two of a scope have the same one. -/
structure NamespacesApart (table : SymbolTable) : Prop where
  entered : ∀ scope name id, table.NamespaceIn scope name id → name ≠ "" →
    id ∈ table.entries scope name
  unique : ∀ scope name id other, table.NamespaceIn scope name id →
    table.NamespaceIn scope name other → id = other

theorem NamespacesApart.keeps (apart : before.NamespacesApart)
    (keeps : KeepsNamespaces before after) : after.NamespacesApart where
  entered scope name id inside named := by
    have earlier := (keeps.same scope name id).1 inside
    exact keeps.entered scope name id earlier (apart.entered scope name id earlier named)
  unique scope name id other inside insideOther :=
    apart.unique scope name id other ((keeps.same scope name id).1 inside)
      ((keeps.same scope name other).1 insideOther)

/-- A namespace of a scope is found there. -/
theorem NamespacesApart.isSome_findNamespace? (apart : table.NamespacesApart)
    (consistent : table.Consistent) {scope id : SymbolId} {name : String}
    (inside : table.NamespaceIn scope name id) : (table.findNamespace? scope name).isSome := by
  obtain ⟨isNamespace, called, owned⟩ := namespaceIn_iff.1 inside
  unfold findNamespace?
  split
  · rename_i unnamed
    rw [List.find?_isSome]
    refine ⟨id, (consistent.tree.mem_children scope id).2 owned, ?_⟩
    obtain ⟨symbol, found, kind, named, _⟩ := inside
    simp [isAnonymousNamespace, found, Symbol.isAnonymous, named, unnamed, kind]
  · rename_i named
    rw [List.find?_isSome]
    exact ⟨id, apart.entered scope name id inside named, isNamespace⟩

/-- A scope has one namespace of a name, however often that is opened. -/
theorem NamespacesApart.openNamespace (apart : table.NamespacesApart)
    (consistent : table.Consistent) {scope id : SymbolId} {name : String} {unit : Option UnitId}
    (opened : table.openNamespace scope name unit = .ok (id, after)) : after.NamespacesApart := by
  unfold SymbolTable.openNamespace at opened
  split at opened
  · cases opened
    exact apart
  · rename_i missing
    obtain ⟨inside, attached⟩ := attach_of_declare opened
    obtain rfl : after = (table.attach scope
      { name := name, kind := .namespaceScope, unit := unit }).2 := congrArg Prod.snd attached
    -- Only if no namespace of the name is found a new one is declared.
    have fresh (old : SymbolId) : ¬ table.NamespaceIn scope name old := by
      intro known
      have found := apart.isSome_findNamespace? consistent known
      simp [missing] at found
    constructor
    · intro owner given other known named
      rcases (namespaceIn_attach ..).1 known with old | ⟨rfl, _, rfl, rfl⟩
      · exact mem_entries_attach_of_mem _ (apart.entered owner given other old named)
      · rw [entries_attach inside]
        exact List.mem_append_right _ (by simp [named])
    · intro owner given first second known knownSecond
      rcases (namespaceIn_attach ..).1 known with old | ⟨rfl, _, rfl, rfl⟩ <;>
        rcases (namespaceIn_attach ..).1 knownSecond with oldSecond | ⟨rfl, _, same, here⟩
      · exact apart.unique owner given first second old oldSecond
      · subst same here
        exact absurd old (fresh first)
      · exact absurd oldSecond (fresh second)
      · rfl

/-- Opening a namespace leaves the others as they are. -/
theorem NamespaceIn.openNamespace {scope id owner opened : SymbolId} {name given : String}
    {unit : Option UnitId} (inside : table.NamespaceIn scope name id)
    (opens : table.openNamespace owner given unit = .ok (opened, after)) :
    after.NamespaceIn scope name id := by
  rcases openNamespace_ok opens with ⟨_, rfl⟩ | declared
  · exact inside
  · obtain ⟨_, attached⟩ := attach_of_declare declared
    rw [(Prod.mk.inj attached).2]
    exact (namespaceIn_attach ..).2 (.inl inside)

/-- The operations of a parse leave namespaces where they are. -/
theorem NamespaceIn.perform {scope id : SymbolId} {name : String}
    (inside : table.NamespaceIn scope name id) (reached : table.Reachable)
    {operation : TableOperation} (ordinary : operation.Ordinary) :
    (table.perform operation).NamespaceIn scope name id := by
  cases operation with
  | openNamespace owner given unit =>
      cases opens : table.openNamespace owner given unit with
      | error error =>
          simp only [SymbolTable.perform, opens, SymbolTable.settle]
          exact inside
      | ok result =>
          simp only [SymbolTable.perform, opens, SymbolTable.settle]
          exact inside.openNamespace opens
  | _ => exact ((KeepsNamespaces.perform reached ordinary (by simp)).same scope name id).2 inside

/-- The operations of a parse keep namespaces apart. -/
theorem NamespacesApart.perform (apart : table.NamespacesApart) (reached : table.Reachable)
    {operation : TableOperation} (ordinary : operation.Ordinary) :
    (table.perform operation).NamespacesApart := by
  cases operation with
  | openNamespace scope name unit =>
      cases opened : table.openNamespace scope name unit with
      | error error =>
          simp only [SymbolTable.perform, opened, SymbolTable.settle]
          exact apart
      | ok result =>
          simp only [SymbolTable.perform, opened, SymbolTable.settle]
          exact apart.openNamespace reached.consistent opened
  | _ => exact apart.keeps (.perform reached ordinary (by simp))

theorem namespacesApart_empty : SymbolTable.empty.NamespacesApart := by
  have none (scope : SymbolId) (name : String) (id : SymbolId) :
      ¬ SymbolTable.empty.NamespaceIn scope name id := by
    rintro ⟨symbol, found, kind, _⟩
    rw [eq_of_get?_empty found] at kind
    cases kind
  exact ⟨fun scope name id inside => absurd inside (none scope name id),
    fun scope name id _ inside => absurd inside (none scope name id)⟩

end SymbolTable

end DeclTree
