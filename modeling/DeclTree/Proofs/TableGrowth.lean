import DeclTree.Proofs.FrameStacks
import DeclTree.Proofs.RefusedOperation

/-!
# How a table grows

A parse adds symbols to a table and finds others there.  What it may do to a symbol
depends on its age: one that was there when the table had `base` symbols keeps its
name, kind and owner and gets new members behind the old ones; a template opened since
then may be named, moved and given parameters.  Recording where a symbol comes from is
not part of this; it happens together with the node.
-/

namespace DeclTree

/-- Members behind the old ones. -/
structure Members.Extends (old new : Members) : Prop where
  order : old.order <+: new.order
  names : old.names <+: new.names

/-- Members among the first `base` symbols of a table. -/
structure Members.Below (base : Nat) (members : Members) : Prop where
  order : ∀ id ∈ members.order, id.index < base
  names : ∀ entry ∈ members.names, entry.2.index < base

namespace Members

variable {base : Nat} {old members : Members}

theorem Extends.refl (members : Members) : members.Extends members :=
  ⟨List.prefix_rfl, List.prefix_rfl⟩

theorem Extends.insert (extended : old.Extends members) (name : String) (id : SymbolId) :
    old.Extends (members.insert name id) where
  order := extended.order.trans (List.prefix_append _ _)
  names := by
    unfold Members.insert
    split
    · exact extended.names
    · exact extended.names.trans (List.prefix_append _ _)

theorem Extends.register (extended : old.Extends members) (name : String) (id : SymbolId) :
    old.Extends (members.register name id) := by
  unfold Members.register
  split
  · exact extended
  · exact ⟨extended.order, extended.names.trans (List.prefix_append _ _)⟩

/-- Taking out a later symbol leaves the old members in front. -/
theorem Extends.erase (extended : old.Extends members) (below : old.Below base) {id : SymbolId}
    (late : base ≤ id.index) : old.Extends (members.erase id) where
  order := by
    have kept : old.order.filter (· ≠ id) = old.order := by
      apply List.filter_eq_self.2
      intro member inside
      have early := below.order member inside
      have other : member ≠ id := fun same => by
        subst same
        omega
      simpa using other
    rw [← kept]
    exact extended.order.filter _
  names := by
    have kept : old.names.filter (·.2 ≠ id) = old.names := by
      apply List.filter_eq_self.2
      intro entry inside
      have early := below.names entry inside
      have other : entry.2 ≠ id := fun same => by
        rw [same] at early
        omega
      simpa using other
    rw [← kept]
    exact extended.names.filter _

/-- The entries under a name are those from before and then others. -/
theorem Extends.named (extended : old.Extends members) (name : String) :
    old.named name <+: members.named name :=
  (extended.names.filter _).map _

end Members

/-- What a parse may do to a symbol besides recording where it comes from. -/
structure Symbol.Grows (base : Nat) (id : SymbolId) (before after : Symbol) : Prop where
  origin : after.origin = before.origin
  unit : after.unit = before.unit
  kind : after.kind = before.kind ∨
    (base ≤ id.index ∧ before.isTemplate = true ∧ after.isTemplate = true)
  named : (after.name = before.name ∧ after.defined = before.defined ∧
      after.specialization = before.specialization) ∨
    (base ≤ id.index ∧ before.isTemplate = true)
  owner : after.owner = before.owner ∨ base ≤ id.index
  members : ∀ old : Option Members, (∀ members ∈ old, members.Below base) →
    Option.Rel Members.Extends old before.members → Option.Rel Members.Extends old after.members
  uses : before.uses ⊆ after.uses
  factory : ∀ factory, before.factory = some factory → after.factory = some factory

namespace Symbol.Grows

variable {base : Nat} {id : SymbolId} {before after later : Symbol}

theorem refl (symbol : Symbol) : Grows base id symbol symbol where
  origin := rfl
  unit := rfl
  kind := .inl rfl
  named := .inl ⟨rfl, rfl, rfl⟩
  owner := .inl rfl
  members _ _ extended := extended
  uses := List.Subset.refl _
  factory _ found := found

theorem isTemplate (grows : Grows base id before after) : after.isTemplate = before.isTemplate := by
  rcases grows.kind with same | ⟨_, template, still⟩
  · rw [Symbol.isTemplate, same, ← Symbol.isTemplate]
  · rw [template, still]

theorem trans (left : Grows base id before after) (right : Grows base id after later) :
    Grows base id before later where
  origin := right.origin.trans left.origin
  unit := right.unit.trans left.unit
  kind := by
    have template := left.isTemplate
    rcases right.kind with same | ⟨late, middle, still⟩
    · rcases left.kind with same' | ⟨late, first, still⟩
      · exact .inl (same.trans same')
      · exact .inr ⟨late, first, by rw [right.isTemplate, still]⟩
    · exact .inr ⟨late, template ▸ middle, still⟩
  named := by
    rcases right.named with ⟨name, defined, special⟩ | ⟨late, template⟩
    · rcases left.named with ⟨name', defined', special'⟩ | renamed
      · exact .inl ⟨name.trans name', defined.trans defined', special.trans special'⟩
      · exact .inr renamed
    · exact .inr ⟨late, left.isTemplate ▸ template⟩
  owner := by
    rcases right.owner with same | late
    · rcases left.owner with same' | late
      · exact .inl (same.trans same')
      · exact .inr late
    · exact .inr late
  members old below extended := right.members old below (left.members old below extended)
  uses := List.Subset.trans left.uses right.uses
  factory factory found := right.factory factory (left.factory factory found)

theorem mapMembers (symbol : Symbol) {change : Members → Members}
    (keeps : ∀ old members : Members, old.Below base → old.Extends members →
      old.Extends (change members)) : Grows base id symbol (symbol.mapMembers change) where
  origin := rfl
  unit := rfl
  kind := .inl rfl
  named := .inl ⟨rfl, rfl, rfl⟩
  owner := .inl rfl
  members old below extended := by
    change Option.Rel Members.Extends old (symbol.members.map change)
    generalize symbol.members = current at extended
    cases extended with
    | none => exact .none
    | some extended => exact .some (keeps _ _ (below _ rfl) extended)
  uses := List.Subset.refl _
  factory _ found := found

end Symbol.Grows

theorem SymbolKind.isSome_mapTemplate (kind : SymbolKind) (change : TemplateInfo → TemplateInfo) :
    (kind.mapTemplate change).templateInfo?.isSome = kind.templateInfo?.isSome := by
  cases kind <;> rfl

namespace TemplateFactory

theorem history_popped (factory : TemplateFactory) :
    factory.history <+: factory.popped.history := by
  unfold popped pop?
  split
  · exact List.prefix_rfl
  · exact List.prefix_append _ _

theorem history_discard (factory : TemplateFactory) (template : SymbolId) :
    factory.history <+: (factory.discard template).history := by
  unfold discard
  split
  · exact List.prefix_append _ _
  · exact List.prefix_rfl

end TemplateFactory

namespace SymbolTable

/-- Whether a symbol bears a name if it is a namespace. -/
def Bears (table : SymbolTable) (name : String) (id : SymbolId) : Prop :=
  ∃ symbol, table.get? id = some symbol ∧ (symbol.kind = .namespaceScope → symbol.name = name)

theorem mem_entries {table : SymbolTable} {scope id : SymbolId} {name : String} :
    id ∈ table.entries scope name ↔ ∃ members, table.members? scope = some members ∧
      (name, id) ∈ members.names := by
  unfold entries
  cases table.members? scope with
  | none => simp
  | some members => simp [Members.named]

/-- What a parse may do to a table besides recording where symbols come from, and
whether it may add namespaces. -/
structure Grows (base : Nat) (opens : Prop) (before after : SymbolTable) : Prop where
  symbols : ∀ id symbol, before.get? id = some symbol → ∃ changed,
    after.get? id = some changed ∧ symbol.Grows base id changed
  added : ∀ id symbol, before.get? id = none → after.get? id = some symbol →
    symbol.origin = none ∧ (symbol.kind = .namespaceScope → opens)
  entries : ∀ scope name id, id ∈ after.entries scope name →
    id ∈ before.entries scope name ∨ after.Bears name id
  factories : ∀ id factory, before.factory? id = some factory → ∃ changed,
    after.factory? id = some changed ∧ factory.history <+: changed.history

namespace Grows

variable {base : Nat} {opens : Prop} {before after later : SymbolTable}

theorem refl (table : SymbolTable) : Grows base opens table table where
  symbols _ symbol found := ⟨symbol, found, .refl symbol⟩
  added _ _ missing found := by cases missing.symm.trans found
  entries _ _ _ entered := .inl entered
  factories _ factory found := ⟨factory, found, List.prefix_rfl⟩

/-- A namespace keeps its name. -/
theorem bears (grows : Grows base opens before after) {name : String} {id : SymbolId}
    (bears : before.Bears name id) : after.Bears name id := by
  obtain ⟨symbol, found, named⟩ := bears
  obtain ⟨changed, there, further⟩ := grows.symbols id symbol found
  refine ⟨changed, there, ?_⟩
  intro namespaceScope
  have plain : symbol.isTemplate = false := by
    rw [← further.isTemplate]
    simp [Symbol.isTemplate, namespaceScope, SymbolKind.templateInfo?]
  rcases further.kind with sameKind | ⟨_, template, _⟩
  · rcases further.named with ⟨sameName, _⟩ | ⟨_, template⟩
    · rw [sameName]
      exact named (sameKind ▸ namespaceScope)
    · simp [plain] at template
  · simp [plain] at template

theorem trans (left : Grows base opens before after) (right : Grows base opens after later) :
    Grows base opens before later where
  symbols id symbol found := by
    obtain ⟨changed, there, grows⟩ := left.symbols id symbol found
    obtain ⟨last, present, further⟩ := right.symbols id changed there
    exact ⟨last, present, grows.trans further⟩
  added id symbol missing found := by
    cases middle : after.get? id with
    | none => exact right.added id symbol middle found
    | some earlier =>
        obtain ⟨last, present, further⟩ := right.symbols id earlier middle
        obtain rfl := Option.some.inj (present.symm.trans found)
        obtain ⟨origin, kind⟩ := left.added id earlier missing middle
        refine ⟨further.origin.trans origin, fun namespaceScope => kind ?_⟩
        rcases further.kind with same | ⟨_, _, template⟩
        · rw [← same, namespaceScope]
        · simp [Symbol.isTemplate, namespaceScope, SymbolKind.templateInfo?] at template
  entries scope name id entered := by
    rcases right.entries scope name id entered with middle | named
    · exact (left.entries scope name id middle).imp_right right.bears
    · exact .inr named
  factories id factory found := by
    obtain ⟨changed, there, grows⟩ := left.factories id factory found
    obtain ⟨last, present, further⟩ := right.factories id changed there
    exact ⟨last, present, grows.trans further⟩

/-- A symbol may be changed as its age allows; new names in it are those of their
symbols. -/
theorem change (table : SymbolTable) {id : SymbolId} {change : Symbol → Symbol}
    (grows : ∀ symbol, table.get? id = some symbol → symbol.Grows base id (change symbol))
    (entries : ∀ symbol members, table.get? id = some symbol →
      (change symbol).members = some members → ∀ name other, (name, other) ∈ members.names →
        other ∈ table.entries id name ∨ (table.update id change).Bears name other) :
    Grows base opens table (table.update id change) where
  symbols other symbol found := by
    rw [get?_update, found]
    split
    · rename_i same
      subst same
      exact ⟨change symbol, rfl, grows symbol found⟩
    · exact ⟨symbol, rfl, .refl symbol⟩
  added other symbol missing found := by
    rw [get?_update, missing] at found
    split at found <;> cases found
  entries scope name other entered := by
    by_cases here : id = scope
    · subst here
      obtain ⟨members, found, member⟩ := mem_entries.1 entered
      cases known : table.get? id with
      | none => simp [members?, known] at found
      | some symbol =>
          have changed : (change symbol).members = some members := by
            simpa [members?, known] using found
          exact entries symbol members known changed name other member
    · have elsewhere : (table.update id change).entries scope name = table.entries scope name := by
        simp [SymbolTable.entries, members?, here]
      exact .inl (elsewhere ▸ entered)
  factories _ factory found := ⟨factory, found, List.prefix_rfl⟩

theorem update (table : SymbolTable) {id : SymbolId} {change : Symbol → Symbol}
    (grows : ∀ symbol, table.get? id = some symbol → symbol.Grows base id (change symbol))
    (same : ∀ symbol, (change symbol).members = symbol.members) :
    Grows base opens table (table.update id change) := by
  apply Grows.change table grows
  intro symbol members found changed name other member
  refine .inl (mem_entries.2 ⟨members, ?_, member⟩)
  simp [members?, found, ← same symbol, changed]

theorem updateFactory (table : SymbolTable) (id : FactoryId)
    {change : TemplateFactory → TemplateFactory}
    (grows : ∀ factory, factory.history <+: (change factory).history) :
    Grows base opens table (table.updateFactory id change) where
  symbols _ symbol found := ⟨symbol, found, .refl symbol⟩
  added _ _ missing found := by cases missing.symm.trans found
  entries _ _ _ entered := .inl entered
  factories other factory found := by
    rw [factory?_updateFactory, found]
    split
    · exact ⟨change factory, rfl, grows factory⟩
    · exact ⟨factory, rfl, List.prefix_rfl⟩

theorem updateMembers (table : SymbolTable) (id : SymbolId) {change : Members → Members}
    (keeps : ∀ old members : Members, old.Below base → old.Extends members →
      old.Extends (change members))
    (entries : ∀ members : Members, ∀ name other, (name, other) ∈ (change members).names →
      (name, other) ∈ members.names ∨ table.Bears name other) :
    Grows base opens table (table.updateMembers id change) := by
  refine Grows.change table (fun symbol _ => .mapMembers symbol keeps) ?_
  intro symbol members found changed name other member
  have known : symbol.members.map change = some members := changed
  obtain ⟨old, before, rfl⟩ := Option.map_eq_some_iff.1 known
  rcases entries old name other member with earlier | ⟨named, there, bears⟩
  · exact .inl (mem_entries.2 ⟨old, by simp [members?, found, before], earlier⟩)
  · right
    unfold Bears
    rw [get?_update, there]
    split
    · exact ⟨_, rfl, bears⟩
    · exact ⟨_, rfl, bears⟩

theorem push {table : SymbolTable} (scope : SymbolId) {request : SymbolRequest}
    (plain : request.kind = .namespaceScope → opens) :
    Grows base opens table
      { table with symbols := table.symbols.push (.ofRequest (some scope) request) } where
  symbols id symbol found := by
    have old : id ≠ ⟨table.size⟩ := by
      rintro rfl
      exact not_has_fresh table (has_of_get? found)
    rw [get?_push, if_neg old, found]
    exact ⟨symbol, rfl, .refl symbol⟩
  added id symbol missing found := by
    rw [get?_push, missing] at found
    split at found
    · obtain rfl := Option.some.inj found
      exact ⟨rfl, plain⟩
    · cases found
  entries other name id entered := by
    obtain ⟨members, found, member⟩ := mem_entries.1 entered
    unfold members? at found
    rw [get?_push] at found
    split at found
    · -- A new symbol has no members.
      simp only [Symbol.ofRequest, Option.bind_eq_bind, Option.bind_some] at found
      split at found
      · rw [← Option.some.inj found] at member
        cases member
      · cases found
    · exact .inl (mem_entries.2 ⟨members, found, member⟩)
  factories _ factory found := ⟨factory, found, List.prefix_rfl⟩

/-- New names in a scope are those of a symbol that is added to it. -/
theorem insert (table : SymbolTable) (scope : SymbolId) {name : String} {id : SymbolId}
    (bears : name ≠ "" → table.Bears name id) :
    Grows base opens table (table.updateMembers scope (Members.insert · name id)) := by
  apply Grows.updateMembers
  · intro _ _ _ extended
    exact extended.insert _ _
  · intro members given other member
    unfold Members.insert at member
    split at member
    · exact .inl member
    · rename_i named
      rcases List.mem_append.1 member with earlier | fresh
      · exact .inl earlier
      · obtain ⟨rfl, rfl⟩ := Prod.mk.inj (List.mem_singleton.1 fresh)
        exact .inr (bears named)

theorem attach {table : SymbolTable} (scope : SymbolId) {request : SymbolRequest}
    (plain : request.kind = .namespaceScope → opens) :
    Grows base opens table (table.attach scope request).2 := by
  refine Grows.trans (.push scope plain) (.insert _ scope ?_)
  intro _
  refine ⟨Symbol.ofRequest (some scope) request, ?_, fun _ => rfl⟩
  rw [get?_push, if_pos rfl]

/-- A symbol of a later time may be moved. -/
theorem relocate (table : SymbolTable) {id : SymbolId} (late : base ≤ id.index)
    (scope : SymbolId) : Grows base opens table (table.relocate id scope) := by
  have owned (released : SymbolTable)
      (same : (released.get? id).map Symbol.name = (table.get? id).map Symbol.name) :
      Grows base opens released
        ((released.update id fun symbol => { symbol with owner := some scope }).updateMembers scope
          (Members.insert · (((table.get? id).map Symbol.name).getD "") id)) := by
    refine Grows.trans (.update released ?_ ?_) (.insert _ scope ?_)
    · intro symbol _
      exact { Symbol.Grows.refl symbol with owner := .inr late }
    · intro _
      rfl
    · intro named
      rw [← same] at named ⊢
      cases found : released.get? id with
      | none => simp [found] at named
      | some symbol => exact ⟨{ symbol with owner := some scope }, by simp [found], fun _ => rfl⟩
  unfold SymbolTable.relocate
  split
  · exact owned table rfl
  · rename_i old _
    refine Grows.trans (.updateMembers table old ?_ ?_) (owned _ ?_)
    · intro _ _ below extended
      exact extended.erase below late
    · intro members name other member
      exact .inl (List.mem_of_mem_filter member)
    · unfold SymbolTable.updateMembers
      rw [get?_update]
      split
      · cases table.get? id <;> rfl
      · rfl

theorem adopt {table after : SymbolTable} {name : String} {id scope : SymbolId}
    (late : base ≤ id.index) (bears : table.Bears name id)
    (adopted : table.adopt name id scope = .ok after) : Grows base opens table after := by
  unfold SymbolTable.adopt at adopted
  split at adopted
  · cases adopted
    apply Grows.updateMembers
    · intro _ _ _ extended
      exact extended.register _ _
    · intro members given other member
      unfold Members.register at member
      split at member
      · exact .inl member
      · rcases List.mem_append.1 member with earlier | fresh
        · exact .inl earlier
        · obtain ⟨rfl, rfl⟩ := Prod.mk.inj (List.mem_singleton.1 fresh)
          exact .inr bears
  · obtain ⟨_, _, rfl⟩ := move_ok adopted
    exact .relocate table late scope

theorem isTemplate (grows : Grows base opens before after) {id : SymbolId}
    (template : before.isTemplate id = true) : after.isTemplate id = true := by
  unfold SymbolTable.isTemplate at template ⊢
  cases found : before.get? id with
  | none => simp [found] at template
  | some symbol =>
      obtain ⟨changed, there, further⟩ := grows.symbols id symbol found
      rw [found] at template
      rw [there]
      exact further.isTemplate.trans template

/-- A template of a later time may be named. -/
theorem bindTemplate (table : SymbolTable) (request : SymbolRequest) {template : SymbolId}
    (late : base ≤ template.index) (isTemplate : table.isTemplate template = true)
    (inner : SymbolId) : Grows base opens table (table.bindTemplate request template inner) := by
  refine Grows.update table ?_ fun _ => rfl
  intro symbol found
  have known : symbol.isTemplate = true := by simpa [SymbolTable.isTemplate, found] using isTemplate
  have still : (symbol.kind.mapTemplate fun info =>
      { info with templated := some inner }).templateInfo?.isSome = true := by
    rw [SymbolKind.isSome_mapTemplate]
    exact known
  exact { Symbol.Grows.refl symbol with
    kind := .inr ⟨late, known, still⟩
    named := .inr ⟨late, known⟩ }

theorem bears_of_isTemplate {table : SymbolTable} {name : String} {id : SymbolId}
    (template : table.isTemplate id = true) : table.Bears name id := by
  unfold SymbolTable.isTemplate at template
  cases found : table.get? id with
  | none => simp [found] at template
  | some symbol =>
      refine ⟨symbol, found, ?_⟩
      intro namespaceScope
      simp [found, Symbol.isTemplate, namespaceScope, SymbolKind.templateInfo?] at template

/-- Closing the frames of templates of a later time. -/
theorem closeFrames (factory : FactoryId) (target : SymbolId) (request : SymbolRequest)
    {table : SymbolTable} {inner : SymbolId} (late : base ≤ inner.index)
    (bears : table.Bears request.name inner) {frames : List SymbolId}
    (templates : ∀ template ∈ frames,
      base ≤ template.index ∧ table.isTemplate template = true) :
    Grows base opens table (closeFrames factory target request table inner frames).2 := by
  induction frames generalizing table inner with
  | nil =>
      unfold SymbolTable.closeFrames
      split
      · exact .refl table
      · rename_i adopted
        exact .adopt late bears adopted
  | cons template outer ih =>
      obtain ⟨lateTemplate, isTemplate⟩ := templates template List.mem_cons_self
      have popped : Grows base opens table (table.updateFactory factory TemplateFactory.popped) :=
        .updateFactory table factory TemplateFactory.history_popped
      have bound := popped.trans
        (.bindTemplate _ request lateTemplate (popped.isTemplate isTemplate) inner)
      unfold SymbolTable.closeFrames
      simp only
      split
      · exact bound
      · rename_i after adopted
        have further := bound.trans (.adopt late (bound.bears bears) adopted)
        apply further.trans
        refine ih lateTemplate (bears_of_isTemplate (further.isTemplate isTemplate)) ?_
        intro other member
        obtain ⟨lateOther, isOther⟩ := templates other (List.mem_cons_of_mem _ member)
        exact ⟨lateOther, further.isTemplate isOther⟩

theorem settle {α : Type} {table : SymbolTable} {outcome : Except SymbolError (α × SymbolTable)}
    (grows : ∀ value after, outcome = .ok (value, after) → Grows base opens table after) :
    Grows base opens table (table.settle outcome) := by
  cases outcome with
  | error _ => exact .refl table
  | ok result => exact grows result.1 result.2 rfl

theorem declare {table after : SymbolTable} {scope id : SymbolId} {request : SymbolRequest}
    (plain : request.kind = .namespaceScope → opens)
    (declared : table.declare scope request = .ok (id, after)) :
    Grows base opens table after := by
  obtain ⟨_, attached⟩ := attach_of_declare declared
  obtain rfl : after = (table.attach scope request).2 := congrArg Prod.snd attached
  exact .attach scope plain

/-- A scope gets a factory only if it has none. -/
theorem factoryFor {table after : SymbolTable} {container : SymbolId} {factory : FactoryId}
    (created : table.factoryFor container = .ok (factory, after)) :
    Grows base opens table after := by
  cases existing : table.factoryOf container with
  | some old =>
      have unchanged : after = table := by
        obtain ⟨container, _⟩ := factoryFor_ok created
        unfold SymbolTable.factoryFor at created
        rw [checkContainer_ok_iff.2 container, existing] at created
        cases created
        rfl
      rw [unchanged]
      exact .refl table
  | none =>
      obtain ⟨_, rfl | rfl⟩ := factoryFor_ok created
      · exact .refl _
      · have pushed : Grows base opens table
            { table with factories := table.factories.push { container := container } } := {
          symbols := fun _ symbol found => ⟨symbol, found, .refl symbol⟩
          added := fun _ _ missing found => by cases missing.symm.trans found
          entries := fun _ _ _ entered => .inl entered
          factories := fun id factory found => by
            have other : id.index ≠ table.factories.size :=
              Nat.ne_of_lt (Array.getElem?_eq_some_iff.1 found).1
            rw [factory?_push, if_neg (by rintro rfl; exact other rfl)]
            exact ⟨factory, found, List.prefix_rfl⟩ }
        refine pushed.trans (.update _ ?_ fun _ => rfl)
        intro symbol found
        refine { Symbol.Grows.refl symbol with factory := ?_ }
        intro id known
        have missing : table.factoryOf container = some id := by
          unfold SymbolTable.factoryOf
          have present : table.get? container = some symbol := found
          simp [present, known]
        rw [existing] at missing
        cases missing

/-- A template of a later time may get parameters. -/
theorem mapTemplate (table : SymbolTable) {template : SymbolId} (late : base ≤ template.index)
    {change : TemplateInfo → TemplateInfo} :
    Grows base opens table (table.update template fun symbol =>
      { symbol with kind := symbol.kind.mapTemplate change }) := by
  refine Grows.update table ?_ fun _ => rfl
  intro symbol _
  refine { Symbol.Grows.refl symbol with kind := ?_ }
  cases known : symbol.isTemplate with
  | true => exact .inr ⟨late, rfl, (SymbolKind.isSome_mapTemplate symbol.kind change).trans known⟩
  | false =>
      left
      simp only [Symbol.isTemplate, Option.isSome_eq_false_iff, Option.isNone_iff_eq_none] at known
      simp only [SymbolKind.mapTemplate]
      split
      · simp_all [SymbolKind.templateInfo?]
      · rfl

theorem addUsing (table : SymbolTable) (scope target : SymbolId) :
    Grows base opens table (table.addUsing scope target) := by
  refine Grows.update table ?_ fun _ => rfl
  intro symbol _
  refine { Symbol.Grows.refl symbol with uses := ?_ }
  intro other member
  rw [Symbol.mem_uses] at member ⊢
  exact List.mem_insert_of_mem member

theorem size_le (grows : Grows base opens before after) : before.size ≤ after.size := by
  rcases Nat.eq_zero_or_pos before.size with empty | positive
  · omega
  · have last : before.Has ⟨before.size - 1⟩ := by
      rw [has_iff_lt]
      simp only
      omega
    obtain ⟨symbol, found⟩ := Option.isSome_iff_exists.1 last
    obtain ⟨changed, there, _⟩ := grows.symbols _ symbol found
    have present := (has_iff_lt _ _).1 (has_of_get? there)
    simp only at present
    omega

end Grows

/-- Whether all open templates were opened since the table had `base` symbols. -/
def FramesSince (base : Nat) (table : SymbolTable) : Prop :=
  ∀ factory, ∀ template ∈ table.stackOf factory,
    base ≤ template.index ∧ table.isTemplate template = true

end SymbolTable

/-- Operations that let the table grow: only symbols since it had `base` of them are moved
or get parameters, and namespaces are added if they may be. -/
def TableOperation.Confines (base : Nat) (opens : Prop) : TableOperation → Prop
  | .declare _ request | .declareTemplated _ _ request => request.kind = .namespaceScope → opens
  | .addParameter template request =>
      base ≤ template.index ∧ (request.kind = .namespaceScope → opens)
  | .openNamespace .. => opens
  | .move id _ => base ≤ id.index
  | .addUsing .. | .factoryFor _ | .openTemplate .. | .popFrame _ | .discardFrames .. => True
  | .setOrigin .. => False

namespace SymbolTable

theorem FramesSince.stack {base : Nat} {table : SymbolTable} (since : table.FramesSince base)
    {factory : FactoryId} {frames : TemplateFactory}
    (found : table.factory? factory = some frames) :
    ∀ template ∈ frames.stack, base ≤ template.index ∧ table.isTemplate template = true := by
  intro template member
  apply since factory
  simpa [stackOf, found] using member

/-- Closing the frames of a factory behind a new declaration. -/
theorem FramesSince.grows_closeFrames {base : Nat} {opens : Prop} {table : SymbolTable}
    (since : table.FramesSince base) (large : base ≤ table.size) {factory : FactoryId}
    {target : SymbolId} {request : SymbolRequest} {innermost : SymbolId} {frames : List SymbolId}
    (checked : table.openFrames factory target request = .ok (innermost, frames)) :
    Grows base opens (table.attach innermost request).2
      (closeFrames factory target request (table.attach innermost request).2 ⟨table.size⟩
        frames).2 := by
  obtain ⟨opened, _, found, rfl, _⟩ := openFrames_ok_iff.1 checked
  have attached : Grows base True table (table.attach innermost request).2 :=
    .attach innermost fun _ => trivial
  have named : (table.attach innermost request).2.Bears request.name ⟨table.size⟩ := by
    unfold Bears
    rw [get?_attach, if_pos rfl]
    refine ⟨_, rfl, ?_⟩
    split <;> exact fun _ => rfl
  apply Grows.closeFrames factory target request large named
  intro template member
  obtain ⟨late, isTemplate⟩ := since.stack found template member
  exact ⟨late, attached.isTemplate isTemplate⟩

theorem grows_declareTemplated {base : Nat} {opens : Prop} {table : SymbolTable}
    (since : table.FramesSince base) (large : base ≤ table.size) {factory : FactoryId}
    {target : SymbolId} {request : SymbolRequest} (plain : request.kind = .namespaceScope → opens) :
    Grows base opens table (table.declareTemplated factory target request).2 := by
  cases checked : table.openFrames factory target request with
  | error error =>
      simp only [SymbolTable.declareTemplated, checked]
      exact .refl table
  | ok result =>
      obtain ⟨innermost, frames⟩ := result
      rw [declareTemplated_of_openFrames checked]
      exact Grows.trans (.attach innermost plain) (since.grows_closeFrames large checked)

theorem grows_perform {base : Nat} {opens : Prop} {table : SymbolTable}
    (since : table.FramesSince base) (large : base ≤ table.size) {operation : TableOperation}
    (confined : operation.Confines base opens) :
    Grows base opens table (table.perform operation) := by
  cases operation with
  | declare scope request =>
      exact .settle fun _ _ declared => .declare confined declared
  | openNamespace scope name unit =>
      apply Grows.settle
      intro id after opened
      rcases openNamespace_ok opened with ⟨_, rfl⟩ | declared
      · exact .refl _
      · exact .declare (fun _ => confined) declared
  | move id scope =>
      apply Grows.settle
      intro _ after moved
      obtain ⟨_, _, rfl⟩ := move_ok (map_pair_ok moved)
      exact .relocate table confined scope
  | addUsing scope target =>
      exact .addUsing table scope target
  | factoryFor container =>
      apply Grows.settle
      intro id after created
      exact .factoryFor created
  | openTemplate factory unit =>
      apply Grows.settle
      intro id after opened
      obtain ⟨frames, _, rfl, rfl⟩ := openTemplate_ok opened
      refine Grows.trans (.attach _ ?_) (.updateFactory _ factory ?_)
      · simp
      · intro frames
        exact List.prefix_append _ _
  | addParameter template request =>
      apply Grows.settle
      intro id after added
      obtain ⟨extended, declared, rfl⟩ := addParameter_ok added
      exact Grows.trans (.declare confined.2 declared) (.mapTemplate extended confined.1)
  | declareTemplated factory target request =>
      exact grows_declareTemplated since large confined
  | popFrame factory => exact .updateFactory table factory TemplateFactory.history_popped
  | discardFrames factory template =>
      apply Grows.updateFactory
      intro frames
      exact frames.history_discard template
  | setOrigin => exact confined.elim

theorem FramesSince.grows {base : Nat} {opens : Prop} {before after : SymbolTable}
    (since : before.FramesSince base) (grows : Grows base opens before after)
    (within : before.StacksWithin after) : after.FramesSince base := by
  intro factory template member
  obtain ⟨late, isTemplate⟩ := since factory template ((within factory).subset member)
  exact ⟨late, grows.isTemplate isTemplate⟩

theorem stacksWithin_discardTemplate (table : SymbolTable) (factory : FactoryId)
    (template : SymbolId) : table.StacksWithin (table.discardTemplate factory template) := by
  intro other
  unfold discardTemplate
  rw [stackOf_updateFactory]
  split
  · cases found : table.factory? other with
    | none => simp [stackOf, found]
    | some frames => simpa [stackOf, found] using frames.stack_discard_suffix template
  · exact List.suffix_refl _

/-- A template that is opened is one of the table. -/
theorem isTemplate_openTemplate {table after : SymbolTable} {factory : FactoryId}
    {unit : Option UnitId} {template : SymbolId}
    (opened : table.openTemplate factory unit = .ok (template, after)) :
    template = ⟨table.size⟩ ∧ after.isTemplate template = true := by
  obtain ⟨frames, found, rfl, rfl⟩ := openTemplate_ok opened
  refine ⟨rfl, ?_⟩
  change (table.attach _ _).2.isTemplate ⟨table.size⟩ = true
  unfold isTemplate
  rw [get?_attach, if_pos rfl]
  simp only [Option.map_some, Option.any_some]
  split <;> rfl

theorem FramesSince.perform {base : Nat} {opens : Prop} {table : SymbolTable}
    (since : table.FramesSince base) (large : base ≤ table.size) {operation : TableOperation}
    (confined : operation.Confines base opens) : (table.perform operation).FramesSince base := by
  have grows := grows_perform since large confined
  have kept (keeps : operation.KeepsFrames) : (table.perform operation).FramesSince base :=
    since.grows grows (stacksWithin_of_eq (table.stackOf_perform keeps))
  cases operation with
  | declare | openNamespace | addUsing | factoryFor | addParameter => exact kept trivial
  | move id scope =>
      refine since.grows grows (stacksWithin_of_eq fun factory => stackOf_settle ?_)
      intro _ after moved
      obtain ⟨_, _, rfl⟩ := move_ok (map_pair_ok moved)
      exact stackOf_congr (factories_relocate table id scope) factory
  | openTemplate factory unit =>
      cases opened : table.openTemplate factory unit with
      | error error =>
          have unchanged : table.perform (.openTemplate factory unit) = table := by
            simp [SymbolTable.perform, opened, SymbolTable.settle]
          rw [unchanged]
          exact since
      | ok result =>
          obtain ⟨template, after⟩ := result
          have changed : table.perform (.openTemplate factory unit) = after := by
            simp [SymbolTable.perform, opened, SymbolTable.settle]
          rw [changed] at grows ⊢
          obtain ⟨fresh, isTemplate⟩ := isTemplate_openTemplate opened
          intro other frame member
          rw [stackOf_openTemplate opened] at member
          have old (inside : frame ∈ table.stackOf other) :
              base ≤ frame.index ∧ after.isTemplate frame = true := by
            obtain ⟨late, known⟩ := since other frame inside
            exact ⟨late, grows.isTemplate known⟩
          split at member
          · rcases List.mem_cons.1 member with rfl | inside
            · exact ⟨by rw [fresh]; exact large, isTemplate⟩
            · exact old inside
          · exact old member
  | declareTemplated factory target request =>
      exact since.grows grows (table.stacksWithin_declareTemplated factory target request)
  | discardFrames factory template =>
      exact since.grows grows (table.stacksWithin_discardTemplate factory template)
  | popFrame factory => exact since.grows grows (table.stacksWithin_popFrame factory)
  | setOrigin => exact confined.elim

/-- A change of a symbol that neither makes it a template nor unmakes it. -/
theorem FramesSince.update {base : Nat} {table : SymbolTable} (since : table.FramesSince base)
    (id : SymbolId) {change : Symbol → Symbol}
    (same : ∀ symbol, (change symbol).isTemplate = symbol.isTemplate) :
    (table.update id change).FramesSince base := by
  intro factory template member
  obtain ⟨late, isTemplate⟩ := since factory template member
  refine ⟨late, ?_⟩
  unfold SymbolTable.isTemplate at isTemplate ⊢
  rw [get?_update]
  split
  · cases found : table.get? template with
    | none => simp [found] at isTemplate
    | some symbol =>
        rw [found] at isTemplate
        exact (same symbol).trans isTemplate
  · exact isTemplate

/-- In every table in use the open templates are templates. -/
theorem Reachable.framesSince {table : SymbolTable} (reached : table.Reachable) :
    table.FramesSince 0 := by
  induction reached with
  | empty =>
      intro factory template member
      simp [stackOf, factory?, SymbolTable.empty] at member
  | @perform table operation _ _ since =>
      have further (confined : operation.Confines 0 True) :
          (table.perform operation).FramesSince 0 := since.perform (Nat.zero_le _) confined
      cases operation with
      | declare | declareTemplated => exact further fun _ => trivial
      | addParameter => exact further ⟨Nat.zero_le _, fun _ => trivial⟩
      | move => exact further (Nat.zero_le _)
      | openNamespace | addUsing | factoryFor | openTemplate | popFrame | discardFrames =>
          exact further trivial
      | setOrigin id origin =>
          cases changed : table.setOrigin id origin with
          | error error => simpa [SymbolTable.perform, changed, Except.map, settle] using since
          | ok after =>
              have updated : table.perform (.setOrigin id origin) = after := by
                simp [SymbolTable.perform, changed, Except.map, settle]
              rw [updated, setOrigin_ok changed]
              exact since.update id fun _ => rfl

end SymbolTable

end DeclTree
