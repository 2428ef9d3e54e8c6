import DeclTree.Proofs.NodeCoherence
import DeclTree.Proofs.PlainDeclarations

/-!
# What symbols list

A symbol lists the scopes that its using directives name, and a template its parameters.  These
lists are extended by one operation each, and nothing else that a parse does to a table changes
them.  Every parameter stays in the template that lists it, since all that is moved are templates
and what they have just been declared to wrap.
-/

namespace DeclTree

def Symbol.parameters (symbol : Symbol) : List SymbolId :=
  (symbol.kind.templateInfo?.map TemplateInfo.parameters).getD []

/-- Whether a changed symbol lists what it listed. -/
structure Symbol.ListsAs (symbol changed : Symbol) : Prop where
  uses : changed.uses = symbol.uses
  parameters : changed.parameters = symbol.parameters

/-- A change that leaves the lists of a symbol alone. -/
theorem Symbol.ListsAs.of_eq {symbol changed : Symbol} (uses : changed.uses = symbol.uses)
    (kind : changed.kind = symbol.kind) : symbol.ListsAs changed :=
  ⟨uses, by unfold Symbol.parameters; rw [kind]⟩

/-- What is no template is not changed as one. -/
theorem Symbol.mapTemplate_plain (symbol : Symbol) (plain : symbol.isTemplate = false)
    (change : TemplateInfo → TemplateInfo) : symbol.kind.mapTemplate change = symbol.kind := by
  cases kind : symbol.kind with
  | template info => simp [Symbol.isTemplate, kind, SymbolKind.templateInfo?] at plain
  | _ => rfl

namespace SymbolTable

variable {before after later table : SymbolTable}

theorem templateParameters_eq (table : SymbolTable) (id : SymbolId) :
    table.templateParameters id = ((table.get? id).map Symbol.parameters).getD [] := by
  unfold templateParameters
  cases table.get? id with
  | none => rfl
  | some symbol => rfl

/-- Whether all symbols list what they listed, and new ones nothing. -/
structure KeepsLists (before after : SymbolTable) : Prop where
  usings : ∀ scope, after.usings scope = before.usings scope
  parameters : ∀ template, after.templateParameters template = before.templateParameters template

namespace KeepsLists

theorem refl (table : SymbolTable) : KeepsLists table table :=
  ⟨fun _ => rfl, fun _ => rfl⟩

theorem trans (left : KeepsLists before after) (right : KeepsLists after later) :
    KeepsLists before later where
  usings scope := (right.usings scope).trans (left.usings scope)
  parameters template := (right.parameters template).trans (left.parameters template)

/-- Symbols that are changed in place. -/
theorem of_map (change : SymbolId → Symbol → Symbol)
    (found : ∀ id, after.get? id = (before.get? id).map (change id))
    (same : ∀ id (symbol : Symbol), symbol.ListsAs (change id symbol)) :
    KeepsLists before after where
  usings id := by
    unfold SymbolTable.usings
    rw [found]
    cases before.get? id with
    | none => rfl
    | some symbol => exact (same id symbol).uses
  parameters id := by
    rw [templateParameters_eq, templateParameters_eq, found]
    cases before.get? id with
    | none => rfl
    | some symbol => exact (same id symbol).parameters

/-- A change of one symbol. -/
theorem update (table : SymbolTable) (id : SymbolId) {change : Symbol → Symbol}
    (same : ∀ symbol : Symbol, symbol.ListsAs (change symbol)) :
    KeepsLists table (table.update id change) := by
  refine of_map (fun other symbol => if id = other then change symbol else symbol) ?_ ?_
  · intro other
    rw [get?_update]
    split <;> simp
  · intro other symbol
    split
    · exact same symbol
    · exact .of_eq rfl rfl

/-- Tables with the same symbols. -/
theorem of_get? (same : after.get? = before.get?) : KeepsLists before after := by
  refine of_map (fun _ symbol => symbol) ?_ fun _ _ => .of_eq rfl rfl
  intro id
  rw [same, Option.map_id']

/-- A new symbol lists nothing. -/
theorem attach (table : SymbolTable) (scope : SymbolId) {request : SymbolRequest}
    (bare : ∀ owner, (Symbol.ofRequest owner request).parameters = []) :
    KeepsLists table (table.attach scope request).2 := by
  have missing : table.get? ⟨table.size⟩ = none := by
    simpa [Has] using table.not_has_fresh
  constructor
  · intro id
    unfold SymbolTable.usings
    rw [get?_attach]
    by_cases new : id = ⟨table.size⟩
    · rw [if_pos new, new, missing]
      split <;> rfl
    · rw [if_neg new]
      cases table.get? id with
      | none => rfl
      | some symbol => split <;> rfl
  · intro id
    rw [templateParameters_eq, templateParameters_eq, get?_attach]
    by_cases new : id = ⟨table.size⟩
    · rw [if_pos new, new, missing]
      split <;> exact bare (some scope)
    · rw [if_neg new]
      cases table.get? id with
      | none => rfl
      | some symbol => split <;> rfl

theorem relocate (table : SymbolTable) (id scope : SymbolId) :
    KeepsLists table (table.relocate id scope) := by
  refine of_map _ (table.get?_relocate id scope) fun other symbol => ?_
  dsimp only
  split <;> split <;> split <;> exact .of_eq rfl rfl

theorem adopt {name : String} {id scope : SymbolId}
    (adopted : table.adopt name id scope = .ok after) : KeepsLists table after := by
  unfold SymbolTable.adopt at adopted
  split at adopted
  · cases adopted
    exact .update table scope fun symbol => .of_eq rfl rfl
  · obtain ⟨_, _, rfl⟩ := move_ok adopted
    exact .relocate table id scope

/-- A template that is named and wraps a declaration. -/
theorem bindTemplate (table : SymbolTable) (request : SymbolRequest) (template inner : SymbolId) :
    KeepsLists table (table.bindTemplate request template inner) := by
  refine .update table template fun symbol => ⟨rfl, ?_⟩
  cases known : symbol.kind <;>
    simp [Symbol.parameters, known, SymbolKind.mapTemplate, SymbolKind.templateInfo?]

theorem closeFrames (factory : FactoryId) (target : SymbolId) (request : SymbolRequest)
    (inner : SymbolId) (frames : List SymbolId) :
    KeepsLists table (closeFrames factory target request table inner frames).2 := by
  induction frames generalizing table inner with
  | nil =>
      unfold SymbolTable.closeFrames
      split
      · exact .refl table
      · rename_i adopted
        exact .adopt adopted
  | cons template outer ih =>
      have popped : KeepsLists table (table.updateFactory factory TemplateFactory.popped) :=
        .of_get? rfl
      have bound := popped.trans (.bindTemplate _ request template inner)
      unfold SymbolTable.closeFrames
      simp only
      split
      · exact bound
      · rename_i adopted
        exact (bound.trans (.adopt adopted)).trans (ih template)

theorem declareTemplated (factory : FactoryId) (target : SymbolId) {request : SymbolRequest}
    (plain : request.kind.templateInfo? = none) :
    KeepsLists table (table.declareTemplated factory target request).2 := by
  cases opened : table.openFrames factory target request with
  | error error =>
      simp only [SymbolTable.declareTemplated, opened]
      exact .refl table
  | ok result =>
      obtain ⟨innermost, frames⟩ := result
      rw [declareTemplated_of_openFrames opened]
      have added : KeepsLists table (table.attach innermost request).2 :=
        .attach table innermost fun _ => by simp [Symbol.parameters, Symbol.ofRequest, plain]
      exact added.trans (.closeFrames factory target request _ frames)

theorem settle {α : Type} {outcome : Except SymbolError (α × SymbolTable)}
    (succeeds : ∀ value after, outcome = .ok (value, after) → KeepsLists table after) :
    KeepsLists table (table.settle outcome) := by
  cases outcome with
  | error _ => exact .refl table
  | ok result => exact succeeds result.1 result.2 rfl

theorem declare {scope id : SymbolId} {request : SymbolRequest}
    (plain : request.kind.templateInfo? = none)
    (declared : table.declare scope request = .ok (id, after)) : KeepsLists table after := by
  obtain ⟨_, attached⟩ := attach_of_declare declared
  rw [(Prod.mk.inj attached).2]
  exact .attach table scope fun _ => by simp [Symbol.parameters, Symbol.ofRequest, plain]

theorem openNamespace {scope id : SymbolId} {name : String} {unit : Option UnitId}
    (opened : table.openNamespace scope name unit = .ok (id, after)) : KeepsLists table after := by
  rcases openNamespace_ok opened with ⟨_, rfl⟩ | declared
  · exact .refl after
  · exact .declare rfl declared

theorem openTemplate {factory : FactoryId} {unit : Option UnitId} {template : SymbolId}
    (opened : table.openTemplate factory unit = .ok (template, after)) :
    KeepsLists table after := by
  obtain ⟨frames, _, rfl, rfl⟩ := openTemplate_ok opened
  have added : KeepsLists table (table.attach (frames.current?.getD frames.container)
      { name := "", kind := .template {}, unit := unit }).2 :=
    .attach table _ fun _ => rfl
  exact added.trans (.of_get? rfl)

theorem factoryFor {container : SymbolId} {factory : FactoryId}
    (created : table.factoryFor container = .ok (factory, after)) : KeepsLists table after := by
  obtain ⟨_, rfl | rfl⟩ := factoryFor_ok created
  · exact .refl after
  · have extended : KeepsLists table { table with
        factories := table.factories.push { container := container } } := .of_get? rfl
    exact extended.trans (.update _ _ fun symbol => .of_eq rfl rfl)

/-- A node that is recorded with its symbol. -/
theorem recorded (table : SymbolTable) (kind : NodeKind) (reference : NodeRef) :
    KeepsLists table (table.recorded kind reference) := by
  unfold SymbolTable.recorded
  split
  · refine .update table _ fun symbol => ?_
    unfold ParseM.recordOrigin
    split <;> exact .of_eq rfl rfl
  · exact .refl table

end KeepsLists

end SymbolTable

def TableOperation.Idle : TableOperation → Prop
  | .addUsing .. | .addParameter .. => False
  | _ => True

namespace SymbolTable

variable {before after table : SymbolTable}

/-- Only a using directive and a parameter extend a list. -/
theorem KeepsLists.perform {operation : TableOperation} (admitted : table.Admits operation)
    (idle : operation.Idle) : KeepsLists table (table.perform operation) := by
  cases operation with
  | declare scope request => exact .settle fun _ _ declared => .declare admitted declared
  | openNamespace scope name unit => exact .settle fun _ _ opened => .openNamespace opened
  | move id scope =>
      apply KeepsLists.settle
      intro value after moved
      obtain ⟨_, _, rfl⟩ := move_ok (map_pair_ok moved)
      exact .relocate table id scope
  | setOrigin id origin =>
      apply KeepsLists.settle
      intro value after recorded
      obtain rfl := setOrigin_ok (map_pair_ok recorded)
      exact .update table id fun symbol => .of_eq rfl rfl
  | addUsing | addParameter => exact idle.elim
  | factoryFor container => exact .settle fun _ _ created => .factoryFor created
  | openTemplate factory unit => exact .settle fun _ _ opened => .openTemplate opened
  | declareTemplated factory target request => exact .declareTemplated factory target admitted
  | popFrame | discardFrames => exact .of_get? rfl

/-! ## The lists that are extended -/

/-- A using directive extends the list of its scope. -/
theorem mem_usings_addUsing {scope target other used : SymbolId} :
    used ∈ (table.addUsing scope target).usings other ↔
      used ∈ table.usings other ∨ scope = other ∧ used = target ∧ table.Has other := by
  rw [mem_usings, mem_usings, addUsing, get?_update, Has]
  cases table.get? other with
  | none => simp
  | some symbol =>
      split
      · rename_i here
        simp [here, or_comm]
      · rename_i elsewhere
        simp [elsewhere]

theorem templateParameters_addUsing (table : SymbolTable) (scope target template : SymbolId) :
    (table.addUsing scope target).templateParameters template =
      table.templateParameters template := by
  rw [templateParameters_eq, templateParameters_eq]
  unfold addUsing
  rw [get?_update]
  split
  · cases table.get? template <;> rfl
  · rfl

/-- A parameter goes behind the others of its template. -/
theorem templateParameters_addParameter {template parameter : SymbolId} {request : SymbolRequest}
    (plain : request.kind.templateInfo? = none)
    (added : table.addParameter template request = .ok (parameter, after)) (other : SymbolId) :
    after.templateParameters other =
      if template = other then table.templateParameters template ++ [parameter]
      else table.templateParameters other := by
  have isTemplate : table.isTemplate template = true := by
    by_contra plain
    have wrong : table.isTemplate template = false := by simpa using plain
    simp [addParameter, wrong, throw, throwThe, MonadExceptOf.throw, bind, Except.bind] at added
  obtain ⟨extended, declared, rfl⟩ := addParameter_ok added
  have keeps := KeepsLists.declare plain declared
  have agrees : table.Agrees extended := by
    obtain ⟨_, attached⟩ := attach_of_declare declared
    rw [(Prod.mk.inj attached).2]
    exact table.agrees_attach _ _
  have present := has_of_isTemplate isTemplate
  have still := (agrees.isTemplate present).trans isTemplate
  rw [← keeps.parameters template, ← keeps.parameters other, templateParameters_eq,
    templateParameters_eq, templateParameters_eq, get?_update]
  split
  · rename_i here
    subst here
    unfold SymbolTable.isTemplate at still
    cases found : extended.get? template with
    | none => simp [found] at still
    | some symbol =>
        cases kind : symbol.kind <;>
          simp_all [Symbol.isTemplate, Symbol.parameters, SymbolKind.mapTemplate,
            SymbolKind.templateInfo?]
  · rfl

theorem usings_addParameter {template parameter : SymbolId} {request : SymbolRequest}
    (plain : request.kind.templateInfo? = none)
    (added : table.addParameter template request = .ok (parameter, after)) (scope : SymbolId) :
    after.usings scope = table.usings scope := by
  obtain ⟨extended, declared, rfl⟩ := addParameter_ok added
  rw [← (KeepsLists.declare plain declared).usings scope]
  unfold usings
  rw [get?_update]
  split
  · cases extended.get? scope <;> rfl
  · rfl

/-! ## Parameters and the templates they are in -/

/-- Whether all symbols stay, and those that are no templates stay what they are and in the
scopes they are in. -/
structure KeepsPlaces (before after : SymbolTable) : Prop where
  has : ∀ id, before.Has id → after.Has id
  plain : ∀ id symbol, before.get? id = some symbol → symbol.isTemplate = false →
    ∃ changed, after.get? id = some changed ∧ changed.kind = symbol.kind ∧
      changed.owner = symbol.owner

namespace KeepsPlaces

theorem refl (table : SymbolTable) : KeepsPlaces table table where
  has _ present := present
  plain _ symbol found _ := ⟨symbol, found, rfl, rfl⟩

theorem trans (left : KeepsPlaces before after) (right : KeepsPlaces after later) :
    KeepsPlaces before later where
  has id present := right.has id (left.has id present)
  plain id symbol found plain := by
    obtain ⟨middle, there, kind, owner⟩ := left.plain id symbol found plain
    have plainMiddle : middle.isTemplate = false := by
      rwa [Symbol.isTemplate, kind, ← Symbol.isTemplate]
    obtain ⟨last, present, kindLast, ownerLast⟩ := right.plain id middle there plainMiddle
    exact ⟨last, present, kindLast.trans kind, ownerLast.trans owner⟩

/-- Symbols that are changed in place. -/
theorem of_map (change : SymbolId → Symbol → Symbol)
    (found : ∀ id, after.get? id = (before.get? id).map (change id))
    (kept : ∀ id symbol, before.get? id = some symbol → symbol.isTemplate = false →
      (change id symbol).kind = symbol.kind ∧ (change id symbol).owner = symbol.owner) :
    KeepsPlaces before after where
  has id present := by
    obtain ⟨symbol, there⟩ := Option.isSome_iff_exists.1 present
    exact has_of_get? (by rw [found, there]; rfl)
  plain id symbol there plain :=
    ⟨change id symbol, by rw [found, there]; rfl, kept id symbol there plain⟩

/-- A change of one symbol. -/
theorem update (table : SymbolTable) (id : SymbolId) {change : Symbol → Symbol}
    (same : ∀ symbol : Symbol, symbol.isTemplate = false →
      (change symbol).kind = symbol.kind ∧ (change symbol).owner = symbol.owner) :
    KeepsPlaces table (table.update id change) := by
  refine of_map (fun other symbol => if id = other then change symbol else symbol) ?_ ?_
  · intro other
    rw [get?_update]
    split <;> simp
  · intro other symbol _ plain
    split
    · exact same symbol plain
    · exact ⟨rfl, rfl⟩

/-- Tables with the same symbols. -/
theorem of_get? (same : after.get? = before.get?) : KeepsPlaces before after := by
  refine of_map (fun _ symbol => symbol) ?_ fun _ _ _ _ => ⟨rfl, rfl⟩
  intro id
  rw [same, Option.map_id']

theorem attach (table : SymbolTable) (scope : SymbolId) (request : SymbolRequest) :
    KeepsPlaces table (table.attach scope request).2 where
  has id present := (has_attach table scope request id).2 (.inr present)
  plain id symbol found plain := by
    have old : id ≠ ⟨table.size⟩ := by
      rintro rfl
      exact table.not_has_fresh (has_of_get? found)
    rw [get?_attach, if_neg old, found]
    refine ⟨_, rfl, ?_⟩
    split <;> exact ⟨rfl, rfl⟩

/-- A symbol that is adopted is a template, or in that scope already. -/
theorem adopt {name : String} {id scope : SymbolId}
    (settled : table.isTemplate id = true ∨ table.owner id = some scope)
    (adopted : table.adopt name id scope = .ok after) : KeepsPlaces table after := by
  unfold SymbolTable.adopt at adopted
  split at adopted
  · cases adopted
    exact .update table scope fun _ _ => ⟨rfl, rfl⟩
  · rename_i elsewhere
    obtain ⟨_, _, rfl⟩ := move_ok adopted
    have template := settled.resolve_right elsewhere
    refine of_map _ (table.get?_relocate id scope) fun other symbol found plain => ?_
    have other : id ≠ other := by
      rintro rfl
      simp [SymbolTable.isTemplate, found, plain] at template
    simp only [if_neg other]
    split <;> split <;> exact ⟨rfl, rfl⟩

/-- Closing frames moves templates only: what they are closed around is in the innermost one. -/
theorem closeFrames (factory : FactoryId) (target : SymbolId) (request : SymbolRequest)
    {inner : SymbolId} {frames : List SymbolId}
    (templates : ∀ template ∈ frames, table.isTemplate template = true)
    (settled : table.isTemplate inner = true ∨
      ∃ template, frames.head? = some template ∧ table.owner inner = some template) :
    KeepsPlaces table (closeFrames factory target request table inner frames).2 := by
  induction frames generalizing table inner with
  | nil =>
      have template : table.isTemplate inner = true := by
        rcases settled with template | ⟨_, none, _⟩
        · exact template
        · cases none
      unfold SymbolTable.closeFrames
      split
      · exact .refl table
      · rename_i adopted
        exact .adopt (.inl template) adopted
  | cons template outer ih =>
      have still {next : SymbolTable} (agrees : table.Agrees next) {other : SymbolId}
          (known : table.isTemplate other = true) : next.isTemplate other = true :=
        (agrees.isTemplate (has_of_isTemplate known)).trans known
      have isPopped : (table.updateFactory factory TemplateFactory.popped).isTemplate template =
        true := templates template List.mem_cons_self
      have popped : KeepsPlain table (table.updateFactory factory TemplateFactory.popped) :=
        .of_get? rfl
      have bound := popped.trans (.bindTemplate request isPopped inner)
      have pops : KeepsPlaces table (table.updateFactory factory TemplateFactory.popped) :=
        .of_get? rfl
      have binds : KeepsPlaces table ((table.updateFactory factory
          TemplateFactory.popped).bindTemplate request template inner) :=
        pops.trans (.update _ template fun symbol plain => ⟨symbol.mapTemplate_plain plain _, rfl⟩)
      unfold SymbolTable.closeFrames
      simp only
      split
      · exact binds
      · rename_i adopted
        have wraps := still bound.agrees (templates template List.mem_cons_self)
        have further := bound.trans (.adopt (.inl wraps) adopted)
        refine (binds.trans (.adopt ?_ adopted)).trans (ih ?_ (.inl ?_))
        · rcases settled with inside | ⟨_, head, owned⟩
          · exact .inl (still bound.agrees inside)
          · obtain rfl := Option.some.inj head
            rw [SymbolTable.bindTemplate, owner_update (by simp)]
            exact .inr owned
        · intro other member
          exact still further.agrees (templates other (List.mem_cons_of_mem _ member))
        · exact still further.agrees (templates template List.mem_cons_self)

/-- What a declaration does with the frames that are open for it. -/
theorem closing (reached : table.Reachable) {factory : FactoryId} {target innermost : SymbolId}
    {request : SymbolRequest} {frames : List SymbolId}
    (opened : table.openFrames factory target request = .ok (innermost, frames)) :
    KeepsPlaces (table.attach innermost request).2 (SymbolTable.closeFrames factory target request
      (table.attach innermost request).2 ⟨table.size⟩ frames).2 := by
  obtain ⟨factories, outer, found, rfl, stack, _, _⟩ := openFrames_ok_iff.1 opened
  have templates (template : SymbolId) (member : template ∈ factories.stack) :=
    (reached.framesSince.stack found template member).2
  have inside := has_of_isTemplate (templates innermost (stack ▸ List.mem_cons_self))
  have agrees := table.agrees_attach innermost request
  refine .closeFrames factory target request ?_ (.inr ⟨innermost, by rw [stack]; rfl, ?_⟩)
  · intro template member
    have known := templates template member
    rw [agrees.isTemplate (has_of_isTemplate known), known]
  · rw [owner_attach inside, if_pos rfl]

theorem declareTemplated (reached : table.Reachable) (factory : FactoryId) (target : SymbolId)
    (request : SymbolRequest) :
    KeepsPlaces table (table.declareTemplated factory target request).2 := by
  cases opened : table.openFrames factory target request with
  | error error =>
      simp only [SymbolTable.declareTemplated, opened]
      exact .refl table
  | ok result =>
      rw [declareTemplated_of_openFrames opened]
      exact (KeepsPlaces.attach table _ request).trans (.closing reached opened)

theorem settle {α : Type} {outcome : Except SymbolError (α × SymbolTable)}
    (succeeds : ∀ value after, outcome = .ok (value, after) → KeepsPlaces table after) :
    KeepsPlaces table (table.settle outcome) := by
  cases outcome with
  | error _ => exact .refl table
  | ok result => exact succeeds result.1 result.2 rfl

theorem declare {scope id : SymbolId} {request : SymbolRequest}
    (declared : table.declare scope request = .ok (id, after)) : KeepsPlaces table after := by
  obtain ⟨_, attached⟩ := attach_of_declare declared
  rw [(Prod.mk.inj attached).2]
  exact .attach table scope request

/-- Symbols that are no templates stay in their scopes, unless they are moved on their own. -/
theorem perform (reached : table.Reachable) {operation : TableOperation}
    (unmoved : ∀ id scope, operation ≠ .move id scope) :
    KeepsPlaces table (table.perform operation) := by
  cases operation with
  | declare scope request => exact .settle fun _ _ declared => .declare declared
  | openNamespace scope name unit =>
      apply KeepsPlaces.settle
      intro id after opened
      rcases openNamespace_ok opened with ⟨_, rfl⟩ | declared
      · exact .refl after
      · exact .declare declared
  | move id scope => exact absurd rfl (unmoved id scope)
  | setOrigin id origin =>
      apply KeepsPlaces.settle
      intro value after recorded
      obtain rfl := setOrigin_ok (map_pair_ok recorded)
      exact .update table id fun _ _ => ⟨rfl, rfl⟩
  | addUsing scope target => exact .update table scope fun _ _ => ⟨rfl, rfl⟩
  | addParameter template request =>
      apply KeepsPlaces.settle
      intro parameter after added
      obtain ⟨extended, declared, rfl⟩ := addParameter_ok added
      exact (KeepsPlaces.declare declared).trans
        (.update extended template fun symbol plain => ⟨symbol.mapTemplate_plain plain _, rfl⟩)
  | factoryFor container =>
      apply KeepsPlaces.settle
      intro factory after created
      obtain ⟨_, rfl | rfl⟩ := factoryFor_ok created
      · exact .refl _
      · have extended : KeepsPlaces table { table with
            factories := table.factories.push { container := container } } := .of_get? rfl
        exact extended.trans (.update _ _ fun _ _ => ⟨rfl, rfl⟩)
  | openTemplate factory unit =>
      apply KeepsPlaces.settle
      intro template after opened
      obtain ⟨frames, _, rfl, rfl⟩ := openTemplate_ok opened
      exact (KeepsPlaces.attach table _ _).trans (.of_get? rfl)
  | declareTemplated factory target request =>
      exact .declareTemplated reached factory target request
  | popFrame | discardFrames => exact .of_get? rfl

/-- A node that is recorded with its symbol. -/
theorem recorded (table : SymbolTable) (kind : NodeKind) (reference : NodeRef) :
    KeepsPlaces table (table.recorded kind reference) := by
  unfold SymbolTable.recorded
  split
  · refine .update table _ fun symbol _ => ?_
    unfold ParseM.recordOrigin
    split <;> exact ⟨rfl, rfl⟩
  · exact .refl table

end KeepsPlaces

/-- A template that has been opened is there. -/
theorem has_openTemplate {factory : FactoryId} {unit : Option UnitId} {template : SymbolId}
    (opened : table.openTemplate factory unit = .ok (template, after)) : after.Has template := by
  obtain ⟨frames, _, rfl, rfl⟩ := openTemplate_ok opened
  exact (has_attach table _ _ _).2 (.inl rfl)

/-- What has been declared through templates is there. -/
theorem has_declareTemplated (reached : table.Reachable) {factory : FactoryId}
    {target id : SymbolId} {request : SymbolRequest}
    (done : (table.declareTemplated factory target request).1 = .ok id) :
    (table.declareTemplated factory target request).2.Has id := by
  cases opened : table.openFrames factory target request with
  | error error => simp [SymbolTable.declareTemplated, opened] at done
  | ok result =>
      rw [declareTemplated_of_openFrames opened] at done ⊢
      have new : (⟨table.size⟩ : SymbolId) = id := by
        simp only [Except.map] at done
        split at done
        · cases done
        · exact Except.ok.inj done
      rw [← new]
      exact (KeepsPlaces.closing reached opened).has _ ((has_attach table _ request _).2 (.inl rfl))

/-- Whether the parameters that templates list are in them, and no templates themselves. -/
def ParametersOwned (table : SymbolTable) : Prop :=
  ∀ template, ∀ parameter ∈ table.templateParameters template, ∃ symbol,
    table.get? parameter = some symbol ∧ symbol.isTemplate = false ∧ symbol.owner = some template

/-- What is no template stays in its scope. -/
theorem KeepsPlaces.owned (places : KeepsPlaces before after) {id scope : SymbolId}
    {symbol : Symbol} (found : before.get? id = some symbol) (plain : symbol.isTemplate = false)
    (owner : symbol.owner = some scope) : ∃ changed, after.get? id = some changed ∧
      changed.isTemplate = false ∧ changed.owner = some scope := by
  obtain ⟨changed, there, kind, same⟩ := places.plain id symbol found plain
  refine ⟨changed, there, ?_, same.trans owner⟩
  rwa [Symbol.isTemplate, kind, ← Symbol.isTemplate]

/-- A namespace stays one. -/
theorem KeepsPlaces.isNamespace (places : KeepsPlaces before after) {id : SymbolId}
    (isNamespace : before.isNamespace id = true) : after.isNamespace id = true := by
  unfold SymbolTable.isNamespace at isNamespace ⊢
  cases found : before.get? id with
  | none => simp [found] at isNamespace
  | some symbol =>
      have known : symbol.kind = .namespaceScope := by simpa [found] using isNamespace
      have plain : symbol.isTemplate = false := by
        simp [Symbol.isTemplate, known, SymbolKind.templateInfo?]
      obtain ⟨changed, there, kind, _⟩ := places.plain id symbol found plain
      simp [there, kind, known]

theorem ParametersOwned.keeps (owned : before.ParametersOwned) (lists : KeepsLists before after)
    (places : KeepsPlaces before after) : after.ParametersOwned := by
  intro template parameter member
  rw [lists.parameters] at member
  obtain ⟨symbol, found, plain, inside⟩ := owned template parameter member
  exact places.owned found plain inside

/-- A symbol that has been declared is what was asked for, and not its own scope. -/
theorem get?_declared {scope id : SymbolId} {request : SymbolRequest}
    (declared : table.declare scope request = .ok (id, after)) :
    scope ≠ id ∧ after.get? id = some (.ofRequest (some scope) request) := by
  obtain ⟨inside, attached⟩ := attach_of_declare declared
  obtain rfl : id = ⟨table.size⟩ := congrArg Prod.fst attached
  have elsewhere : scope ≠ ⟨table.size⟩ := by
    rintro rfl
    exact table.not_has_fresh inside.has
  have added : after = (table.attach scope request).2 := congrArg Prod.snd attached
  rw [added, get?_attach, if_pos rfl]
  simp [elsewhere.symm, elsewhere]

/-- A new parameter is in the template that lists it. -/
theorem ParametersOwned.addParameter (owned : table.ParametersOwned)
    {template parameter : SymbolId} {request : SymbolRequest}
    (plain : request.kind.templateInfo? = none)
    (added : table.addParameter template request = .ok (parameter, after)) :
    after.ParametersOwned := by
  intro other listed member
  have places : KeepsPlaces table after := by
    obtain ⟨extended, declared, rfl⟩ := addParameter_ok added
    exact (KeepsPlaces.declare declared).trans
      (.update extended template fun symbol plain => ⟨symbol.mapTemplate_plain plain _, rfl⟩)
  have old (inside : listed ∈ table.templateParameters other) : ∃ symbol,
      after.get? listed = some symbol ∧ symbol.isTemplate = false ∧
        symbol.owner = some other := by
    obtain ⟨symbol, found, plainSymbol, owner⟩ := owned other listed inside
    exact places.owned found plainSymbol owner
  rw [templateParameters_addParameter plain added] at member
  split at member
  · rename_i here
    subst here
    rcases List.mem_append.1 member with inside | last
    · exact old inside
    · obtain rfl := List.mem_singleton.1 last
      obtain ⟨extended, declared, rfl⟩ := addParameter_ok added
      obtain ⟨other, found⟩ := get?_declared declared
      refine ⟨.ofRequest (some template) request, ?_, ?_, rfl⟩
      · rw [get?_update, if_neg other, found]
      · simp [Symbol.isTemplate, Symbol.ofRequest, plain]
  · exact old member

theorem ParametersOwned.perform (owned : table.ParametersOwned) (reached : table.Reachable)
    {operation : TableOperation} (admitted : table.Admits operation)
    (unmoved : ∀ id scope, operation ≠ .move id scope) :
    (table.perform operation).ParametersOwned := by
  have places : KeepsPlaces table (table.perform operation) := .perform reached unmoved
  cases operation with
  | addUsing scope target =>
      intro template parameter member
      rw [SymbolTable.perform, templateParameters_addUsing] at member
      obtain ⟨symbol, found, plain, inside⟩ := owned template parameter member
      exact places.owned found plain inside
  | addParameter template request =>
      cases added : table.addParameter template request with
      | error error =>
          simp only [SymbolTable.perform, added, settle]
          exact owned
      | ok result =>
          simp only [SymbolTable.perform, added, settle]
          exact owned.addParameter admitted added
  | _ => exact owned.keeps (.perform admitted trivial) places

end SymbolTable

end DeclTree
