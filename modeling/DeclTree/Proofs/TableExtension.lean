import DeclTree.Proofs.FactoryHomes

/-!
# Adding to a table

Declarations, namespaces, parameters and templates that are opened add symbols to a table, and
leave every symbol that was there where it stands.
-/

namespace DeclTree

namespace SymbolTable

/-- Whether a table has grown by symbols that wrap nothing and have no node, with all that
was there standing where it stood. -/
structure Extends (before after : SymbolTable) : Prop where
  standings : ∀ id, before.Has id → after.standing? id = before.standing? id
  homes : ∀ factory home, before.homeOf factory = some home → after.homeOf factory = some home
  added : ∀ id standing, ¬ before.Has id → after.standing? id = some standing →
    standing.origin = none ∧ standing.templated = none ∧
      ∃ owner, standing.owner = some owner ∧ before.Has owner

/-- Whether a table has grown so while no template was opened or closed. -/
structure Retains (before after : SymbolTable) : Prop extends before.Extends after where
  frames : ∀ factory, after.stackOf factory = before.stackOf factory

namespace Extends

variable {table after : SymbolTable}

theorem attach {scope : SymbolId} (present : table.Has scope) {request : SymbolRequest}
    (blank : request.kind.templateInfo? >>= TemplateInfo.templated = none) :
    table.Extends (table.attach scope request).2 where
  standings id here := by
    have old : id ≠ ⟨table.size⟩ := by
      rintro rfl
      exact table.not_has_fresh here
    rw [standing?_attach present, if_neg old]
  homes _ _ served := served
  added id standing absent there := by
    rw [standing?_attach present] at there
    split at there
    · obtain rfl := Option.some.inj there
      exact ⟨rfl, blank, scope, rfl, present⟩
    · rw [has_iff_standing, there] at absent
      exact absurd rfl absent

/-- A template is opened as one more symbol. -/
theorem openTemplate {factory : FactoryId} {unit : Option UnitId} {template : SymbolId}
    (consistent : table.Consistent)
    (opened : table.openTemplate factory unit = .ok (template, after)) : table.Extends after := by
  obtain ⟨frames, found, rfl, rfl⟩ := openTemplate_ok opened
  have extended : table.Extends (table.attach (frames.current?.getD frames.container)
      { name := "", kind := .template {}, unit := unit }).2 :=
    .attach (consistent.parent_scope found).has rfl
  have pushed (frames : TemplateFactory) :
      (frames.push ⟨table.size⟩).container = frames.container := rfl
  refine ⟨extended.standings, ?_, extended.added⟩
  intro other home served
  rw [homeOf_updateFactory pushed]
  exact extended.homes other home served

/-! What stands as before has the same owner, node and kind, and wraps the same. -/

section Views

variable {id : SymbolId} (grown : table.Extends after) (present : table.Has id)

include grown present

theorem has : after.Has id := by
  rw [has_iff_standing, grown.standings id present, ← has_iff_standing]
  exact present

theorem owner : after.owner id = table.owner id := by
  rw [owner_eq_standing, grown.standings id present, ← owner_eq_standing]

theorem originOf : TemplateDecl.originOf after id = TemplateDecl.originOf table id := by
  rw [originOf_eq_standing, grown.standings id present, ← originOf_eq_standing]

theorem isNamespace : after.isNamespace id = table.isNamespace id := by
  rw [isNamespace_eq_standing, grown.standings id present, ← isNamespace_eq_standing]

theorem hasScope_iff : after.HasScope id ↔ table.HasScope id := by
  rw [hasScope_iff_standing, grown.standings id present, ← hasScope_iff_standing]

end Views

/-- No template wraps anything but what it wrapped before. -/
theorem templated?_eq (grown : table.Extends after) (id : SymbolId) :
    after.templated? id = table.templated? id := by
  rw [templated?_eq_standing, templated?_eq_standing]
  by_cases present : table.Has id
  · rw [grown.standings id present]
  · have missing : table.standing? id = none := by simpa [has_iff_standing] using present
    rw [missing]
    cases there : after.standing? id with
    | none => rfl
    | some standing => exact (grown.added id standing present there).2.1

end Extends

namespace Retains

variable {table after last : SymbolTable}

theorem refl (table : SymbolTable) : table.Retains table where
  standings _ _ := rfl
  frames _ := rfl
  homes _ _ served := served
  added id standing absent there := by
    rw [has_iff_standing, there] at absent
    exact absurd rfl absent

theorem congr (retains : table.Retains after)
    (standings : ∀ id, last.standing? id = after.standing? id)
    (factories : last.factories = after.factories) : table.Retains last where
  standings id present := (standings id).trans (retains.standings id present)
  frames factory := (stackOf_congr factories factory).trans (retains.frames factory)
  homes factory home served := by
    rw [homeOf_congr factories]
    exact retains.homes factory home served
  added id standing absent there := retains.added id standing absent (standings id ▸ there)

theorem declare {scope id : SymbolId} {request : SymbolRequest}
    (plain : request.kind.templateInfo? = none)
    (declared : table.declare scope request = .ok (id, after)) : table.Retains after := by
  obtain ⟨inside, attached⟩ := attach_of_declare declared
  obtain ⟨rfl, rfl⟩ := Prod.mk.inj attached
  exact ⟨.attach inside.has (by simp [plain]), fun _ => rfl⟩

theorem openNamespace {scope id : SymbolId} {name : String} {unit : Option UnitId}
    (opened : table.openNamespace scope name unit = .ok (id, after)) : table.Retains after := by
  rcases openNamespace_ok opened with ⟨_, rfl⟩ | declared
  · exact refl _
  · exact declare rfl declared

theorem addUsing (retains : table.Retains after) (scope target : SymbolId) :
    table.Retains (after.addUsing scope target) :=
  retains.congr (standing?_update_of_eq fun _ => rfl) rfl

theorem addParameter {template parameter : SymbolId} {request : SymbolRequest}
    (plain : request.kind.templateInfo? = none)
    (added : table.addParameter template request = .ok (parameter, after)) :
    table.Retains after := by
  obtain ⟨extended, declared, rfl⟩ := addParameter_ok added
  refine (declare plain declared).congr (standing?_update_of_eq ?_) rfl
  intro symbol
  cases kind : symbol.kind <;>
    simp [Symbol.standing, Symbol.isTemplate, Symbol.isContainer, kind, SymbolKind.mapTemplate,
      SymbolKind.templateInfo?]

theorem factoryFor {container : SymbolId} {factory : FactoryId}
    (created : table.factoryFor container = .ok (factory, after)) : table.Retains after := by
  have same (id : SymbolId) : after.standing? id = table.standing? id := by
    rcases factoryFor_cases created with ⟨_, rfl⟩ | ⟨_, rfl⟩
    · rfl
    · refine (standing?_update_of_eq ?_ id).trans rfl
      intro symbol
      rfl
  refine ⟨⟨fun id _ => same id, fun _ _ served => homeOf_factoryFor_of_some created served, ?_⟩,
    stackOf_factoryFor created⟩
  intro id standing absent there
  rw [has_iff_standing, ← same, there] at absent
  exact absurd rfl absent

end Retains

end SymbolTable

end DeclTree
