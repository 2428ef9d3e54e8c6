import DeclTree.Parse.Error
import DeclTree.Proofs.FactoryHomes
import DeclTree.Proofs.RefusedOperation
import Mathlib.Data.List.Chain

/-!
# Closing the frames of a factory

A declaration behind template prefixes changes the open templates of its factory only: each
comes to wrap the one inside it, and the outermost may move.  It is refused by the checks in
front of it, with the table as it was, or at the very end, when all frames are closed.
-/

namespace DeclTree

namespace SymbolTable

/-- What a symbol is, apart from its owner and what it wraps. -/
def nature? (table : SymbolTable) (id : SymbolId) : Option (Option NodeRef × Bool × Bool × Bool) :=
  (table.standing? id).map fun standing =>
    (standing.origin, standing.isNamespace, standing.isTemplate, standing.isScope)

/-- Whether all frames of a factory have been closed around a symbol: each template wraps
the one inside it, the innermost the symbol, and nothing else stands elsewhere. -/
structure Wraps (before after : SymbolTable) (factory : FactoryId) (inner : SymbolId)
    (frames : List SymbolId) : Prop where
  closed : ∀ other, after.stackOf other = if factory = other then [] else before.stackOf other
  homes : ∀ other, after.homeOf other = before.homeOf other
  natures : ∀ id, after.nature? id = before.nature? id
  chain : (inner :: frames).IsChain fun inner outer => after.templated? outer = some inner
  innermost : after.templated? inner = before.templated? inner
  kept : ∀ id, id ∉ inner :: frames → after.standing? id = before.standing? id

section Frames

variable {table after : SymbolTable} {factory : FactoryId} {inner target : SymbolId}
  {request : SymbolRequest}

theorem nature?_adopt {name : String} {id scope : SymbolId}
    (adopted : table.adopt name id scope = .ok after) (other : SymbolId) :
    after.nature? other = table.nature? other := by
  unfold SymbolTable.adopt at adopted
  unfold nature?
  split at adopted
  · obtain rfl := Except.ok.inj adopted
    rw [updateMembers, standing?_update_of_eq (standing_mapMembers _)]
  · obtain ⟨_, _, rfl⟩ := move_ok adopted
    rw [standing?_relocate]
    split
    · cases table.standing? other <;> rfl
    · rfl

theorem templated?_adopt {name : String} {id scope : SymbolId}
    (adopted : table.adopt name id scope = .ok after) (other : SymbolId) :
    after.templated? other = table.templated? other := by
  unfold SymbolTable.adopt at adopted
  rw [templated?_eq_standing, templated?_eq_standing]
  split at adopted
  · obtain rfl := Except.ok.inj adopted
    rw [updateMembers, standing?_update_of_eq (standing_mapMembers _)]
  · obtain ⟨_, _, rfl⟩ := move_ok adopted
    rw [standing?_relocate]
    split
    · cases table.standing? other <;> rfl
    · rfl

/-- The outermost template is moved or refused; in both cases nothing else changes. -/
theorem Closing.wraps_nil (closing : table.Closing factory inner []) :
    table.Wraps (closeFrames factory target request table inner []).2 factory inner [] := by
  have stack := closing.stack
  unfold closeFrames
  split
  · refine ⟨?_, fun _ => rfl, fun _ => rfl, .singleton _, rfl, fun _ _ => rfl⟩
    intro other
    split
    · rename_i same
      rw [← same, stack]
    · rfl
  · rename_i adopted
    refine ⟨?_, homeOf_congr (factories_adopt adopted), nature?_adopt adopted, .singleton _,
      templated?_adopt adopted inner, ?_⟩
    · intro other
      rw [stackOf_congr (factories_adopt adopted)]
      split
      · rename_i same
        rw [← same, stack]
      · rfl
    · intro id outside
      exact standing?_adopt adopted fun same => outside (same ▸ List.mem_cons_self)

/-- Whether the innermost frame of a factory has been closed around a symbol that its template
owns. -/
structure Encloses (before after : SymbolTable) (factory : FactoryId) (template inner : SymbolId)
    (outer : List SymbolId) : Prop where
  left : ∀ other, after.stackOf other = if factory = other then outer else before.stackOf other
  homes : ∀ other, after.homeOf other = before.homeOf other
  natures : ∀ id, after.nature? id = before.nature? id
  owners : ∀ id, after.owner id = before.owner id
  templated : after.templated? template = some inner
  kept : ∀ id, template ≠ id → after.standing? id = before.standing? id

/-- Binding a template changes what it wraps and nothing else. -/
theorem Closing.encloses_bound {template : SymbolId} {outer : List SymbolId}
    (closing : table.Closing factory inner (template :: outer)) (request : SymbolRequest) :
    table.Encloses ((table.updateFactory factory TemplateFactory.popped).bindTemplate request
      template inner) factory template inner outer := by
  have standings (id : SymbolId) : ((table.updateFactory factory
      TemplateFactory.popped).bindTemplate request template inner).standing? id =
        if template = id then (table.standing? id).map fun standing =>
          if standing.isTemplate then { standing with templated := some inner } else standing
        else table.standing? id :=
    standing?_bindTemplate (table.updateFactory factory TemplateFactory.popped) request template
      inner id
  refine ⟨closing.stackOf_bound request, homeOf_updateFactory container_popped, ?_, ?_, ?_, ?_⟩
  · intro id
    unfold nature?
    rw [standings]
    split
    · cases table.standing? id with
      | none => rfl
      | some standing =>
          simp only [Option.map_some, Option.some.injEq]
          split <;> rfl
    · rfl
  · intro id
    rw [owner_eq_standing, standings, owner_eq_standing]
    split
    · cases table.standing? id with
      | none => rfl
      | some standing =>
          simp only [Option.map_some, Option.bind_eq_bind, Option.bind_some]
          split <;> rfl
    · rfl
  · have isTemplate := (closing.blank List.mem_cons_self).isTemplate
    rw [isTemplate_eq_standing] at isTemplate
    rw [templated?_eq_standing, standings, if_pos rfl]
    cases there : table.standing? template with
    | none => simp [there] at isTemplate
    | some standing => simp_all
  · intro id other
    rw [standings, if_neg other]

theorem Encloses.adopt {bound : SymbolTable} {template : SymbolId} {outer : List SymbolId}
    (encloses : table.Encloses bound factory template inner outer)
    (owned : table.owner inner = some template) {name : String}
    (adopted : bound.adopt name inner template = .ok after) :
    table.Encloses after factory template inner outer := by
  have same := standing?_adopt_of_owner ((encloses.owners inner).trans owned) adopted
  refine ⟨?_, ?_, ?_, ?_, ?_, ?_⟩
  · intro other
    rw [stackOf_congr (factories_adopt adopted), encloses.left]
  · intro other
    rw [homeOf_congr (factories_adopt adopted), encloses.homes]
  · intro id
    rw [nature?, same, ← nature?, encloses.natures]
  · intro id
    rw [owner_eq_standing, same, ← owner_eq_standing, encloses.owners]
  · rw [templated?_adopt adopted, encloses.templated]
  · intro id other
    rw [same, encloses.kept id other]

/-- Templates that stand one inside the other are all closed, even if the outermost cannot be
moved to its place. -/
theorem Closing.wraps {frames : List SymbolId} (closing : table.Closing factory inner frames)
    (chained : (inner :: frames).IsChain fun inner outer => table.owner inner = some outer) :
    table.Wraps (closeFrames factory target request table inner frames).2 factory inner frames := by
  induction frames generalizing table inner with
  | nil => exact closing.wraps_nil
  | cons template outer ih =>
      rw [List.isChain_cons_cons] at chained
      have bound := closing.encloses_bound request
      unfold closeFrames
      simp only
      split
      · rename_i refused
        rw [SymbolTable.adopt, if_pos ((bound.owners inner).trans chained.1)] at refused
        cases refused
      · rename_i entered adopted
        have encloses := bound.adopt chained.1 adopted
        have rest := ih (closing.next adopted) (by simpa only [encloses.owners] using chained.2)
        have fresh : inner ∉ template :: outer := fun member =>
          Nat.lt_irrefl _ (closing.later inner member)
        have apart : template ≠ inner := fun same => fresh (same ▸ List.mem_cons_self)
        refine ⟨?_, ?_, ?_, List.isChain_cons_cons.2
          ⟨rest.innermost.trans encloses.templated, rest.chain⟩, ?_, ?_⟩
        · intro other
          rw [rest.closed, encloses.left]
          split <;> rfl
        · intro other
          rw [rest.homes, encloses.homes]
        · intro id
          rw [rest.natures, encloses.natures]
        · rw [templated?_eq_standing, rest.kept inner fresh, encloses.kept inner apart,
            ← templated?_eq_standing]
        · intro id outside
          rw [List.mem_cons, not_or] at outside
          rw [rest.kept id outside.2,
            encloses.kept id fun same => outside.2 (same ▸ List.mem_cons_self)]

/-! ## Refusals of the table -/

theorem parseKind_of_checkContainer {scope : SymbolId} {error : SymbolError}
    (refused : table.checkContainer scope = .error error) : error.parseKind = .unresolvedName := by
  unfold checkContainer at refused
  split at refused
  · cases refused
    rfl
  · split at refused
    · cases refused
    · cases refused
      rfl

theorem parseKind_of_checkConflict {scope : SymbolId} {name : String} {incoming : Profile}
    {error : SymbolError} (refused : table.checkConflict scope name incoming = .error error) :
    error.parseKind = .duplicateDeclaration := by
  unfold checkConflict at refused
  split at refused
  · cases refused
    rfl
  · cases refused

/-- A sequence is refused by its first part or by the rest of it. -/
theorem error_of_bind {α β : Type} {first : Except SymbolError α}
    {rest : α → Except SymbolError β} {error : SymbolError}
    (refused : first >>= rest = .error error) :
    first = .error error ∨ ∃ value, first = .ok value ∧ rest value = .error error := by
  cases first with
  | error other =>
      cases refused
      exact .inl rfl
  | ok value => exact .inr ⟨value, rfl, refused⟩

/-- The checks in front of a declaration do not refuse on account of the parse itself. -/
theorem parseKind_of_checks {α : Type} {scope : SymbolId} {name : String} {incoming : Profile}
    {value : α} {error : SymbolError} (refused : (do
      table.checkContainer scope
      table.checkConflict scope name incoming
      return value) = .error error) : error.parseKind ≠ .internalError := by
  rcases error_of_bind refused with inside | ⟨_, _, refused⟩
  · simp [parseKind_of_checkContainer inside]
  · rcases error_of_bind refused with free | ⟨_, _, refused⟩
    · simp [parseKind_of_checkConflict free]
    · cases refused

theorem parseKind_of_declare {scope : SymbolId} {error : SymbolError}
    (refused : table.declare scope request = .error error) :
    error.parseKind ≠ .internalError :=
  parseKind_of_checks refused

theorem parseKind_of_openNamespace {scope : SymbolId} {name : String} {unit : Option UnitId}
    {error : SymbolError} (refused : table.openNamespace scope name unit = .error error) :
    error.parseKind ≠ .internalError := by
  unfold SymbolTable.openNamespace at refused
  split at refused
  · cases refused
  · exact parseKind_of_declare refused

theorem parseKind_of_addParameter {template : SymbolId} {error : SymbolError}
    (refused : table.addParameter template request = .error error) :
    error.parseKind ≠ .internalError := by
  unfold SymbolTable.addParameter at refused
  split at refused
  · cases refused
    simp [SymbolError.parseKind]
  · rcases error_of_bind refused with declared | ⟨_, _, refused⟩
    · exact parseKind_of_declare declared
    · cases refused

theorem parseKind_of_factoryFor {container : SymbolId} {error : SymbolError}
    (refused : table.factoryFor container = .error error) :
    error.parseKind ≠ .internalError := by
  unfold SymbolTable.factoryFor at refused
  rcases error_of_bind refused with inside | ⟨_, _, refused⟩
  · simp [parseKind_of_checkContainer inside]
  · split at refused <;> cases refused

theorem parseKind_of_openTemplate {unit : Option UnitId} {error : SymbolError}
    (refused : table.openTemplate factory unit = .error error) :
    error.parseKind ≠ .internalError := by
  unfold SymbolTable.openTemplate at refused
  split at refused
  · cases refused
    simp [SymbolError.parseKind]
  · cases refused

/-- Of the checks in front of a declaration behind template prefixes, only one is about the
parse itself: that some template is open. -/
theorem stackOf_of_openFrames {error : SymbolError}
    (refused : table.openFrames factory target request = .error error)
    (internal : error.parseKind = .internalError) :
    error = .emptyFactoryStack ∧ table.stackOf factory = [] := by
  unfold openFrames at refused
  split at refused
  · cases refused
    simp [SymbolError.parseKind] at internal
  · rename_i frames found
    split at refused
    · rename_i empty
      cases refused
      exact ⟨rfl, by simp [stackOf, found, empty]⟩
    · exact absurd internal (parseKind_of_checks refused)

/-- How a declaration behind template prefixes ends: refused by the checks, with the table as
it was, or with all frames closed around it. -/
theorem Reachable.declareTemplated_outcome (reached : table.Reachable) (factory : FactoryId)
    (target : SymbolId) {request : SymbolRequest} (plain : request.kind.templateInfo? = none)
    (chained : (table.stackOf factory).IsChain fun inner outer =>
      table.owner inner = some outer) :
    (∃ error, table.declareTemplated factory target request = (.error error, table) ∧
      (error.parseKind = .internalError →
        error = .emptyFactoryStack ∧ table.stackOf factory = [])) ∨
    ∃ innermost outer, table.stackOf factory = innermost :: outer ∧ table.HasScope innermost ∧
      (table.attach innermost request).2.Wraps
        (table.declareTemplated factory target request).2 factory ⟨table.size⟩
          (innermost :: outer) ∧
      ((table.declareTemplated factory target request).1 = .ok ⟨table.size⟩ ∨
        ∃ text, (table.declareTemplated factory target request).1 = .error (.cyclicScope text) ∧
          table.HasScope target ∧ ¬ table.Nestable (innermost :: outer ++ [target])) := by
  cases checked : table.openFrames factory target request with
  | error error =>
      refine .inl ⟨error, ?_, stackOf_of_openFrames checked⟩
      simp only [SymbolTable.declareTemplated, checked]
  | ok opened =>
      obtain ⟨innermost, frames⟩ := opened
      obtain ⟨factory', outer, found, stack, rfl, container, _⟩ := openFrames_ok_iff.1 checked
      obtain ⟨inside, closing⟩ := reached.consistent.closing reached.framesBlank plain checked
      have whole : table.stackOf factory = innermost :: outer := by simp [stackOf, found, stack]
      have owners (id : SymbolId) (member : id ∈ innermost :: outer) :
          (table.attach innermost request).2.owner id = table.owner id := by
        have old : id ≠ ⟨table.size⟩ := by
          rintro rfl
          exact table.not_has_fresh (reached.framesBlank.blank factory _ (whole ▸ member)).has
        rw [owner_attach inside.has, if_neg old]
      have chainedAfter : (⟨table.size⟩ :: innermost :: outer : List SymbolId).IsChain
          fun inner outer => (table.attach innermost request).2.owner inner = some outer := by
        rw [whole] at chained
        refine List.isChain_cons_cons.2 ⟨by rw [owner_attach inside.has, if_pos rfl], ?_⟩
        refine chained.imp_of_mem_imp ?_
        intro inner outer member _ owned
        rwa [owners inner member]
      refine .inr ⟨innermost, outer, whole, inside, ?_, ?_⟩
      · rw [declareTemplated_of_openFrames checked]
        exact closing.wraps chainedAfter
      · have result := (reached.consistent.declareTemplated_cases checked).2
        rw [refusal?, declareTemplated_of_openFrames checked] at result
        rw [declareTemplated_of_openFrames checked]
        generalize (closeFrames factory target request (table.attach innermost request).2
          ⟨table.size⟩ (innermost :: outer)).1 = outcome at result ⊢
        cases outcome with
        | ok _ => exact .inl rfl
        | error error =>
            rcases result with ⟨entangled, text, refused⟩ | ⟨_, accepted⟩
            · obtain rfl := Option.some.inj refused
              exact .inr ⟨text, rfl, checkContainer_ok_iff.1 container, entangled⟩
            · cases accepted

end Frames

end SymbolTable

end DeclTree
