import DeclTree.Proofs.TemplateInvariant

/-!
# Overloads of function templates

Functions share a name with functions, and function templates with function
templates.  What a template wraps is looked up one step deep, so a template
inside a template counts as neither: under its name a further function template
is refused, unless one of the two is a specialization.
-/

namespace DeclTree

namespace SymbolTable

/-- The declaration at the end of a chain of templates.  A symbol that is no
template stands at the end of its own chain. -/
inductive EndsIn (table : SymbolTable) : SymbolId → Symbol → Prop
  | plain {id : SymbolId} {symbol : Symbol} (found : table.get? id = some symbol)
      (plain : symbol.isTemplate = false) : EndsIn table id symbol
  | wrapped {id inner : SymbolId} {last : Symbol} (wraps : table.templated? id = some inner)
      (ends : EndsIn table inner last) : EndsIn table id last

/-- Whether a template wraps a template. -/
def IsNested (table : SymbolTable) (id : SymbolId) : Prop :=
  ∃ inner, table.templated? id = some inner ∧ table.isTemplate inner = true

def isSpecialization (table : SymbolTable) (id : SymbolId) : Bool :=
  (table.get? id).any Symbol.specialization

theorem EndsIn.has {table : SymbolTable} {id : SymbolId} {last : Symbol}
    (ends : table.EndsIn id last) : table.Has id := by
  cases ends with
  | plain found _ => exact has_of_get? found
  | wrapped wraps _ =>
      obtain ⟨symbol, info, found, _, _⟩ := templated?_eq_some_iff.1 wraps
      exact has_of_get? found

theorem isTemplate_iff {table : SymbolTable} {id : SymbolId} {symbol : Symbol}
    (found : table.get? id = some symbol) :
    table.isTemplate id = true ↔ ∃ info, symbol.kind = .template info := by
  simp only [isTemplate, found, Option.any_some, Symbol.isTemplate]
  cases symbol.kind <;> simp [SymbolKind.templateInfo?]

/-- What a symbol is compared as: a template inside a template counts as nothing
in particular, and everything else as the end of its chain. -/
theorem nameClass_ofSymbol {table : SymbolTable} {id : SymbolId} {symbol last : Symbol}
    (found : table.get? id = some symbol) (ends : table.EndsIn id last) :
    (table.IsNested id ∧ (Profile.ofSymbol table symbol).nameClass = .other) ∨
      (¬ table.IsNested id ∧
        (Profile.ofSymbol table symbol).nameClass = last.kind.nameClass) := by
  cases ends with
  | plain foundLast plain =>
      obtain rfl := Option.some.inj (found.symm.trans foundLast)
      have kind : ∀ info, symbol.kind ≠ .template info := by
        intro info same
        simp [Symbol.isTemplate, same, SymbolKind.templateInfo?] at plain
      right
      constructor
      · rintro ⟨inner, wraps, _⟩
        obtain ⟨_, info, foundSelf, template, _⟩ := templated?_eq_some_iff.1 wraps
        obtain rfl := Option.some.inj (found.symm.trans foundSelf)
        exact kind info template
      · unfold Profile.ofSymbol
        cases same : symbol.kind with
        | template info => exact absurd same (kind info)
        | _ => rfl
  | @wrapped _ inner _ wraps rest =>
      obtain ⟨_, info, foundSelf, template, templated⟩ := templated?_eq_some_iff.1 wraps
      obtain rfl := Option.some.inj (found.symm.trans foundSelf)
      obtain ⟨innerSymbol, foundInner⟩ := Option.isSome_iff_exists.1 rest.has
      have compared : (Profile.ofSymbol table symbol).nameClass = innerSymbol.kind.nameClass := by
        simp [Profile.ofSymbol, template, templated, foundInner]
      cases rest with
      | plain foundLast plain =>
          obtain rfl := Option.some.inj (foundInner.symm.trans foundLast)
          refine .inr ⟨?_, compared⟩
          rintro ⟨other, wrapsOther, isTemplate⟩
          obtain rfl := Option.some.inj (wraps.symm.trans wrapsOther)
          simp [SymbolTable.isTemplate, foundInner, plain] at isTemplate
      | wrapped wrapsNext _ =>
          obtain ⟨_, info, foundNext, kind, _⟩ := templated?_eq_some_iff.1 wrapsNext
          obtain rfl := Option.some.inj (foundInner.symm.trans foundNext)
          refine .inl ⟨⟨inner, wraps, (isTemplate_iff foundInner).2 ⟨info, kind⟩⟩, ?_⟩
          rw [compared, kind]
          rfl

/-- A symbol whose chain ends in a function stands in the way of a function
template exactly if it is a template inside a template and neither is a
specialization. -/
theorem clashes_function_iff {table : SymbolTable} {id : SymbolId} {last : Symbol}
    (ends : table.EndsIn id last) (function : last.kind = .function) {incoming : Profile}
    (isFunction : incoming.nameClass = .function) :
    table.clashes incoming id = true ↔ table.IsNested id ∧ table.isSpecialization id = false ∧
      incoming.specialization = false := by
  obtain ⟨symbol, found⟩ := Option.isSome_iff_exists.1 ends.has
  have special : table.isSpecialization id = symbol.specialization := by
    simp [isSpecialization, found]
  have same : (Profile.ofSymbol table symbol).specialization = symbol.specialization := rfl
  rw [special]
  simp only [clashes, found, Option.any_some, Profile.conflicts, isFunction, same]
  rcases nameClass_ofSymbol found ends with ⟨nested, compared⟩ | ⟨flat, compared⟩
  · rw [compared]
    cases symbol.specialization <;> cases incoming.specialization <;> simp [nested]
  · rw [compared, function]
    cases symbol.specialization <;> cases incoming.specialization <;>
      simp [flat, SymbolKind.nameClass]

/-! ## Refusals of a declaration behind template prefixes -/

theorem checkContainer_ne_duplicate {table : SymbolTable} {scope : SymbolId}
    {name place : String} :
    table.checkContainer scope ≠ .error (.duplicateDeclaration name place) := by
  unfold checkContainer
  split
  · simp
  · split <;> simp

theorem adopt_ne_duplicate {table : SymbolTable} {entered : String} {id scope : SymbolId}
    {name place : String} :
    table.adopt entered id scope ≠ .error (.duplicateDeclaration name place) := by
  unfold SymbolTable.adopt
  split
  · simp
  · unfold SymbolTable.move
    cases checked : table.checkContainer scope with
    | error error =>
        intro refused
        have same : error = .duplicateDeclaration name place := by
          simpa [bind, Except.bind] using refused
        exact checkContainer_ne_duplicate (same ▸ checked)
    | ok _ =>
        simp only [bind, Except.bind]
        split <;> simp [throw, throwThe, MonadExceptOf.throw, pure, Except.pure]

/-- Once the frames are being closed, no name can be taken any more. -/
theorem closeFrames_ne_duplicate {factory : FactoryId} {target : SymbolId}
    {request : SymbolRequest} {table : SymbolTable} {inner : SymbolId} {frames : List SymbolId}
    {name place : String} :
    (closeFrames factory target request table inner frames).1 ≠
      .error (.duplicateDeclaration name place) := by
  induction frames generalizing table inner with
  | nil =>
      unfold closeFrames
      split
      · rename_i refused
        simp only [ne_eq, Except.error.injEq]
        rintro rfl
        exact adopt_ne_duplicate refused
      · simp
  | cons template outer ih =>
      unfold closeFrames
      simp only
      split
      · rename_i refused
        simp only [ne_eq, Except.error.injEq]
        rintro rfl
        exact adopt_ne_duplicate refused
      · exact ih

/-- With frames open and a scope as its target, a declaration is refused for its
name exactly if an entry of that name stands in its way. -/
theorem declareTemplated_duplicate_iff {table : SymbolTable} {factory : FactoryId}
    {opened : TemplateFactory} {target : SymbolId} (found : table.factory? factory = some opened)
    (frames : opened.stack ≠ []) (scope : table.HasScope target) {request : SymbolRequest}
    (named : request.name ≠ "") :
    (∃ name place, (table.declareTemplated factory target request).1 =
        .error (.duplicateDeclaration name place)) ↔
      ∃ entry ∈ table.entries target request.name,
        table.clashes (.ofRequest request true) entry = true := by
  have container := checkContainer_ok_iff.2 scope
  obtain ⟨innermost, outer, stack⟩ := List.exists_cons_of_ne_nil frames
  have checks : table.openFrames factory target request =
      (table.checkConflict target request.name (.ofRequest request true)).map
        fun _ => (innermost, innermost :: outer) := by
    simp only [openFrames, found, stack, container, bind, Except.bind]
    cases table.checkConflict target request.name (.ofRequest request true) <;> rfl
  rw [← List.any_eq_true]
  unfold SymbolTable.declareTemplated
  rw [checks, checkConflict]
  cases (table.entries target request.name).any (table.clashes (.ofRequest request true)) with
  | true =>
      simp only [named, ne_eq, not_false_eq_true, decide_true, Bool.and_self, if_true, Except.map,
        iff_true]
      exact ⟨_, _, rfl⟩
  | false =>
      simp only [Bool.and_false, Bool.false_eq_true, if_false, Except.map, iff_false]
      rintro ⟨name, place, refused⟩
      split at refused
      · rename_i error closing
        have same : error = .duplicateDeclaration name place := by simpa using refused
        exact closeFrames_ne_duplicate (same ▸ closing)
      · simp at refused

/-- Where all entries of a name are functions or templates of functions, a further
function template is refused exactly if one of them is a template inside a
template and no specialization is involved.  For templates inside templates do
not count as what they wrap in the end. -/
theorem functionTemplate_refused_iff {table : SymbolTable} {factory : FactoryId}
    {opened : TemplateFactory} {target : SymbolId} (found : table.factory? factory = some opened)
    (frames : opened.stack ≠ []) (scope : table.HasScope target) {request : SymbolRequest}
    (function : request.kind = .function) (named : request.name ≠ "")
    (overloads : ∀ entry ∈ table.entries target request.name,
      ∃ last, table.EndsIn entry last ∧ last.kind = .function) :
    ((∃ name place, (table.declareTemplated factory target request).1 =
        .error (.duplicateDeclaration name place)) ↔
      request.specialization = false ∧ ∃ entry ∈ table.entries target request.name,
        table.IsNested entry ∧ table.isSpecialization entry = false) ∧
    ∀ id symbol last, table.get? id = some symbol → table.EndsIn id last →
      ((Profile.ofSymbol table symbol).nameClass = last.kind.nameClass ↔
        ¬ table.IsNested id ∨ last.kind.nameClass = .other) := by
  have isFunction : (Profile.ofRequest request true).nameClass = .function := by
    simp [Profile.ofRequest, function, SymbolKind.nameClass]
  constructor
  · rw [declareTemplated_duplicate_iff found frames scope named]
    constructor
    · rintro ⟨entry, member, clash⟩
      obtain ⟨last, ends, endsFunction⟩ := overloads entry member
      obtain ⟨nested, plain, plainRequest⟩ :=
        (clashes_function_iff ends endsFunction isFunction).1 clash
      exact ⟨plainRequest, entry, member, nested, plain⟩
    · rintro ⟨plainRequest, entry, member, nested, plain⟩
      obtain ⟨last, ends, endsFunction⟩ := overloads entry member
      exact ⟨entry, member,
        (clashes_function_iff ends endsFunction isFunction).2 ⟨nested, plain, plainRequest⟩⟩
  · intro id symbol last foundSymbol ends
    rcases nameClass_ofSymbol foundSymbol ends with ⟨nested, compared⟩ | ⟨flat, compared⟩
    · simp [compared, nested, eq_comm]
    · simp [compared, flat]

/-- Behind a function template inside a template, opened and declared in the global
scope, a function template of the same name is refused. -/
theorem functionTemplate_refused_nested :
    let request : SymbolRequest := { name := "f", kind := .function }
    let table := ([.factoryFor root, .openTemplate ⟨0⟩ none, .openTemplate ⟨0⟩ none,
      .declareTemplated ⟨0⟩ root request, .openTemplate ⟨0⟩ none] :
        List TableOperation).foldl SymbolTable.perform .empty
    table.Reachable ∧ table.entries root "f" = [⟨1⟩] ∧
      (∃ last, table.EndsIn ⟨1⟩ last ∧ last.kind = .function) ∧
      ∃ name place, (table.declareTemplated ⟨0⟩ root request).1 =
        .error (.duplicateDeclaration name place) := by
  intro request table
  have reached : table.Reachable := by
    simp only [table, List.foldl]
    refine .perform (.perform (.perform (.perform (.perform .empty ?_) ?_) ?_) ?_) ?_
    · trivial
    · trivial
    · trivial
    · rfl
    · trivial
  have entries : table.entries root "f" = [⟨1⟩] := by decide
  have opened : table.factory? ⟨0⟩ = some {
      container := root
      stack := [⟨4⟩]
      history := [.push ⟨1⟩, .push ⟨2⟩, .pop ⟨2⟩, .pop ⟨1⟩, .push ⟨4⟩] } := by decide
  have scope : (table.members? root).isSome := by decide
  have outer : table.templated? ⟨1⟩ = some ⟨2⟩ := by decide
  have inner : table.templated? ⟨2⟩ = some ⟨3⟩ := by decide
  have template : table.isTemplate ⟨2⟩ = true := by decide
  have primary : table.isSpecialization ⟨1⟩ = false := by decide
  have wrapped : (table.get? ⟨3⟩).any fun last => !last.isTemplate && last.kind = .function := by
    decide
  -- From here on the table matters through these facts only.
  clear_value table
  have ends : ∃ last, table.EndsIn ⟨1⟩ last ∧ last.kind = .function := by
    simp only [Option.any_eq_true, Bool.and_eq_true, Bool.not_eq_true', decide_eq_true_eq]
      at wrapped
    obtain ⟨last, found, plain, function⟩ := wrapped
    exact ⟨last, .wrapped outer (.wrapped inner (.plain found plain)), function⟩
  have overloads : ∀ entry ∈ table.entries root "f",
      ∃ last, table.EndsIn entry last ∧ last.kind = .function := by
    rw [entries]
    intro entry member
    rw [List.mem_singleton.1 member]
    exact ends
  refine ⟨reached, entries, ends, ?_⟩
  apply (functionTemplate_refused_iff opened (by simp) scope rfl (by simp [request]) overloads).1.2
  exact ⟨rfl, ⟨1⟩, by simp [request, entries], ⟨⟨2⟩, outer, template⟩, primary⟩

end SymbolTable

end DeclTree
