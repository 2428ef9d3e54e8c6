import DeclTree.Proofs.FoundSymbols
import DeclTree.Proofs.FrameStacks

/-!
# Open templates are blank

A template gets its name, what it wraps and its place in an index only when its frame is
closed.  While the frame is open the template has none of these, and no other factory has
a frame for it.
-/

namespace DeclTree

namespace Members

theorem named_insert (members : Members) (given name : String) (id : SymbolId) :
    (members.insert given id).named name =
      members.named name ++ if given = name ∧ name ≠ "" then [id] else [] := by
  unfold Members.insert named
  by_cases empty : given = ""
  · have never : ¬ (given = name ∧ name ≠ "") := by
      rintro ⟨rfl, named⟩
      exact named empty
    rw [if_pos empty, if_neg never, List.append_nil]
  · by_cases same : given = name
    · subst same
      simp [empty]
    · simp [empty, same]

theorem named_erase (members : Members) (name : String) (id : SymbolId) :
    (members.erase id).named name = (members.named name).filter (· ≠ id) := by
  simp only [Members.erase, named, List.filter_filter, List.filter_map]
  congr 1
  apply List.filter_congr
  intro entry _
  simp [Bool.and_comm]

theorem named_register (members : Members) (given name : String) (id : SymbolId) :
    (members.register given id).named name = members.named name ++
      if given = name ∧ id ∉ members.named name then [id] else [] := by
  have listed : id ∈ members.named given ↔ (given, id) ∈ members.names := by simp [named]
  unfold Members.register
  by_cases same : given = name
  · subst same
    by_cases known : (given, id) ∈ members.names
    · simp [known, listed]
    · have fresh : id ∉ members.named given := fun member => known (listed.1 member)
      simp only [if_neg known, fresh, not_false_eq_true, and_self, if_true]
      simp [named]
  · by_cases known : (given, id) ∈ members.names
    · simp [known, same]
    · simp [known, same, named]

end Members

/-- What a symbol says of itself as a template: its name, whether it is one, and what it
wraps. -/
def Symbol.card (symbol : Symbol) : String × Bool × Option SymbolId :=
  (symbol.name, symbol.isTemplate, symbol.kind.templateInfo? >>= TemplateInfo.templated)

namespace SymbolTable

def nameOf (table : SymbolTable) (id : SymbolId) : Option String :=
  (table.get? id).map Symbol.name

/-! ## Entries across basic changes -/

theorem hasScope_update {table : SymbolTable} {id : SymbolId} {change : Symbol → Symbol}
    (keeps : ∀ symbol, (change symbol).members.isSome = symbol.members.isSome)
    (scope : SymbolId) : (table.update id change).HasScope scope ↔ table.HasScope scope := by
  unfold HasScope members?
  rw [get?_update]
  split
  · cases table.get? scope <;> simp [keeps]
  · rfl

theorem entries_updateMembers (table : SymbolTable) (id scope : SymbolId)
    (change : Members → Members) (name : String) :
    (table.updateMembers id change).entries scope name =
      if id = scope then
        ((table.members? scope).map fun members => (change members).named name).getD []
      else table.entries scope name := by
  unfold entries members? updateMembers
  rw [get?_update]
  split
  · cases table.get? scope with
    | none => rfl
    | some symbol => simp [Symbol.mapMembers, Function.comp_def]
  · rfl

theorem entries_update {table : SymbolTable} {id : SymbolId} {change : Symbol → Symbol}
    (keeps : ∀ symbol, (change symbol).members = symbol.members) (scope : SymbolId)
    (name : String) : (table.update id change).entries scope name = table.entries scope name := by
  unfold entries members?
  rw [get?_update]
  split
  · cases table.get? scope <;> simp [keeps]
  · rfl

/-- A new member is entered under its name, if it has one. -/
theorem entries_insert {table : SymbolTable} {scope : SymbolId} (inside : table.HasScope scope)
    (given : String) (id other : SymbolId) (name : String) :
    (table.updateMembers scope (Members.insert · given id)).entries other name =
      table.entries other name ++
        if scope = other ∧ given = name ∧ name ≠ "" then [id] else [] := by
  rw [entries_updateMembers]
  by_cases same : scope = other
  · subst same
    obtain ⟨members, found⟩ := Option.isSome_iff_exists.1 inside
    simp [entries, found, Members.named_insert]
  · simp [same]

theorem entries_attach {table : SymbolTable} {scope : SymbolId} (inside : table.HasScope scope)
    (request : SymbolRequest) (other : SymbolId) (name : String) :
    (table.attach scope request).2.entries other name = table.entries other name ++
      if scope = other ∧ request.name = name ∧ name ≠ "" then [⟨table.size⟩] else [] := by
  generalize extension : ({ table with
    symbols := table.symbols.push (.ofRequest (some scope) request) } : SymbolTable) = extended
  have entriesExtended (place : SymbolId) : extended.entries place name =
      table.entries place name := by
    rw [← extension]
    unfold entries members?
    rw [get?_push]
    split
    · rename_i fresh
      have missing : table.get? place = none := by
        rw [fresh]
        simpa [Has] using table.not_has_fresh
      rw [missing]
      simp only [Symbol.ofRequest]
      split <;> rfl
    · rfl
  have insideExtended : extended.HasScope scope := by
    have old : scope ≠ ⟨table.size⟩ := by
      rintro rfl
      exact table.not_has_fresh inside.has
    unfold HasScope members?
    rw [← extension, get?_push, if_neg old]
    exact inside
  have attached : (table.attach scope request).2 =
      extended.updateMembers scope (Members.insert · request.name ⟨table.size⟩) := by
    rw [← extension]
    rfl
  rw [attached, entries_insert insideExtended, entriesExtended]

theorem entries_erase (table : SymbolTable) (scope id other : SymbolId) (name : String) :
    (table.updateMembers scope (Members.erase · id)).entries other name =
      if scope = other then (table.entries other name).filter (· ≠ id)
      else table.entries other name := by
  rw [entries_updateMembers]
  split
  · unfold entries
    cases table.members? other with
    | none => rfl
    | some members => simp [Members.named_erase]
  · rfl

/-- A symbol that is moved leaves the entries of its owner and is entered in its new scope,
if it has a name. -/
theorem entries_relocate {table : SymbolTable} {id scope : SymbolId}
    (inside : table.HasScope scope) (other : SymbolId) (name : String) :
    (table.relocate id scope).entries other name =
      (if table.owner id = some other then (table.entries other name).filter (· ≠ id)
        else table.entries other name) ++
      if scope = other ∧ (table.nameOf id).getD "" = name ∧ name ≠ "" then [id] else [] := by
  generalize release : (table.owner id).elim table
    (table.updateMembers · (Members.erase · id)) = released
  have entriesReleased : released.entries other name =
      if table.owner id = some other then (table.entries other name).filter (· ≠ id)
      else table.entries other name := by
    rw [← release]
    cases table.owner id with
    | none => rfl
    | some old => simp only [Option.elim_some, entries_erase, Option.some.injEq]
  have insideReleased : released.HasScope scope := by
    rw [← release]
    cases table.owner id with
    | none => exact inside
    | some old => exact (hasScope_update (by simp [Symbol.mapMembers]) scope).2 inside
  have moved : table.relocate id scope = (released.update id fun symbol =>
      { symbol with owner := some scope }).updateMembers scope
        (Members.insert · ((table.nameOf id).getD "") id) := by
    rw [← release, relocate]
    cases table.owner id <;> rfl
  rw [moved, entries_insert ((hasScope_update (by simp) scope).2 insideReleased),
    entries_update (by simp), entriesReleased]

theorem entries_register {table : SymbolTable} {scope : SymbolId} (inside : table.HasScope scope)
    (given : String) (id other : SymbolId) (name : String) :
    (table.updateMembers scope (Members.register · given id)).entries other name =
      table.entries other name ++
        if scope = other ∧ given = name ∧ id ∉ table.entries other name then [id] else [] := by
  rw [entries_updateMembers]
  by_cases same : scope = other
  · subst same
    obtain ⟨members, found⟩ := Option.isSome_iff_exists.1 inside
    simp [entries, found, Members.named_register]
  · simp [same]

/-! ## Blank templates -/

/-- Whether a template has no name, wraps nothing and is entered nowhere. -/
structure Blank (table : SymbolTable) (template : SymbolId) : Prop where
  nonRoot : template ≠ root
  isTemplate : table.isTemplate template = true
  unnamed : table.nameOf template = some ""
  unbound : table.templated? template = none
  unlisted : ∀ scope name, template ∉ table.entries scope name

theorem Blank.has {table : SymbolTable} {template : SymbolId} (blank : table.Blank template) :
    table.Has template := by
  have unnamed := blank.unnamed
  cases found : table.get? template with
  | none => simp [nameOf, found] at unnamed
  | some symbol => exact has_of_get? found

/-- What a symbol says of itself as a template. -/
def card (table : SymbolTable) (id : SymbolId) : Option (String × Bool × Option SymbolId) :=
  (table.get? id).map Symbol.card

/-- A template stays blank while what it says of itself and the entries of it stay. -/
theorem Blank.congr {before after : SymbolTable} {template : SymbolId}
    (blank : before.Blank template) (same : after.card template = before.card template)
    (entered : ∀ scope name, template ∈ after.entries scope name →
      template ∈ before.entries scope name) : after.Blank template := by
  obtain ⟨symbol, found⟩ := Option.isSome_iff_exists.1 blank.has
  cases there : after.get? template with
  | none => simp [card, found, there] at same
  | some changed =>
      simp only [card, Symbol.card, found, there, Option.map_some, Option.some.injEq,
        Prod.mk.injEq] at same
      obtain ⟨sameName, sameTemplate, sameTemplated⟩ := same
      have isTemplate := blank.isTemplate
      have unnamed := blank.unnamed
      have unbound := blank.unbound
      simp only [SymbolTable.isTemplate, nameOf, templated?, found] at isTemplate unnamed unbound
      refine ⟨blank.nonRoot, ?_, ?_, ?_, fun scope name member =>
        blank.unlisted scope name (entered scope name member)⟩
      · simpa [SymbolTable.isTemplate, there, sameTemplate] using isTemplate
      · simpa [nameOf, there, sameName] using unnamed
      · rw [templated?, there]
        exact sameTemplated.trans unbound

theorem card_update {table : SymbolTable} {id other : SymbolId} {change : Symbol → Symbol}
    (keeps : id = other → ∀ symbol, (change symbol).card = symbol.card) :
    (table.update id change).card other = table.card other := by
  unfold card
  rw [get?_update]
  split
  · rename_i same
    cases table.get? other with
    | none => rfl
    | some symbol => simp [keeps same symbol]
  · rfl

theorem Blank.update {table : SymbolTable} {template id : SymbolId}
    (blank : table.Blank template) {change : Symbol → Symbol}
    (keeps : id = template → ∀ symbol, (change symbol).card = symbol.card)
    (members : ∀ symbol, (change symbol).members = symbol.members) :
    (table.update id change).Blank template := by
  apply blank.congr (card_update keeps)
  intro scope name member
  rwa [entries_update members] at member

theorem card_attach {table : SymbolTable} {scope id : SymbolId} (present : table.Has id)
    (request : SymbolRequest) : (table.attach scope request).2.card id = table.card id := by
  have old : id ≠ ⟨table.size⟩ := by
    rintro rfl
    exact table.not_has_fresh present
  unfold card
  rw [get?_attach, if_neg old]
  cases table.get? id with
  | none => rfl
  | some symbol =>
      simp only [Option.map_some, Option.some.injEq]
      split <;> rfl

theorem card_relocate (table : SymbolTable) (id scope other : SymbolId) :
    (table.relocate id scope).card other = table.card other := by
  unfold card
  rw [get?_relocate]
  cases table.get? other with
  | none => rfl
  | some symbol =>
      simp only [Option.map_some, Option.some.injEq]
      split <;> split <;> split <;> rfl

/-- Adding a symbol to a scope enters no other one. -/
theorem Blank.attach {table : SymbolTable} {template scope : SymbolId}
    (blank : table.Blank template) (inside : table.HasScope scope) (request : SymbolRequest) :
    (table.attach scope request).2.Blank template := by
  have old : template ≠ ⟨table.size⟩ := by
    rintro rfl
    exact table.not_has_fresh blank.has
  apply blank.congr (card_attach blank.has request)
  intro other name member
  rw [entries_attach inside] at member
  rcases List.mem_append.1 member with earlier | last
  · exact earlier
  · split at last
    · exact absurd (List.mem_singleton.1 last) old
    · cases last

/-- A template without a name is moved without being entered. -/
theorem Blank.relocate {table : SymbolTable} {template id scope : SymbolId}
    (blank : table.Blank template) (inside : table.HasScope scope) :
    (table.relocate id scope).Blank template := by
  apply blank.congr (card_relocate table id scope template)
  intro other name member
  rw [entries_relocate inside] at member
  rcases List.mem_append.1 member with earlier | last
  · split at earlier
    · exact (List.mem_filter.1 earlier).1
    · exact earlier
  · split at last
    · rename_i entered
      obtain ⟨_, named, filled⟩ := entered
      rw [← List.mem_singleton.1 last, blank.unnamed] at named
      exact absurd named.symm filled
    · cases last

theorem Blank.register {table : SymbolTable} {template id scope : SymbolId}
    (blank : table.Blank template) (inside : table.HasScope scope) (other : template ≠ id)
    (given : String) :
    (table.updateMembers scope (Members.register · given id)).Blank template := by
  have same : (table.updateMembers scope (Members.register · given id)).card template =
      table.card template := card_update fun _ _ => rfl
  apply blank.congr same
  intro place name member
  rw [entries_register inside] at member
  rcases List.mem_append.1 member with earlier | last
  · exact earlier
  · split at last
    · exact absurd (List.mem_singleton.1 last) other
    · cases last

theorem hasScope_adopt {table after : SymbolTable} {id scope : SymbolId} {name : String}
    (adopted : table.adopt name id scope = .ok after) (other : SymbolId) :
    after.HasScope other ↔ table.HasScope other := by
  unfold SymbolTable.adopt at adopted
  split at adopted
  · obtain rfl := Except.ok.inj adopted
    exact hasScope_update (by simp [Symbol.mapMembers]) other
  · obtain ⟨_, _, rfl⟩ := move_ok adopted
    exact hasScope_relocate table id scope other

theorem Blank.adopt {table after : SymbolTable} {template id scope : SymbolId} {name : String}
    (blank : table.Blank template) (inside : table.HasScope scope) (other : template ≠ id)
    (adopted : table.adopt name id scope = .ok after) : after.Blank template := by
  unfold SymbolTable.adopt at adopted
  split at adopted
  · obtain rfl := Except.ok.inj adopted
    exact blank.register inside other name
  · obtain ⟨_, _, rfl⟩ := move_ok adopted
    exact blank.relocate inside

/-! ## The frames of all factories -/

/-- Whether all open templates are blank and each is open in one factory only. -/
structure FramesBlank (table : SymbolTable) : Prop where
  apart : ∀ first second template, template ∈ table.stackOf first →
    template ∈ table.stackOf second → first = second
  blank : ∀ factory template, template ∈ table.stackOf factory → table.Blank template

/-- Frames that stay open keep what they are. -/
theorem FramesBlank.mono {before after : SymbolTable} (frames : before.FramesBlank)
    (within : before.StacksWithin after)
    (keeps : ∀ factory template, template ∈ after.stackOf factory → before.Blank template →
      after.Blank template) : after.FramesBlank where
  apart first second template left right :=
    frames.apart first second template ((within first).subset left) ((within second).subset right)
  blank factory template member :=
    keeps factory template member (frames.blank factory template ((within factory).subset member))

theorem FramesBlank.update {table : SymbolTable} (frames : table.FramesBlank) {id : SymbolId}
    {change : Symbol → Symbol}
    (keeps : ∀ symbol, (change symbol).card = symbol.card)
    (members : ∀ symbol, (change symbol).members = symbol.members) :
    (table.update id change).FramesBlank := by
  have within : table.StacksWithin (table.update id change) := stacksWithin_of_eq fun _ => rfl
  exact frames.mono within fun _ _ _ blank => blank.update (fun _ => keeps) members

theorem FramesBlank.attach {table : SymbolTable} (frames : table.FramesBlank) {scope : SymbolId}
    (inside : table.HasScope scope) (request : SymbolRequest) :
    (table.attach scope request).2.FramesBlank := by
  have within : table.StacksWithin (table.attach scope request).2 :=
    stacksWithin_of_eq fun _ => rfl
  exact frames.mono within fun _ _ _ blank => blank.attach inside request

theorem FramesBlank.declare {table after : SymbolTable} (frames : table.FramesBlank)
    {scope id : SymbolId} {request : SymbolRequest}
    (declared : table.declare scope request = .ok (id, after)) : after.FramesBlank := by
  obtain ⟨inside, added⟩ := attach_of_declare declared
  obtain rfl : after = (table.attach scope request).2 := congrArg Prod.snd added
  exact frames.attach inside request

theorem FramesBlank.updateFactory {table : SymbolTable} (frames : table.FramesBlank)
    {factory : FactoryId} {change : TemplateFactory → TemplateFactory}
    (within : table.StacksWithin (table.updateFactory factory change)) :
    (table.updateFactory factory change).FramesBlank := by
  apply frames.mono within
  intro _ template _ blank
  exact ⟨blank.nonRoot, blank.isTemplate, blank.unnamed, blank.unbound, blank.unlisted⟩

/-- A new template is blank and open in its factory only. -/
theorem FramesBlank.openTemplate {table after : SymbolTable} (frames : table.FramesBlank)
    (consistent : table.Consistent) {factory : FactoryId} {unit : Option UnitId}
    {template : SymbolId} (opened : table.openTemplate factory unit = .ok (template, after)) :
    after.FramesBlank := by
  have framesAfter := stackOf_openTemplate opened
  obtain ⟨opens, found, rfl, rfl⟩ := openTemplate_ok opened
  have inside := consistent.parent_scope found
  have fresh (other : FactoryId) : (⟨table.size⟩ : SymbolId) ∉ table.stackOf other := by
    intro member
    exact table.not_has_fresh (frames.blank other _ member).has
  have extended := frames.attach inside { name := "", kind := .template {}, unit := unit }
  have newBlank : (table.attach (opens.current?.getD opens.container)
      { name := "", kind := .template {}, unit := unit }).2.Blank ⟨table.size⟩ := by
    have old : opens.current?.getD opens.container ≠ ⟨table.size⟩ := by
      intro same
      exact table.not_has_fresh (same ▸ inside.has)
    refine ⟨?_, ?_, ?_, ?_, ?_⟩
    · rintro same
      exact table.not_has_fresh (same ▸ consistent.tree.root_scope.has)
    · simp [SymbolTable.isTemplate, get?_attach, Ne.symm old, Symbol.ofRequest, Symbol.isTemplate,
        SymbolKind.templateInfo?]
    · simp [nameOf, get?_attach, Ne.symm old, Symbol.ofRequest]
    · simp [templated?, get?_attach, Ne.symm old, Symbol.ofRequest, SymbolKind.templateInfo?]
    · intro scope name member
      rw [entries_attach inside] at member
      rcases List.mem_append.1 member with earlier | last
      · exact table.not_has_fresh (consistent.has_of_mem_entries earlier)
      · rw [if_neg (by rintro ⟨_, rfl, filled⟩; exact filled rfl)] at last
        cases last
  constructor
  · intro first second other left right
    rw [framesAfter] at left right
    split at left
    · rename_i here
      subst here
      split at right
      · assumption
      · rcases List.mem_cons.1 left with rfl | left
        · exact absurd right (fresh second)
        · exact frames.apart factory second other left right
    · split at right
      · rename_i here
        subst here
        rcases List.mem_cons.1 right with rfl | right
        · exact absurd left (fresh first)
        · exact frames.apart first factory other left right
      · exact frames.apart first second other left right
  · intro other open' member
    have blank : (table.attach (opens.current?.getD opens.container)
        { name := "", kind := .template {}, unit := unit }).2.Blank open' := by
      rw [framesAfter] at member
      split at member
      · rcases List.mem_cons.1 member with rfl | earlier
        · exact newBlank
        · exact extended.blank other open' earlier
      · exact extended.blank other open' member
    exact ⟨blank.nonRoot, blank.isTemplate, blank.unnamed, blank.unbound, blank.unlisted⟩

/-! ## Closing the frames of a factory -/

/-- The frames that are left to close around a symbol that has none itself. -/
structure Closing (table : SymbolTable) (factory : FactoryId) (inner : SymbolId)
    (frames : List SymbolId) : Prop where
  consistent : table.Consistent
  framesBlank : table.FramesBlank
  present : table.Has inner
  stack : table.stackOf factory = frames
  done : ∀ other, inner ∉ table.stackOf other
  later : ∀ template ∈ frames, template.index < inner.index

namespace Closing

variable {table after : SymbolTable} {factory : FactoryId} {inner template target : SymbolId}
  {outer : List SymbolId} {request : SymbolRequest}

theorem blank {frames : List SymbolId} (closing : table.Closing factory inner frames)
    (member : template ∈ frames) : table.Blank template :=
  closing.framesBlank.blank factory template (closing.stack ▸ member)

theorem scope {frames : List SymbolId} (closing : table.Closing factory inner frames)
    (member : template ∈ frames) : table.HasScope template := by
  rw [← closing.stack] at member
  unfold stackOf at member
  cases found : table.factory? factory with
  | none => simp [found] at member
  | some opened =>
      simp only [found, Option.map_some, Option.getD_some] at member
      exact (closing.consistent.factories factory opened found).frames template member

theorem descending {frames : List SymbolId} (closing : table.Closing factory inner frames) :
    frames.Pairwise fun inner outer => outer.index < inner.index := by
  rw [← closing.stack]
  unfold stackOf
  cases found : table.factory? factory with
  | none => exact .nil
  | some opened => exact (closing.consistent.factories factory opened found).descending

/-- The table in which the innermost frame is closed around the symbol. -/
theorem stackOf_bound (closing : table.Closing factory inner (template :: outer))
    (request : SymbolRequest) (other : FactoryId) :
    ((table.updateFactory factory TemplateFactory.popped).bindTemplate request template
      inner).stackOf other = if factory = other then outer else table.stackOf other := by
  have stack := closing.stack
  change (table.updateFactory factory TemplateFactory.popped).stackOf other = _
  rw [stackOf_updateFactory]
  split
  · rename_i same
    subst same
    unfold stackOf at stack
    cases found : table.factory? factory with
    | none => simp [found] at stack
    | some opened =>
        simp only [found, Option.map_some, Option.getD_some] at stack ⊢
        exact stack_popped stack
  · rfl

theorem consistent_bound (closing : table.Closing factory inner (template :: outer))
    (request : SymbolRequest) :
    ((table.updateFactory factory TemplateFactory.popped).bindTemplate request template
      inner).Consistent :=
  (closing.consistent.popFrame factory).bindTemplate request closing.present
    (closing.later template (by simp))

/-- No frame that stays open belongs to the template that is closed. -/
theorem open_ne (closing : table.Closing factory inner (template :: outer))
    (request : SymbolRequest) (other : FactoryId) (frame : SymbolId)
    (member : frame ∈ ((table.updateFactory factory TemplateFactory.popped).bindTemplate request
      template inner).stackOf other) : frame ≠ template ∧ frame ∈ table.stackOf other := by
  rw [closing.stackOf_bound] at member
  split at member
  · rename_i same
    subst same
    have below := (List.pairwise_cons.1 closing.descending).1 frame member
    refine ⟨?_, closing.stack ▸ List.mem_cons_of_mem _ member⟩
    rintro rfl
    exact Nat.lt_irrefl _ below
  · rename_i different
    refine ⟨?_, member⟩
    rintro rfl
    have here : frame ∈ table.stackOf factory := closing.stack ▸ List.mem_cons_self
    exact different (closing.framesBlank.apart factory other frame here member)

theorem framesBlank_bound (closing : table.Closing factory inner (template :: outer))
    (request : SymbolRequest) :
    ((table.updateFactory factory TemplateFactory.popped).bindTemplate request template
      inner).FramesBlank := by
  constructor
  · intro first second frame left right
    exact closing.framesBlank.apart first second frame (closing.open_ne request _ _ left).2
      (closing.open_ne request _ _ right).2
  · intro other frame member
    obtain ⟨different, earlier⟩ := closing.open_ne request _ _ member
    have blank := closing.framesBlank.blank other frame earlier
    have popped : (table.updateFactory factory TemplateFactory.popped).Blank frame :=
      ⟨blank.nonRoot, blank.isTemplate, blank.unnamed, blank.unbound, blank.unlisted⟩
    exact popped.update (fun same => absurd same.symm different) fun _ => rfl

/-- Once a frame has adopted what it wraps, the frames around it are left. -/
theorem next (closing : table.Closing factory inner (template :: outer))
    (adopted : ((table.updateFactory factory TemplateFactory.popped).bindTemplate request
      template inner).adopt request.name inner template = .ok after) :
    after.Closing factory template outer := by
  have consistentBound := closing.consistent_bound request
  have blankBound := closing.framesBlank_bound request
  have stackBound := closing.stackOf_bound request
  have openBound := closing.open_ne request
  have sizeBound : ((table.updateFactory factory TemplateFactory.popped).bindTemplate request
    template inner).size = table.size := size_update _ _ _
  have scopeBound : ((table.updateFactory factory TemplateFactory.popped).bindTemplate request
    template inner).HasScope template :=
      (hasScope_update (by simp) template).2 (closing.scope List.mem_cons_self)
  generalize (table.updateFactory factory TemplateFactory.popped).bindTemplate request template
    inner = bound at *
  have sameStacks (other : FactoryId) : after.stackOf other = bound.stackOf other :=
    stackOf_congr (factories_adopt adopted) other
  constructor
  · apply consistentBound.adopt _ adopted
    have present := closing.present
    rwa [has_iff_lt, ← sizeBound, ← has_iff_lt] at present
  · apply blankBound.mono (stacksWithin_of_eq sameStacks)
    intro other frame member blank
    refine blank.adopt scopeBound ?_ adopted
    rintro rfl
    rw [sameStacks] at member
    exact closing.done other (openBound _ _ member).2
  · exact ((hasScope_adopt adopted template).2 scopeBound).has
  · rw [sameStacks, stackBound, if_pos rfl]
  · intro other member
    rw [sameStacks] at member
    exact (openBound _ _ member).1 rfl
  · exact (List.pairwise_cons.1 closing.descending).1

theorem framesBlank_closeFrames {frames : List SymbolId}
    (closing : table.Closing factory inner frames) (container : table.HasScope target) :
    (closeFrames factory target request table inner frames).2.FramesBlank := by
  induction frames generalizing table inner with
  | nil =>
      unfold closeFrames
      split
      · exact closing.framesBlank
      · rename_i adopted
        apply closing.framesBlank.mono (stacksWithin_of_eq (stackOf_congr
          (factories_adopt adopted)))
        intro other frame member blank
        refine blank.adopt container ?_ adopted
        rintro rfl
        rw [stackOf_congr (factories_adopt adopted)] at member
        exact closing.done other member
  | cons template outer ih =>
      unfold closeFrames
      simp only
      split
      · exact closing.framesBlank_bound request
      · rename_i adopted
        refine ih (closing.next adopted) ((hasScope_adopt adopted target).2 ?_)
        exact (hasScope_update (by simp) target).2 container

end Closing

/-- What is checked before a declaration closes the frames of a factory makes them ready to
be closed around it. -/
theorem Consistent.closing {table : SymbolTable} (consistent : table.Consistent)
    (framesBlank : table.FramesBlank) {factory : FactoryId} {target : SymbolId}
    {request : SymbolRequest} (plain : request.kind.templateInfo? = none) {innermost : SymbolId}
    {frames : List SymbolId}
    (checked : table.openFrames factory target request = .ok (innermost, frames)) :
    table.HasScope innermost ∧
      (table.attach innermost request).2.Closing factory ⟨table.size⟩ frames := by
  obtain ⟨opened, outer, found, stack, rfl, _, _⟩ := openFrames_ok_iff.1 checked
  have fits := consistent.factories factory opened found
  have scopes : ∀ template ∈ innermost :: outer, table.HasScope template := by
    rw [← stack]
    exact fits.frames
  have container := scopes innermost (by simp)
  refine ⟨container, consistent.attach container (plain_of_templateInfo? plain),
    framesBlank.attach container request, (has_attach _ _ _ _).2 (.inl rfl), ?_, ?_, ?_⟩
  · change table.stackOf factory = _
    simp [stackOf, found, stack]
  · intro other member
    exact table.not_has_fresh (framesBlank.blank other _ member).has
  · intro template member
    exact (table.has_iff_lt template).1 (scopes template member).has

theorem FramesBlank.declareTemplated {table : SymbolTable} (framesBlank : table.FramesBlank)
    (consistent : table.Consistent) (factory : FactoryId) (target : SymbolId)
    {request : SymbolRequest} (plain : request.kind.templateInfo? = none) :
    (table.declareTemplated factory target request).2.FramesBlank := by
  unfold SymbolTable.declareTemplated
  split
  · exact framesBlank
  · rename_i innermost frames checked
    obtain ⟨_, _, _, _, _, container, _⟩ := openFrames_ok_iff.1 checked
    obtain ⟨inside, closing⟩ := consistent.closing framesBlank plain checked
    exact closing.framesBlank_closeFrames
      ((hasScope_attach inside.has request target).2 (.inr (checkContainer_ok_iff.1 container)))

/-! ## All operations -/

theorem framesBlank_empty : SymbolTable.empty.FramesBlank where
  apart _ _ _ member := by cases member
  blank _ _ member := by cases member

theorem FramesBlank.settle {α : Type} {table : SymbolTable} (framesBlank : table.FramesBlank)
    {outcome : Except SymbolError (α × SymbolTable)}
    (changed : ∀ value after, outcome = .ok (value, after) → after.FramesBlank) :
    (table.settle outcome).FramesBlank := by
  cases outcome with
  | error _ => exact framesBlank
  | ok result => exact changed result.1 result.2 rfl

theorem FramesBlank.perform {table : SymbolTable} (framesBlank : table.FramesBlank)
    (consistent : table.Consistent) {operation : TableOperation}
    (admitted : table.Admits operation) : (table.perform operation).FramesBlank := by
  cases operation with
  | declare scope request => exact framesBlank.settle fun _ _ => framesBlank.declare
  | openNamespace scope name unit =>
      apply framesBlank.settle
      intro _ _ opened
      rcases openNamespace_ok opened with ⟨_, rfl⟩ | declared
      · exact framesBlank
      · exact framesBlank.declare declared
  | move id scope =>
      apply framesBlank.settle
      intro _ _ moved
      obtain ⟨inside, _, rfl⟩ := move_ok (map_pair_ok moved)
      apply framesBlank.mono (stacksWithin_of_eq (stackOf_congr (factories_relocate _ _ _)))
      exact fun _ _ _ blank => blank.relocate inside
  | addUsing scope target => exact framesBlank.update (fun _ => rfl) fun _ => rfl
  | setOrigin id origin =>
      apply framesBlank.settle
      intro _ after changed
      rw [setOrigin_ok (map_pair_ok changed)]
      exact framesBlank.update (fun _ => rfl) fun _ => rfl
  | factoryFor container =>
      apply framesBlank.settle
      intro _ _ created
      apply framesBlank.mono (stacksWithin_of_eq (stackOf_factoryFor created))
      intro _ template _ blank
      obtain ⟨_, rfl | rfl⟩ := factoryFor_ok created
      · exact blank
      · have extended : ({ table with
            factories := table.factories.push { container := container } } :
              SymbolTable).Blank template :=
          ⟨blank.nonRoot, blank.isTemplate, blank.unnamed, blank.unbound, blank.unlisted⟩
        exact extended.update (fun _ _ => rfl) fun _ => rfl
  | openTemplate factory unit =>
      exact framesBlank.settle fun _ _ => framesBlank.openTemplate consistent
  | addParameter template request =>
      apply framesBlank.settle
      intro _ _ added
      obtain ⟨extended, declared, rfl⟩ := addParameter_ok added
      apply (framesBlank.declare declared).update
      · intro symbol
        cases kind : symbol.kind <;> simp [Symbol.card, Symbol.isTemplate, kind,
          SymbolKind.mapTemplate, SymbolKind.templateInfo?]
      · exact fun _ => rfl
  | declareTemplated factory target request =>
      exact framesBlank.declareTemplated consistent factory target admitted
  | popFrame factory => exact framesBlank.updateFactory (table.stacksWithin_popFrame factory)
  | discardFrames factory template =>
      apply framesBlank.updateFactory
      intro other
      rw [stackOf_updateFactory]
      split
      · unfold stackOf
        cases table.factory? other with
        | none => exact List.suffix_refl _
        | some frames => exact frames.stack_discard_suffix template
      · exact List.suffix_refl _

/-- In every table that operations lead to, open templates are blank. -/
theorem Reachable.framesBlank {table : SymbolTable} (reached : table.Reachable) :
    table.FramesBlank := by
  induction reached with
  | empty => exact framesBlank_empty
  | perform reached admitted ih => exact ih.perform reached.consistent admitted

end SymbolTable

end DeclTree
