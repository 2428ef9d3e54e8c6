import DeclTree.Proofs.NameIndex
import DeclTree.Proofs.TableGrowth

/-!
# Declarations that share a name

A declaration is compared with the entries of its name when it enters a scope, and never
again.  That is enough for those that are no templates: what they are compared by does not
change any more, the comparison does not depend on which of two came first, and the only
symbols that enter a scope without being compared as they are, or come into it from elsewhere,
are templates.  So no two of them stand in each other's way, as long as no symbol is moved on
its own.
-/

namespace DeclTree

/-- Two declarations stand in each other's way, whichever of them comes first. -/
theorem Profile.conflicts_comm (first second : Profile) :
    first.conflicts second = second.conflicts first := by
  unfold Profile.conflicts
  rw [Bool.or_comm first.specialization]
  split
  · rfl
  · rw [Bool.and_comm first.defined, BEq.comm (a := first.unit), bne_comm (a := first.isTemplate)]
    cases first.nameClass <;> cases second.nameClass <;> rfl

/-- Whether a symbol says what it said, as far as declarations of its name are concerned.  A
template may say something else. -/
structure Symbol.Agrees (symbol changed : Symbol) : Prop where
  isTemplate : changed.isTemplate = symbol.isTemplate
  kind : symbol.isTemplate = false → changed.kind = symbol.kind
  defined : symbol.isTemplate = false → changed.defined = symbol.defined
  specialization : symbol.isTemplate = false → changed.specialization = symbol.specialization
  unit : changed.unit = symbol.unit

namespace Symbol.Agrees

variable {symbol changed later : Symbol}

theorem of_eq (kind : changed.kind = symbol.kind) (defined : changed.defined = symbol.defined)
    (specialization : changed.specialization = symbol.specialization)
    (unit : changed.unit = symbol.unit) : symbol.Agrees changed :=
  ⟨by rw [Symbol.isTemplate, kind, ← Symbol.isTemplate], fun _ => kind, fun _ => defined,
    fun _ => specialization, unit⟩

theorem refl (symbol : Symbol) : symbol.Agrees symbol :=
  .of_eq rfl rfl rfl rfl

theorem trans (left : symbol.Agrees changed) (right : changed.Agrees later) :
    symbol.Agrees later where
  isTemplate := right.isTemplate.trans left.isTemplate
  kind plain := (right.kind (left.isTemplate.trans plain)).trans (left.kind plain)
  defined plain := (right.defined (left.isTemplate.trans plain)).trans (left.defined plain)
  specialization plain :=
    (right.specialization (left.isTemplate.trans plain)).trans (left.specialization plain)
  unit := right.unit.trans left.unit

theorem mapMembers (symbol : Symbol) (change : Members → Members) :
    symbol.Agrees (symbol.mapMembers change) :=
  .of_eq rfl rfl rfl rfl

theorem mapTemplate (symbol : Symbol) (change : TemplateInfo → TemplateInfo) :
    symbol.Agrees { symbol with kind := symbol.kind.mapTemplate change } := by
  refine ⟨SymbolKind.isSome_mapTemplate symbol.kind change, ?_, fun _ => rfl, fun _ => rfl, rfl⟩
  intro plain
  cases known : symbol.kind with
  | template info => simp [Symbol.isTemplate, known, SymbolKind.templateInfo?] at plain
  | _ => rfl

/-- What a symbol that is no template is compared by depends on nothing else. -/
theorem ofSymbol (agrees : symbol.Agrees changed) (plain : symbol.isTemplate = false)
    (before after : SymbolTable) :
    Profile.ofSymbol after changed = Profile.ofSymbol before symbol := by
  obtain ⟨isTemplate, kind, defined, specialization, unit⟩ := agrees
  unfold Profile.ofSymbol
  rw [isTemplate, kind plain, defined plain, specialization plain, unit]
  congr 1
  cases known : symbol.kind with
  | template info => simp [Symbol.isTemplate, known, SymbolKind.templateInfo?] at plain
  | _ => rfl

end Symbol.Agrees

namespace SymbolTable

variable {before after later table : SymbolTable}

/-! ## What operations do to declarations that are no templates -/

/-- Whether all symbols of a table are still there and say what they said. -/
def Agrees (before after : SymbolTable) : Prop :=
  ∀ id symbol, before.get? id = some symbol → ∃ changed, after.get? id = some changed ∧
    symbol.Agrees changed

/-- Whether in addition nothing but templates has been entered in scopes that are none. -/
structure KeepsPlain (before after : SymbolTable) : Prop where
  agrees : before.Agrees after
  entries : ∀ scope name id, after.isTemplate scope = false → id ∈ after.entries scope name →
    id ∈ before.entries scope name ∨ after.isTemplate id = true

/-- A scope with entries is there. -/
theorem has_of_mem_entries {scope id : SymbolId} {name : String}
    (member : id ∈ table.entries scope name) : table.Has scope := by
  obtain ⟨members, found, _⟩ := mem_entries.1 member
  unfold members? at found
  cases there : table.get? scope with
  | none => simp [there] at found
  | some symbol => exact has_of_get? there

theorem Agrees.isTemplate (agrees : before.Agrees after) {id : SymbolId}
    (present : before.Has id) : after.isTemplate id = before.isTemplate id := by
  obtain ⟨symbol, found⟩ := Option.isSome_iff_exists.1 present
  obtain ⟨changed, there, same⟩ := agrees id symbol found
  simp [SymbolTable.isTemplate, found, there, same.isTemplate]

theorem Agrees.has (agrees : before.Agrees after) {id : SymbolId} (present : before.Has id) :
    after.Has id := by
  obtain ⟨symbol, found⟩ := Option.isSome_iff_exists.1 present
  obtain ⟨changed, there, _⟩ := agrees id symbol found
  exact has_of_get? there

theorem has_of_isTemplate {id : SymbolId} (template : table.isTemplate id = true) :
    table.Has id := by
  unfold SymbolTable.isTemplate at template
  cases there : table.get? id with
  | none => simp [there] at template
  | some symbol => exact has_of_get? there

namespace KeepsPlain

theorem refl (table : SymbolTable) : KeepsPlain table table where
  agrees _ symbol found := ⟨symbol, found, .refl symbol⟩
  entries _ _ _ _ member := .inl member

theorem trans (left : KeepsPlain before after) (right : KeepsPlain after later) :
    KeepsPlain before later where
  agrees id symbol found := by
    obtain ⟨changed, there, same⟩ := left.agrees id symbol found
    obtain ⟨last, present, further⟩ := right.agrees id changed there
    exact ⟨last, present, same.trans further⟩
  entries scope name id plain member := by
    rcases right.entries scope name id plain member with middle | template
    · have plainMiddle : after.isTemplate scope = false := by
        rw [← right.agrees.isTemplate (has_of_mem_entries middle)]
        exact plain
      rcases left.entries scope name id plainMiddle middle with earlier | template
      · exact .inl earlier
      · exact .inr ((right.agrees.isTemplate (has_of_isTemplate template)).trans template)
    · exact .inr template

/-- A change of a symbol that leaves its members alone. -/
theorem update (table : SymbolTable) {id : SymbolId} {change : Symbol → Symbol}
    (agrees : ∀ symbol, table.get? id = some symbol → symbol.Agrees (change symbol))
    (members : ∀ symbol, (change symbol).members = symbol.members) :
    KeepsPlain table (table.update id change) where
  agrees other symbol found := by
    rw [get?_update, found]
    split
    · rename_i same
      exact ⟨change symbol, rfl, agrees symbol (same ▸ found)⟩
    · exact ⟨symbol, rfl, .refl symbol⟩
  entries scope name other _ member := by
    rw [entries_update members] at member
    exact .inl member

/-- Tables with the same symbols. -/
theorem of_get? (same : after.get? = before.get?) : KeepsPlain before after where
  agrees id symbol found := ⟨symbol, by rw [same, found], .refl symbol⟩
  entries scope name id _ member := by
    left
    unfold SymbolTable.entries members? at member ⊢
    rwa [same] at member

end KeepsPlain

/-- What is entered with a new symbol is that symbol. -/
theorem mem_entries_attach {scope other id : SymbolId} {request : SymbolRequest} {name : String}
    (member : id ∈ (table.attach scope request).2.entries other name) :
    id ∈ table.entries other name ∨
      (other = scope ∧ name = request.name ∧ name ≠ "" ∧ id = ⟨table.size⟩) := by
  obtain ⟨members, found, entered⟩ := mem_entries.1 member
  obtain ⟨symbol, there, known⟩ := Option.bind_eq_some_iff.1 found
  rw [get?_attach] at there
  obtain ⟨earlier, place, rfl⟩ := Option.map_eq_some_iff.1 there
  have old (others : Members) (same : earlier.members = some others)
      (inside : (name, id) ∈ others.names) : id ∈ table.entries other name := by
    split at place
    · obtain rfl := Option.some.inj place
      simp only [Symbol.ofRequest] at same
      split at same
      · obtain rfl := Option.some.inj same
        cases inside
      · cases same
    · exact mem_entries.2 ⟨others, by simp [members?, place, same], inside⟩
  split at known
  · rename_i here
    obtain ⟨others, same, rfl⟩ := Option.map_eq_some_iff.1 known
    simp only [Members.insert] at entered
    split at entered
    · exact .inl (old others same entered)
    · rename_i named
      rcases List.mem_append.1 entered with inside | last
      · exact .inl (old others same inside)
      · obtain ⟨rfl, rfl⟩ := Prod.mk.inj (List.mem_singleton.1 last)
        exact .inr ⟨here, rfl, named, rfl⟩
  · exact .inl (old members known entered)

theorem agrees_attach (table : SymbolTable) (scope : SymbolId) (request : SymbolRequest) :
    table.Agrees (table.attach scope request).2 := by
  intro id symbol found
  have old : id ≠ ⟨table.size⟩ := by
    rintro rfl
    exact table.not_has_fresh (has_of_get? found)
  rw [get?_attach, if_neg old, found]
  refine ⟨_, rfl, ?_⟩
  split
  · exact .mapMembers symbol _
  · exact .refl symbol

namespace KeepsPlain

/-- A template may be added anywhere, and anything to a template. -/
theorem attach (table : SymbolTable) {scope : SymbolId} {request : SymbolRequest}
    (wrapped : table.isTemplate scope = true ∨ request.kind.templateInfo?.isSome = true) :
    KeepsPlain table (table.attach scope request).2 where
  agrees := table.agrees_attach scope request
  entries other name id plain member := by
    rcases mem_entries_attach member with earlier | ⟨rfl, _, _, rfl⟩
    · exact .inl earlier
    · rcases wrapped with around | template
      · have still := (table.agrees_attach other request).isTemplate (has_of_isTemplate around)
        simp [still, around] at plain
      · right
        unfold SymbolTable.isTemplate
        rw [get?_attach, if_pos rfl]
        split <;> exact template

/-- A template may be entered anywhere, and anything in a template. -/
theorem adopt {name : String} {id scope : SymbolId}
    (wrapped : table.isTemplate scope = true ∨ table.isTemplate id = true)
    (adopted : table.adopt name id scope = .ok after) : KeepsPlain table after := by
  have entered (agrees : table.Agrees after) (members : ∀ other name entry,
      entry ∈ after.entries other name →
        entry ∈ table.entries other name ∨ (other = scope ∧ entry = id)) :
      KeepsPlain table after := by
    refine ⟨agrees, ?_⟩
    intro other name entry plain member
    rcases members other name entry member with earlier | ⟨rfl, rfl⟩
    · exact .inl earlier
    · rcases wrapped with around | template
      · rw [agrees.isTemplate (has_of_isTemplate around), around] at plain
        cases plain
      · exact .inr ((agrees.isTemplate (has_of_isTemplate template)).trans template)
  unfold SymbolTable.adopt at adopted
  split at adopted
  · cases adopted
    apply entered
    · intro other symbol found
      unfold updateMembers
      rw [get?_update, found]
      split
      · exact ⟨_, rfl, .mapMembers symbol _⟩
      · exact ⟨symbol, rfl, .refl symbol⟩
    · intro other given entry member
      rw [entries_updateMembers] at member
      split at member
      · rename_i here
        unfold SymbolTable.entries
        cases known : table.members? other with
        | none => simp [known] at member
        | some members =>
            simp only [known, Option.map_some, Option.getD_some, Members.named_register] at member ⊢
            rcases List.mem_append.1 member with earlier | last
            · exact .inl earlier
            · split at last
              · exact .inr ⟨here.symm, List.mem_singleton.1 last⟩
              · cases last
      · exact .inl member
  · obtain ⟨inside, _, rfl⟩ := move_ok adopted
    apply entered
    · intro other symbol found
      rw [get?_relocate, found]
      refine ⟨_, rfl, ?_⟩
      split <;> split <;> split <;> exact .of_eq rfl rfl rfl rfl
    · intro other given entry member
      rw [entries_relocate inside] at member
      rcases List.mem_append.1 member with earlier | last
      · left
        split at earlier
        · exact (List.mem_filter.1 earlier).1
        · exact earlier
      · split at last
        · rename_i here
          exact .inr ⟨here.1.symm, List.mem_singleton.1 last⟩
        · cases last

/-- A template may be named. -/
theorem bindTemplate (request : SymbolRequest) {template : SymbolId}
    (isTemplate : table.isTemplate template = true) (inner : SymbolId) :
    KeepsPlain table (table.bindTemplate request template inner) := by
  apply KeepsPlain.update table
  · intro symbol found
    have known : symbol.isTemplate = true := by
      simpa [SymbolTable.isTemplate, found] using isTemplate
    have named : ¬ symbol.isTemplate = false := by simp [known]
    refine ⟨?_, fun plain => absurd plain named, fun plain => absurd plain named,
      fun plain => absurd plain named, rfl⟩
    exact SymbolKind.isSome_mapTemplate symbol.kind _
  · exact fun _ => rfl

/-- Closing the frames of templates. -/
theorem closeFrames (factory : FactoryId) (target : SymbolId) (request : SymbolRequest)
    {inner : SymbolId} {frames : List SymbolId}
    (templates : ∀ template ∈ frames, table.isTemplate template = true)
    (wrapped : frames = [] → table.isTemplate inner = true) :
    KeepsPlain table (closeFrames factory target request table inner frames).2 := by
  induction frames generalizing table inner with
  | nil =>
      unfold SymbolTable.closeFrames
      split
      · exact .refl table
      · rename_i adopted
        exact .adopt (.inr (wrapped rfl)) adopted
  | cons template outer ih =>
      have isTemplate := templates template List.mem_cons_self
      have popped : KeepsPlain table (table.updateFactory factory TemplateFactory.popped) :=
        .of_get? rfl
      have isPopped : (table.updateFactory factory TemplateFactory.popped).isTemplate template =
        true := isTemplate
      have bound := popped.trans (.bindTemplate request isPopped inner)
      have still {next : SymbolTable} (keeps : KeepsPlain table next) {other : SymbolId}
          (member : other ∈ template :: outer) : next.isTemplate other = true := by
        have known := templates other member
        rw [keeps.agrees.isTemplate (has_of_isTemplate known), known]
      unfold SymbolTable.closeFrames
      simp only
      split
      · exact bound
      · rename_i adopted
        have further := bound.trans (.adopt (.inl (still bound List.mem_cons_self)) adopted)
        apply further.trans
        apply ih
        · intro other member
          exact still further (List.mem_cons_of_mem _ member)
        · intro _
          exact still further List.mem_cons_self

end KeepsPlain

/-! ## Declarations that are no templates -/

/-- Whether two symbols that are no templates stand in each other's way. -/
def PlainConflict (table : SymbolTable) (first second : SymbolId) : Prop :=
  ∃ one other, table.get? first = some one ∧ table.get? second = some other ∧
    one.isTemplate = false ∧ other.isTemplate = false ∧
      (Profile.ofSymbol table one).conflicts (Profile.ofSymbol table other) = true

/-- What holds of declarations that are no templates: the entries of scopes that are none exist,
no two of them stand in each other's way, and what is open in factories are templates. -/
structure PlainApart (table : SymbolTable) : Prop where
  frames : ∀ factory, ∀ template ∈ table.stackOf factory, table.isTemplate template = true
  present : ∀ scope name, table.isTemplate scope = false →
    ∀ id ∈ table.entries scope name, table.Has id
  apart : ∀ scope name, table.isTemplate scope = false → ∀ first ∈ table.entries scope name,
    ∀ second ∈ table.entries scope name, first ≠ second → ¬ table.PlainConflict first second

theorem PlainConflict.symm {first second : SymbolId}
    (conflict : table.PlainConflict first second) : table.PlainConflict second first := by
  obtain ⟨one, other, found, there, plain, plainOther, clash⟩ := conflict
  exact ⟨other, one, there, found, plainOther, plain, Profile.conflicts_comm _ _ ▸ clash⟩

/-- Symbols that stand in each other's way did so before. -/
theorem Agrees.conflict (agrees : before.Agrees after) {first second : SymbolId}
    (present : before.Has first) (presentOther : before.Has second)
    (conflict : after.PlainConflict first second) : before.PlainConflict first second := by
  obtain ⟨one, other, found, there, plain, plainOther, clash⟩ := conflict
  obtain ⟨old, foundOld⟩ := Option.isSome_iff_exists.1 present
  obtain ⟨oldOther, foundOther⟩ := Option.isSome_iff_exists.1 presentOther
  obtain ⟨changed, known, same⟩ := agrees first old foundOld
  obtain ⟨changedOther, knownOther, sameOther⟩ := agrees second oldOther foundOther
  obtain rfl := Option.some.inj (found.symm.trans known)
  obtain rfl := Option.some.inj (there.symm.trans knownOther)
  have plainOld := same.isTemplate.symm.trans plain
  have plainOldOther := sameOther.isTemplate.symm.trans plainOther
  refine ⟨old, oldOther, foundOld, foundOther, plainOld, plainOldOther, ?_⟩
  rw [← same.ofSymbol plainOld before after, ← sameOther.ofSymbol plainOldOther before after]
  exact clash

/-- No entry of its name stands in the way of a declaration that is not refused. -/
theorem not_clashes_of_declare {scope id : SymbolId} {request : SymbolRequest}
    (declared : table.declare scope request = .ok (id, after)) (named : request.name ≠ "")
    {entry : SymbolId} (member : entry ∈ table.entries scope request.name) :
    table.clashes (.ofRequest request false) entry = false := by
  unfold SymbolTable.declare at declared
  cases inside : table.checkContainer scope with
  | error _ => simp [inside, bind, Except.bind] at declared
  | ok _ =>
      cases clash : table.clashes (.ofRequest request false) entry with
      | false => rfl
      | true =>
          have found : (table.entries scope request.name).any
              (table.clashes (.ofRequest request false)) = true :=
            List.any_eq_true.2 ⟨entry, member, clash⟩
          simp [inside, checkConflict, named, found, bind, Except.bind] at declared

/-- What a new symbol that is no template is compared by is what was asked for. -/
theorem ofSymbol_attach {scope : SymbolId} {request : SymbolRequest} {symbol : Symbol}
    (found : (table.attach scope request).2.get? ⟨table.size⟩ = some symbol)
    (plain : symbol.isTemplate = false) :
    Profile.ofSymbol (table.attach scope request).2 symbol = .ofRequest request false := by
  rw [get?_attach, if_pos rfl] at found
  have agrees : (Symbol.ofRequest (some scope) request).Agrees symbol := by
    obtain rfl := Option.some.inj found
    split
    · exact .mapMembers _ _
    · exact .refl _
  have unwrapped := agrees.isTemplate.symm.trans plain
  rw [agrees.ofSymbol unwrapped table]
  unfold Profile.ofSymbol Profile.ofRequest
  rw [unwrapped]
  congr 1
  cases known : request.kind with
  | template info =>
      simp [Symbol.isTemplate, Symbol.ofRequest, known, SymbolKind.templateInfo?] at unwrapped
  | _ => simp [Symbol.ofRequest, known]

/-- No entry of its name stands in the way of a declaration once it has been entered. -/
theorem not_plainConflict_of_declare {scope id entry : SymbolId} {request : SymbolRequest}
    (declared : table.declare scope request = .ok (id, after)) (named : request.name ≠ "")
    (member : entry ∈ table.entries scope request.name) (present : table.Has entry) :
    ¬ after.PlainConflict entry ⟨table.size⟩ := by
  have free := not_clashes_of_declare declared named member
  obtain ⟨_, attached⟩ := attach_of_declare declared
  obtain rfl : after = (table.attach scope request).2 := congrArg Prod.snd attached
  rintro ⟨one, other, found, there, plain, plainOther, clash⟩
  obtain ⟨old, foundOld⟩ := Option.isSome_iff_exists.1 present
  obtain ⟨changed, known, same⟩ := table.agrees_attach scope request entry old foundOld
  obtain rfl := Option.some.inj (found.symm.trans known)
  rw [same.ofSymbol (same.isTemplate.symm.trans plain) table,
    ofSymbol_attach there plainOther] at clash
  simp [clashes, foundOld, clash] at free

namespace PlainApart

/-- Whatever keeps declarations that are no templates keeps them apart. -/
theorem keeps (apart : before.PlainApart) (keeps : KeepsPlain before after)
    (frames : ∀ factory, ∀ template ∈ after.stackOf factory, after.isTemplate template = true) :
    after.PlainApart := by
  have earlier {scope id : SymbolId} {name : String} (member : id ∈ before.entries scope name)
      (plain : after.isTemplate scope = false) : before.isTemplate scope = false := by
    rw [← keeps.agrees.isTemplate (has_of_mem_entries member)]
    exact plain
  refine ⟨frames, ?_, ?_⟩
  · intro scope name plain id member
    rcases keeps.entries scope name id plain member with old | template
    · exact keeps.agrees.has (apart.present scope name (earlier old plain) id old)
    · exact has_of_isTemplate template
  · intro scope name plain first member second memberOther different conflict
    have ⟨one, other, found, there, plainOne, plainOther, _⟩ := conflict
    have old : first ∈ before.entries scope name := by
      refine (keeps.entries scope name first plain member).resolve_right ?_
      simp [SymbolTable.isTemplate, found, plainOne]
    have oldOther : second ∈ before.entries scope name := by
      refine (keeps.entries scope name second plain memberOther).resolve_right ?_
      simp [SymbolTable.isTemplate, there, plainOther]
    have plainBefore := earlier old plain
    exact apart.apart scope name plainBefore first old second oldOther different
      (keeps.agrees.conflict (apart.present scope name plainBefore first old)
        (apart.present scope name plainBefore second oldOther) conflict)

/-- A declaration that is not refused stands in nobody's way. -/
theorem declare (apart : table.PlainApart) {scope id : SymbolId} {request : SymbolRequest}
    (declared : table.declare scope request = .ok (id, after)) : after.PlainApart := by
  have compared {entry : SymbolId} (named : request.name ≠ "")
      (member : entry ∈ table.entries scope request.name) (present : table.Has entry) :=
    not_plainConflict_of_declare declared named member present
  obtain ⟨_, attached⟩ := attach_of_declare declared
  obtain rfl : after = (table.attach scope request).2 := congrArg Prod.snd attached
  have agrees := table.agrees_attach scope request
  have old {other entry : SymbolId} {name : String} (member : entry ∈ table.entries other name)
      (plain : (table.attach scope request).2.isTemplate other = false) :
      table.isTemplate other = false := by
    rw [← agrees.isTemplate (has_of_mem_entries member)]
    exact plain
  refine ⟨?_, ?_, ?_⟩
  · intro factory template member
    have known := apart.frames factory template member
    rw [agrees.isTemplate (has_of_isTemplate known), known]
  · intro other name plain entry member
    rcases mem_entries_attach member with earlier | ⟨_, _, _, rfl⟩
    · exact agrees.has (apart.present other name (old earlier plain) entry earlier)
    · exact (has_attach table scope request _).2 (.inl rfl)
  · intro other name plain first member second memberOther different conflict
    rcases mem_entries_attach member with earlier | ⟨rfl, rfl, named, rfl⟩ <;>
      rcases mem_entries_attach memberOther with earlierOther | ⟨here, same, named, rfl⟩
    · have plainBefore := old earlier plain
      exact apart.apart other name plainBefore first earlier second earlierOther different
        (agrees.conflict (apart.present other name plainBefore first earlier)
          (apart.present other name plainBefore second earlierOther) conflict)
    · obtain rfl := here
      obtain rfl := same
      exact compared named earlier
        (apart.present _ _ (old earlier plain) first earlier) conflict
    · exact compared named earlierOther
        (apart.present _ _ (old earlierOther plain) second earlierOther) conflict.symm
    · exact different rfl

/-- An operation that is refused and changes nothing keeps declarations apart. -/
theorem settle {α : Type} (apart : table.PlainApart)
    {outcome : Except SymbolError (α × SymbolTable)}
    (succeeds : ∀ value after, outcome = .ok (value, after) → after.PlainApart) :
    (table.settle outcome).PlainApart := by
  cases outcome with
  | error _ => exact apart
  | ok result => exact succeeds result.1 result.2 rfl

/-- Whatever keeps declarations that are no templates and opens no frame keeps them apart. -/
theorem within (apart : before.PlainApart) (keeps : KeepsPlain before after)
    (inside : before.StacksWithin after) : after.PlainApart := by
  apply apart.keeps keeps
  intro factory template member
  have known := apart.frames factory template ((inside factory).subset member)
  rw [keeps.agrees.isTemplate (has_of_isTemplate known), known]

theorem openTemplate (apart : table.PlainApart) {factory : FactoryId} {unit : Option UnitId}
    {template : SymbolId} (opened : table.openTemplate factory unit = .ok (template, after)) :
    after.PlainApart := by
  have opens := stackOf_openTemplate opened
  have isTemplate := (isTemplate_openTemplate opened).2
  obtain ⟨frames, _, rfl, rfl⟩ := openTemplate_ok opened
  have keeps : KeepsPlain table ((table.attach (frames.current?.getD frames.container)
      { name := "", kind := .template {}, unit := unit }).2.updateFactory factory
        (TemplateFactory.push · ⟨table.size⟩)) :=
    (KeepsPlain.attach table (.inr rfl)).trans (.of_get? rfl)
  refine apart.keeps keeps ?_
  intro other frame member
  rw [opens] at member
  have old (inside : frame ∈ table.stackOf other) := apart.frames other frame inside
  split at member
  · rcases List.mem_cons.1 member with rfl | inside
    · exact isTemplate
    · rw [keeps.agrees.isTemplate (has_of_isTemplate (old inside)), old inside]
  · rw [keeps.agrees.isTemplate (has_of_isTemplate (old member)), old member]

/-- A declaration behind template prefixes goes into the innermost template, and nothing but
templates leaves it. -/
theorem declareTemplated (apart : table.PlainApart) (factory : FactoryId) (target : SymbolId)
    (request : SymbolRequest) :
    (table.perform (.declareTemplated factory target request)).PlainApart := by
  refine apart.within ?_ (table.stacksWithin_declareTemplated factory target request)
  simp only [SymbolTable.perform, SymbolTable.declareTemplated]
  split
  · exact .refl table
  · rename_i innermost frames opened
    obtain ⟨open', outer, found, rfl, cons, _, _⟩ := openFrames_ok_iff.1 opened
    have templates (template : SymbolId) (member : template ∈ open'.stack) :
        table.isTemplate template = true :=
      apart.frames factory template (by simpa [stackOf, found] using member)
    have attached : KeepsPlain table (table.attach innermost request).2 :=
      .attach table (.inl (templates innermost (by simp [cons])))
    refine attached.trans (.closeFrames factory target request ?_ ?_)
    · intro template member
      have known := templates template member
      rw [attached.agrees.isTemplate (has_of_isTemplate known), known]
    · simp [cons]

/-- Every operation but the moving of a symbol keeps declarations that are no templates
apart. -/
theorem perform (apart : table.PlainApart) {operation : TableOperation}
    (stays : ∀ id scope, operation ≠ .move id scope) : (table.perform operation).PlainApart := by
  -- Operations that open and close no frame.
  have still (frames : operation.KeepsFrames) (keeps : KeepsPlain table (table.perform operation)) :
      (table.perform operation).PlainApart :=
    apart.within keeps (stacksWithin_of_eq (table.stackOf_perform frames))
  cases operation with
  | declare scope request => exact apart.settle fun _ _ declared => apart.declare declared
  | openNamespace scope name unit =>
      apply apart.settle
      intro id after opened
      rcases openNamespace_ok opened with ⟨_, rfl⟩ | declared
      · exact apart
      · exact apart.declare declared
  | move id scope => exact absurd rfl (stays id scope)
  | addUsing scope target =>
      exact still trivial (.update table (fun symbol _ => .of_eq rfl rfl rfl rfl) fun _ => rfl)
  | setOrigin id origin =>
      apply apart.settle
      intro _ after changed
      obtain rfl := setOrigin_ok (map_pair_ok changed)
      exact apart.within (.update table (fun symbol _ => .of_eq rfl rfl rfl rfl) fun _ => rfl)
        fun _ => List.suffix_refl _
  | factoryFor container =>
      apply apart.settle
      intro factory after created
      refine apart.within ?_ (stacksWithin_of_eq (stackOf_factoryFor created))
      obtain ⟨_, rfl | rfl⟩ := factoryFor_ok created
      · exact .refl _
      · have extended : KeepsPlain table { table with
            factories := table.factories.push { container := container } } := .of_get? rfl
        exact extended.trans
          (.update _ (fun symbol _ => .of_eq rfl rfl rfl rfl) fun _ => rfl)
  | openTemplate factory unit => exact apart.settle fun _ _ opened => apart.openTemplate opened
  | addParameter template request =>
      apply apart.settle
      intro parameter after added
      obtain ⟨extended, declared, rfl⟩ := addParameter_ok added
      exact (apart.declare declared).within
        (.update extended (fun symbol _ => .mapTemplate symbol _) fun _ => rfl)
        fun _ => List.suffix_refl _
  | declareTemplated factory target request => exact apart.declareTemplated factory target request
  | popFrame factory => exact apart.within (.of_get? rfl) (table.stacksWithin_popFrame factory)
  | discardFrames factory template =>
      exact apart.within (.of_get? rfl) (table.stacksWithin_discardTemplate factory template)

end PlainApart

/-- Tables reached from the empty one by operations none of which moves a symbol on its own.
Nothing else is asked of them: they may be refused, and requests may be of any kind. -/
inductive ReachedUnmoved : SymbolTable → Prop
  | empty : ReachedUnmoved .empty
  | perform {table : SymbolTable} {operation : TableOperation} (reached : ReachedUnmoved table)
      (stays : ∀ id scope, operation ≠ .move id scope) : ReachedUnmoved (table.perform operation)

theorem ReachedUnmoved.plainApart (reached : table.ReachedUnmoved) : table.PlainApart := by
  induction reached with
  | empty =>
      refine ⟨?_, ?_, ?_⟩
      · intro factory template member
        simp [stackOf, factory?, SymbolTable.empty] at member
      · intro scope name _ id member
        simp [entries_empty] at member
      · intro scope name _ first member
        simp [entries_empty] at member
  | perform _ stays apart => exact apart.perform stays

/-! ## What may share a name -/

end SymbolTable

/-- How two declarations of one name stand to each other if none of them is a template or an
explicit specialization. -/
structure Symbol.SharesName (one other : Symbol) : Prop where
  tags : one.kind.nameClass = .tag → other.kind.nameClass = .tag →
    one.defined = true → other.defined = true → one.unit ≠ other.unit
  objects : one.kind.nameClass = .object → other.kind.nameClass = .object →
    one.defined = true → other.defined = true → one.unit ≠ other.unit
  others : one.kind.nameClass = .other → other.kind.nameClass = .other → one.unit ≠ other.unit
  unmixed : one.kind.nameClass ∈ [NameClass.function, .object, .other] →
    other.kind.nameClass ∈ [NameClass.function, .object, .other] →
      one.kind.nameClass = other.kind.nameClass
  namespaces : one.kind.nameClass = .namespaceName ↔ other.kind.nameClass = .namespaceName

namespace SymbolTable

variable {table : SymbolTable}

/-- The group of a symbol that is no template is that of its kind. -/
theorem nameClass_ofSymbol_of_plain (table : SymbolTable) {symbol : Symbol}
    (plain : symbol.isTemplate = false) :
    (Profile.ofSymbol table symbol).nameClass = symbol.kind.nameClass := by
  unfold Profile.ofSymbol
  cases known : symbol.kind with
  | template info => simp [Symbol.isTemplate, known, SymbolKind.templateInfo?] at plain
  | _ => rfl

theorem sharesName_of_not_conflicts {one other : Symbol} (plain : one.isTemplate = false)
    (plainOther : other.isTemplate = false) (general : one.specialization = false)
    (generalOther : other.specialization = false)
    (apart : (Profile.ofSymbol table one).conflicts (Profile.ofSymbol table other) = false) :
    one.SharesName other := by
  have group := nameClass_ofSymbol_of_plain table plain
  have groupOther := nameClass_ofSymbol_of_plain table plainOther
  unfold Profile.conflicts at apart
  rw [group, groupOther] at apart
  simp only [Profile.ofSymbol, plain, plainOther, general, generalOther] at apart
  constructor <;>
    cases known : one.kind.nameClass <;> cases knownOther : other.kind.nameClass <;>
      simp_all

/-- However a table was reached without moving symbols on their own: in a scope that is no
template, no two entries of a name that are no templates stand in each other's way.  If none is
an explicit specialization either, each unit defines one class or enum of the name and one
variable at most, and declares one other entity at most; functions, variables and other entities
do not share a name, and namespaces share theirs with namespaces only. -/
theorem plain_entries_apart (reached : table.ReachedUnmoved) {scope : SymbolId}
    (around : table.isTemplate scope = false) {name : String} {first second : SymbolId}
    (member : first ∈ table.entries scope name)
    (memberOther : second ∈ table.entries scope name) (different : first ≠ second)
    (plain : table.isTemplate first = false) (plainOther : table.isTemplate second = false) :
    ∃ one other, table.get? first = some one ∧ table.get? second = some other ∧
      (Profile.ofSymbol table one).conflicts (Profile.ofSymbol table other) = false ∧
      (one.specialization = false → other.specialization = false → one.SharesName other) := by
  have apart := reached.plainApart
  obtain ⟨one, found⟩ :=
    Option.isSome_iff_exists.1 (apart.present scope name around first member)
  obtain ⟨other, there⟩ :=
    Option.isSome_iff_exists.1 (apart.present scope name around second memberOther)
  have plainOne : one.isTemplate = false := by simpa [isTemplate, found] using plain
  have plainOther : other.isTemplate = false := by simpa [isTemplate, there] using plainOther
  have clear : (Profile.ofSymbol table one).conflicts (Profile.ofSymbol table other) = false := by
    apply Bool.eq_false_iff.2
    intro clash
    exact apart.apart scope name around first member second memberOther different
      ⟨one, other, found, there, plainOne, plainOther, clash⟩
  exact ⟨one, other, found, there, clear, fun general generalOther =>
    sharesName_of_not_conflicts plainOne plainOther general generalOther clear⟩

/-- Two units define a class of one name, and a function template joins them. -/
theorem plain_entries_apart_units :
    let operations := ([
      .declare root { name := "S", kind := .classType .structKey, unit := some ⟨0⟩ },
      .declare root { name := "S", kind := .classType .structKey, unit := some ⟨1⟩ },
      .factoryFor root, .openTemplate ⟨0⟩ (some ⟨1⟩),
      .declareTemplated ⟨0⟩ root { name := "S", kind := .function, unit := some ⟨1⟩ }] :
        List TableOperation)
    let table := operations.foldl SymbolTable.perform .empty
    table.entries root "S" = [⟨1⟩, ⟨2⟩, ⟨3⟩] ∧
      ∃ one other, table.get? ⟨1⟩ = some one ∧ table.get? ⟨2⟩ = some other ∧
        (Profile.ofSymbol table one).conflicts (Profile.ofSymbol table other) = false ∧
        (one.specialization = false → other.specialization = false → one.SharesName other) := by
  intro operations table
  have reached : table.ReachedUnmoved := by
    simp only [table, operations, List.foldl_cons, List.foldl_nil]
    refine .perform (.perform (.perform (.perform (.perform .empty ?_) ?_) ?_) ?_) ?_
    all_goals nofun
  have first : ⟨1⟩ ∈ table.entries root "S" := by decide
  have second : ⟨2⟩ ∈ table.entries root "S" := by decide
  exact ⟨by decide, plain_entries_apart reached (by decide) first second (by decide) (by decide)
    (by decide)⟩

end SymbolTable

end DeclTree
