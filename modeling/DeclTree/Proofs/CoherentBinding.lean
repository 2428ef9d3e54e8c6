import DeclTree.Proofs.CoherentParse

/-!
# Building blocks that keep scopes coherent

How parts of a parse that keep its scopes coherent are put together, and what the building blocks
do: reading, reporting, entering and leaving a scope, declaring a symbol, and starting and
finishing its node.
-/

namespace DeclTree

namespace ParseM

/-- A part of a parse that keeps its scopes coherent, also where it is refused. -/
abbrev Acts {α : Type} (strict : Prop) (parse : ParseM α) (state : ParseState)
    (result : α → ParseState → Prop) : Prop :=
  Meets parse state (fun value next => state.Continues strict next ∧ result value next)
    fun error next => state.Continues strict next ∧ error.Tame strict

/-- A part that does so and is never refused. -/
abbrev Settles {α : Type} (strict : Prop) (parse : ParseM α) (state : ParseState)
    (result : α → ParseState → Prop) : Prop :=
  Meets parse state (fun value next => state.Continues strict next ∧ result value next)
    fun _ _ => False

section Rules

variable {α β : Type} {strict : Prop} {state : ParseState}

/-- The rest of a parse, from behind a part of it. -/
theorem Acts.behind {parse : ParseM α} {next : ParseState} {result : α → ParseState → Prop}
    (acts : Acts strict parse next result) (continues : state.Continues strict next) :
    Meets parse next (fun value last => state.Continues strict last ∧ result value last)
      fun error last => state.Continues strict last ∧ error.Tame strict :=
  Meets.mono acts (fun _ _ reached => ⟨continues.trans reached.1, reached.2⟩)
    fun _ _ refused => ⟨continues.trans refused.1, refused.2⟩

theorem Acts.bind {first : ParseM α} {rest : α → ParseM β} {middle : α → ParseState → Prop}
    {result : β → ParseState → Prop} (acts : Acts strict first state middle)
    (continued : ∀ value next, state.Continues strict next → middle value next →
      Acts strict (rest value) next result) : Acts strict (first >>= rest) state result := by
  apply Meets.bind acts
  rintro value next ⟨continues, reached⟩
  exact (continued value next continues reached).behind continues

theorem Settles.acts {parse : ParseM α} {result : α → ParseState → Prop}
    (settles : Settles strict parse state result) : Acts strict parse state result :=
  settles.mono (fun _ _ reached => reached) fun _ _ refused => refused.elim

theorem Settles.bind {first : ParseM α} {rest : α → ParseM β} {middle : α → ParseState → Prop}
    {result : β → ParseState → Prop} (settles : Settles strict first state middle)
    (continued : ∀ value next, state.Continues strict next → middle value next →
      Settles strict (rest value) next result) : Settles strict (first >>= rest) state result := by
  apply Meets.bind settles
  rintro value next ⟨continues, reached⟩
  exact (continued value next continues reached).mono
    (fun _ _ further => ⟨continues.trans further.1, further.2⟩) fun _ _ refused => refused

theorem Acts.imp {parse : ParseM α} {result result' : α → ParseState → Prop}
    (acts : Acts strict parse state result)
    (implies : ∀ value next, state.Continues strict next → result value next →
      result' value next) : Acts strict parse state result' :=
  Meets.mono acts (fun value next reached => ⟨reached.1, implies value next reached.1 reached.2⟩)
    fun _ _ refused => refused

theorem settles_pure {value : α} {result : α → ParseState → Prop} (fits : state.Fits strict)
    (holds : result value state) : Settles strict (pure value) state result :=
  ⟨fits.refl, holds⟩

theorem acts_pure {value : α} {result : α → ParseState → Prop} (fits : state.Fits strict)
    (holds : result value state) : Acts strict (pure value) state result :=
  ⟨fits.refl, holds⟩

theorem acts_refuse {complaint : Complaint} {span : Span} {result : α → ParseState → Prop}
    (fits : state.Fits strict) (ordinary : complaint.kind ≠ .internalError) :
    Acts strict (refuse complaint span) state result :=
  ⟨fits.refl, ParseError.tame_of_ne ordinary⟩

/-- A part that is taken up again yields what it yields, or an error that may be reported. -/
theorem Acts.attempt {parse : ParseM α} {result : α → ParseState → Prop}
    (acts : Acts strict parse state result) :
    Settles strict (attempt parse) state fun outcome next =>
      (∀ value, outcome = .ok value → result value next) ∧
        ∀ error, outcome = .error error → error.Tame strict := by
  apply (Meets.attempt acts).mono
  · rintro outcome next ⟨accepted, refused⟩
    cases outcome with
    | ok value =>
        obtain ⟨continues, holds⟩ := accepted value rfl
        exact ⟨continues, by rintro _ ⟨⟩; exact holds, by simp⟩
    | error error =>
        obtain ⟨continues, tame⟩ := refused error rfl
        exact ⟨continues, by simp, by rintro _ ⟨⟩; exact tame⟩
  · intro _ _ refused
    exact refused

theorem acts_resume {outcome : Except ParseError α} (fits : state.Fits strict)
    (tame : ∀ error, outcome = .error error → error.Tame strict)
    {result : α → ParseState → Prop} (holds : ∀ value, outcome = .ok value → result value state) :
    Acts strict (resume outcome) state result := by
  cases outcome with
  | ok value => exact acts_pure fits (holds value rfl)
  | error error => exact ⟨fits.refl, tame error rfl⟩

/-- A loop each round of which keeps what the next one needs. -/
theorem acts_iterate {step : α → ParseM (Step α β)} {start : α}
    (keeps : α → ParseState → Prop) {result : β → ParseState → Prop} (fits : state.Fits strict)
    (kept : keeps start state)
    (round : ∀ value next, state.Continues strict next → keeps value next →
      Acts strict (step value) next fun outcome after => outcome.Keeps keeps result after) :
    Acts strict (iterate step start) state result := by
  apply meets_iterate (fun value next => state.Continues strict next ∧ keeps value next)
    ⟨fits.refl, kept⟩
  rintro value next ⟨continues, still⟩
  apply ((round value next continues still).behind continues).mono
  · rintro outcome after ⟨further, holds⟩
    cases outcome with
    | again following => exact ⟨further, holds⟩
    | done final => exact ⟨further, holds⟩
  · intro _ _ refused
    exact refused

/-! ## Reading -/

theorem OnlyReads.acts {parse : ParseM α} (reads : OnlyReads parse) (fits : state.Fits strict) :
    Acts strict parse state fun _ next => state.Reads next := by
  have read := reads.leads state
  have ordinary := reads.ordinary state
  unfold Leads Meets at read
  unfold Acts Meets
  split
  · rename_i value next run
    rw [run] at read
    exact ⟨read.continues fits, read⟩
  · rename_i error next run
    rw [run] at read
    exact ⟨read.continues fits, ParseError.tame_of_ne (ordinary error next run)⟩
  · trivial

/-- A part that only reads keeps a parse quiet. -/
theorem OnlyReads.acts_quiet {parse : ParseM α} (reads : OnlyReads parse)
    (fits : state.Fits strict) (quiet : state.Quiet strict) :
    Acts strict parse state fun _ next => next.Quiet strict :=
  (reads.acts fits).imp fun _ _ _ read => quiet.reads read

/-- A part that only reads, with what it leads to besides. -/
theorem OnlyReads.acts_leads {parse : ParseM α} (reads : OnlyReads parse)
    (fits : state.Fits strict) {result : α → ParseState → Prop}
    (leads : Leads parse state result fun _ => True) :
    Acts strict parse state fun value next => state.Reads next ∧ result value next :=
  (Meets.and (reads.acts fits) leads).mono
    (fun _ _ reached => ⟨reached.1.1, reached.1.2, reached.2⟩) fun _ _ refused => refused.1

theorem settles_of_leads {parse : ParseM α} (fits : state.Fits strict)
    (leads : Leads parse state (fun _ next => state.Reads next) fun _ => False) :
    Settles strict parse state fun _ next => state.Reads next :=
  Meets.mono leads (fun _ _ read => ⟨read.continues fits, read⟩) fun _ _ refused => refused

theorem settles_synchronize (fits : state.Fits strict) :
    Settles strict synchronize state fun _ next => state.Reads next :=
  settles_of_leads fits (leads_unread.2 ((leads_skip _ _).imp fun _ _ skipped => skipped.1))

theorem settles_eat (fits : state.Fits strict) (kind : TokenKind) :
    Settles strict (eat kind) state fun _ next => state.Reads next := by
  apply settles_of_leads fits
  rw [← bind_pure (eat kind)]
  apply leads_eat
  · intro _
    exact state.reads_next
  · intro _
    exact .refl state

/-- A token that has to be there is read. -/
theorem acts_expect (fits : state.Fits strict) (kind : TokenKind) :
    Acts strict (expect kind) state fun _ next =>
      state.cursor.peek.kind = kind ∧ next = state.next := by
  by_cases same : state.cursor.peek.kind = kind
  · unfold Acts Meets
    rw [expect_of_eq same]
    exact ⟨state.reads_next.continues fits, same, rfl⟩
  · change Meets (if state.cursor.peek.kind = kind then advance else _ : ParseM Token) state _ _
    rw [if_neg same]
    split
    · exact acts_refuse fits (by simp)
    · exact acts_refuse fits (by simp)

end Rules

/-! ## Looking at the state -/

section Readers

variable {β : Type} {state : ParseState} {accept : β → ParseState → Prop}
  {refusal : ParseError → ParseState → Prop}

@[simp] theorem meets_get {rest : ParseState → ParseM β} :
    Meets (get >>= rest) state accept refusal ↔ Meets (rest state) state accept refusal :=
  Iff.rfl

@[simp] theorem meets_peek {rest : Token → ParseM β} :
    Meets (peek >>= rest) state accept refusal ↔
      Meets (rest state.cursor.peek) state accept refusal :=
  Iff.rfl

@[simp] theorem meets_ahead {distance : Nat} {rest : Token → ParseM β} :
    Meets (ahead distance >>= rest) state accept refusal ↔
      Meets (rest (state.cursor.ahead distance)) state accept refusal :=
  Iff.rfl

@[simp] theorem meets_check {kind : TokenKind} {rest : Bool → ParseM β} :
    Meets (check kind >>= rest) state accept refusal ↔
      Meets (rest (state.cursor.peek.kind == kind)) state accept refusal :=
  Iff.rfl

@[simp] theorem meets_checkAhead {distance : Nat} {kind : TokenKind} {rest : Bool → ParseM β} :
    Meets (checkAhead distance kind >>= rest) state accept refusal ↔
      Meets (rest ((state.cursor.ahead distance).kind == kind)) state accept refusal :=
  Iff.rfl

@[simp] theorem meets_unread {rest : List Token → ParseM β} :
    Meets (unread >>= rest) state accept refusal ↔
      Meets (rest state.cursor.unread) state accept refusal :=
  Iff.rfl

@[simp] theorem meets_checkWord {word : String} {rest : Bool → ParseM β} :
    Meets (checkWord word >>= rest) state accept refusal ↔
      Meets (rest (state.cursor.peek.kind == .identifier && state.cursor.peek.lexeme == word))
        state accept refusal :=
  Iff.rfl

@[simp] theorem meets_frame {rest : ScopeFrame → ParseM β} :
    Meets (frame >>= rest) state accept refusal ↔
      Meets (rest state.scopes.inner) state accept refusal :=
  Iff.rfl

@[simp] theorem meets_lookupScope {rest : SymbolId → ParseM β} :
    Meets (lookupScope >>= rest) state accept refusal ↔
      Meets (rest state.scopes.inner.symbol) state accept refusal :=
  Iff.rfl

@[simp] theorem meets_unit {rest : UnitId → ParseM β} :
    Meets (unit >>= rest) state accept refusal ↔
      Meets (rest state.tree.unit) state accept refusal :=
  Iff.rfl

@[simp] theorem meets_table {rest : SymbolTable → ParseM β} :
    Meets (table >>= rest) state accept refusal ↔ Meets (rest state.table) state accept refusal :=
  Iff.rfl

end Readers

/-! ## Notes and scopes -/

section Blocks

variable {α β : Type} {strict : Prop} {state : ParseState}

theorem settles_report (fits : state.Fits strict) {error : ParseError}
    (tame : error.Tame strict) : Settles strict (report error) state fun _ _ => True :=
  ⟨fits.report tame, trivial⟩

theorem settles_complain (fits : state.Fits strict) {complaint : Complaint}
    (ordinary : complaint.kind ≠ .internalError) (span : Span) :
    Settles strict (complain complaint span) state fun _ _ => True :=
  settles_report fits (ParseError.tame_of_ne ordinary)

theorem settles_finishNode (fits : state.Fits strict) (node : NodeId) :
    Settles strict (finishNode node) state fun _ _ => True :=
  ⟨fits.finishNode node _, trivial⟩

theorem settles_finishNodeAt (fits : state.Fits strict) (node : NodeId) (last : Span) :
    Settles strict (finishNodeAt node last) state fun _ _ => True :=
  ⟨fits.finishNode node last, trivial⟩

/-- A node is finished, and then a part that was taken up goes on as it ended. -/
theorem acts_finishNode_resume (fits : state.Fits strict) (node : NodeId)
    {outcome : Except ParseError α} (tame : ∀ error, outcome = .error error → error.Tame strict) :
    Acts strict (do finishNode node; resume outcome) state fun _ _ => True := by
  apply (settles_finishNode fits node).acts.bind
  intro _ next continues _
  exact acts_resume continues.fits tame fun _ _ => trivial

theorem acts_finishNode_return (fits : state.Fits strict) (node : NodeId)
    {outcome : Except ParseError α} (tame : ∀ error, outcome = .error error → error.Tame strict)
    (value : β) :
    Acts strict (do finishNode node; let _ ← resume outcome; return value) state
      fun _ _ => True := by
  apply (settles_finishNode fits node).acts.bind
  intro _ next continues _
  have resumed : Acts strict (resume outcome) next fun _ _ => True :=
    acts_resume continues.fits tame fun _ _ => trivial
  apply resumed.bind
  intro _ last further _
  exact acts_pure further.fits trivial

/-- A scope that is no template is entered, and left behind its content. -/
theorem acts_scope {frame : ScopeFrame} (plain : frame.kind ≠ .template) {body : ParseM α}
    {rest : α → ParseM β} {middle : α → ParseState → Prop} {result : β → ParseState → Prop}
    (inner : Settles strict body (state.enter frame) middle)
    (continued : ∀ value next, state.Continues strict next.leave → middle value next →
      Acts strict (rest value) next.leave result) :
    Acts strict (do
      pushScope frame
      let value ← body
      popScope
      rest value) state result := by
  change Meets (body >>= fun value => popScope >>= fun _ => rest value) (state.enter frame) _ _
  have allowed : Meets body (state.enter frame)
      (fun value next => (state.enter frame).Continues strict next ∧ middle value next)
      fun error next => state.Continues strict next ∧ error.Tame strict :=
    inner.mono (fun _ _ reached => reached) fun _ _ refused => refused.elim
  apply allowed.bind
  rintro value next ⟨continues, reached⟩
  have outside := continues.leave plain
  exact (continued value next outside reached).behind outside

/-! ## The symbol table -/

theorem meets_changeTable {span : Span}
    {change : SymbolTable → Except SymbolError (α × SymbolTable)} :
    Meets (changeTable span change) state
      (fun value next => ∃ table, change state.table = .ok (value, table) ∧
        next = state.withTable table)
      fun error next => ∃ cause, change state.table = .error cause ∧
        error = (Complaint.symbol cause).locate span ∧ next = state := by
  unfold changeTable
  simp only [meets_table]
  split
  · rename_i value table done
    exact ⟨table, done, rfl⟩
  · rename_i cause refused
    exact ⟨cause, refused, rfl, rfl⟩

/-- An operation on the table that adds something or is refused on account of the source. -/
theorem acts_changeTable (fits : state.Fits strict) {span : Span}
    {change : SymbolTable → Except SymbolError (α × SymbolTable)} (operation : TableOperation)
    (admitted : state.table.Admits operation)
    (performed : state.table.perform operation = state.table.settle (change state.table))
    (retains : ∀ value table, change state.table = .ok (value, table) →
      state.table.Retains table)
    (ordinary : ∀ error, change state.table = .error error →
      error.parseKind ≠ .internalError) :
    Acts strict (changeTable span change) state fun value next => ∃ table,
      change state.table = .ok (value, table) ∧ next = state.withTable table := by
  apply meets_changeTable.mono
  · rintro value _ ⟨table, done, rfl⟩
    have reached := fits.coherent.orderly.reachable.perform admitted
    rw [performed, settle_eq done] at reached
    exact ⟨fits.withTable (retains value table done) reached, table, done, rfl⟩
  · rintro _ _ ⟨cause, refused, rfl, rfl⟩
    exact ⟨fits.refl, ParseError.tame_of_ne (ordinary cause refused)⟩

/-- A symbol is declared in a scope that is known. -/
theorem acts_declareIn (fits : state.Fits strict) {request : SymbolRequest}
    (plain : request.kind.templateInfo? = none) (scope : SymbolId) (span : Span) :
    Acts strict (changeTable span fun table => table.declare scope request) state
      fun symbol next => ∃ table, state.table.declare scope request = .ok (symbol, table) ∧
        next = state.withTable table :=
  acts_changeTable fits (.declare scope request) plain rfl
    (fun _ _ done => .declare plain done)
    fun _ refused => SymbolTable.parseKind_of_declare refused

/-- What may go wrong with a declaration behind template prefixes goes wrong in a parse that is not
strict. -/
theorem nestable_of_quiet (fits : state.Fits strict) (quiet : state.Quiet strict)
    {factory : FactoryId} {container : SymbolId}
    (target : state.scopes.inner.target = .template factory container) (strictly : strict)
    {qualifier : Option SymbolId}
    (proper : state.table.Clear qualifier)
    (scope : state.table.HasScope (qualifier.getD container)) :
    state.table.Nestable (state.table.stackOf factory ++ [qualifier.getD container]) := by
  have orderly := fits.coherent.orderly
  have home := (fits.seated_inner.target factory container target).1
  cases qualifier with
  | none => exact orderly.reachable.consistent.tree.nestable (orderly.owners factory container home)
  | some named =>
      have free := ((quiet strictly).2 factory container target).2
      exact free.nestable orderly home scope (proper named rfl factory)

/-- A declaration behind template prefixes. -/
theorem acts_declareTemplated (fits : state.Fits strict) (quiet : state.Quiet strict)
    {factory : FactoryId} {container : SymbolId}
    (target : state.scopes.inner.target = .template factory container)
    {request : SymbolRequest} (plain : request.kind.templateInfo? = none)
    (noScope : request.kind ≠ .namespaceScope) {qualifier : Option SymbolId}
    (proper : state.table.Clear qualifier)
    (span : Span) :
    Acts strict (do
      let before ← table
      setTable (before.declareTemplated factory (qualifier.getD container) request).2
      match (before.declareTemplated factory (qualifier.getD container) request).1 with
      | .ok symbol =>
          modify fun state => { state with scopes := state.scopes.consume }
          return symbol
      | .error error => refuse (.symbol error) span) state
      fun symbol next => next.Awaits symbol ∧ next.Aside := by
  have orderly := fits.coherent.orderly
  have home := (fits.seated_inner.target factory container target).1
  have chained := (List.isChain_append.1 (orderly.owners factory container home)).1
  have admitted : state.table.Admits
      (.declareTemplated factory (qualifier.getD container) request) := plain
  have reached := orderly.reachable.perform admitted
  simp only [meets_table]
  rcases orderly.reachable.declareTemplated_outcome factory (qualifier.getD container) plain
    chained with ⟨error, refused, internal⟩ | ⟨innermost, outer, stack, _, wraps, result⟩
  · rw [refused]
    refine ⟨fits.refl, ?_⟩
    intro kind
    obtain ⟨rfl, empty⟩ := internal kind
    refine ⟨fun strictly => ?_, .emptyFactoryStack, span, .inl rfl, rfl⟩
    exact ((quiet strictly).2 factory container target).2.opened empty
  · have enclosed := wraps.enclosed orderly.reachable stack plain noScope
    rw [← stack] at enclosed
    generalize changed : state.table.declareTemplated factory (qualifier.getD container) request =
      outcome at wraps result enclosed
    obtain ⟨outcome, after⟩ := outcome
    have reachedAfter : after.Reachable := by
      have performed : state.table.perform
          (.declareTemplated factory (qualifier.getD container) request) = after := by
        simp only [SymbolTable.perform, changed]
      rwa [performed] at reached
    rcases result with rfl | ⟨text, rfl, scope, entangled⟩
    · refine ⟨fits.consumed target enclosed reachedAfter,
        fits.awaits_enclosed target enclosed stack, ?_⟩
      intro other scope leads
      have consumed : state.scopes.consume.inner.target = .consumed := by
        rw [ScopeStack.consume, if_pos (fits.inner_isTemplate target)]
      cases consumed.symm.trans leads
    · refine ⟨fits.withEnclosed enclosed reachedAfter, ?_⟩
      intro _
      refine ⟨fun strictly => entangled ?_, .cyclicScope text, span, .inr ⟨text, rfl⟩, rfl⟩
      rw [← stack]
      exact nestable_of_quiet fits quiet target strictly proper scope

/-- A declaration awaits its node, and no further one goes through the open templates. -/
theorem acts_declare (fits : state.Fits strict) (quiet : state.Quiet strict)
    {request : SymbolRequest} (plain : request.kind.templateInfo? = none)
    (noScope : request.kind ≠ .namespaceScope) {qualifier : Option SymbolId}
    (proper : state.table.Clear qualifier)
    (span : Span) :
    Acts strict (declare request qualifier span) state
      fun symbol next => next.Awaits symbol ∧ next.Aside := by
  unfold declare
  simp only [meets_unit, meets_frame]
  let given : SymbolRequest := { request with unit := some state.tree.unit }
  have plainGiven : given.kind.templateInfo? = none := plain
  split
  · rename_i target
    apply (acts_declareIn fits plainGiven _ span).imp
    rintro symbol _ _ ⟨table, done, rfl⟩
    refine ⟨fits.awaits_declare target plainGiven done, ?_⟩
    intro factory container leads
    cases target.symm.trans leads
  · rename_i factory container target
    exact acts_declareTemplated fits quiet target plainGiven noScope proper span
  · exact acts_refuse fits (by simp)

/-! ## Qualifiers -/

theorem acts_resolveScope (fits : state.Fits strict) (segments : List String) (isGlobal : Bool)
    (span : Span) : Acts strict (resolveScope segments isGlobal span) state fun scope next =>
      state.Reads next ∧ next.table.Clear (some scope) := by
  unfold resolveScope
  simp only [meets_table, meets_lookupScope]
  split
  · rename_i error refused
    have unresolved := SymbolTable.parseKind_of_lookupQualified refused
    exact acts_refuse fits (by simp [Complaint.kind, unresolved])
  · rename_i named _
    split
    · rename_i scope found
      exact acts_pure fits ⟨.refl state, fits.coherent.orderly.reachable.clear_scopeOf found⟩
    · exact acts_refuse fits (by simp [Complaint.kind, SymbolError.parseKind])

theorem acts_pathScope (fits : state.Fits strict) (path : NamePath) :
    Acts strict (pathScope path) state fun qualifier next =>
      state.Reads next ∧ next.table.Clear qualifier := by
  unfold pathScope
  split
  · apply (acts_resolveScope fits path.qualifier path.isGlobal path.span).bind
    rintro scope next continues ⟨reads, clear⟩
    exact acts_pure continues.fits ⟨reads, clear⟩
  · split
    · exact acts_pure fits ⟨.refl state, fits.coherent.orderly.reachable.clear_root⟩
    · exact acts_pure fits ⟨.refl state, SymbolTable.clear_none⟩

theorem acts_tagPlace (fits : state.Fits strict) (path : Option NamePath) (key : Token) :
    Acts strict (tagPlace path key) state fun place next =>
      state.Reads next ∧ next.table.Clear place.1 := by
  unfold tagPlace
  split
  · apply (acts_pathScope fits _).bind
    rintro scope next continues ⟨reads, clear⟩
    exact acts_pure continues.fits ⟨reads, clear⟩
  · exact acts_pure fits ⟨.refl state, SymbolTable.clear_none⟩

theorem acts_qualifierScope (fits : state.Fits strict) (id : DeclaratorId) :
    Acts strict (qualifierScope id) state fun qualifier next =>
      state.Reads next ∧ next.table.Clear qualifier := by
  unfold qualifierScope
  split
  · exact acts_pure fits ⟨.refl state, SymbolTable.clear_none⟩
  · split
    · exact acts_pure fits ⟨.refl state, fits.coherent.orderly.reachable.clear_root⟩
    · apply (acts_resolveScope fits _ _ id.span).bind
      rintro scope next continues ⟨reads, clear⟩
      exact acts_pure continues.fits ⟨reads, clear⟩

/-! ## Nodes -/

theorem acts_addNodeUnder {parent : NodeId} {kind : NodeKind} {start : Span}
    {result : NodeId → ParseState → Prop} (present : state.tree.Has parent)
    (reached : state.Continues strict (state.addNode parent kind start).2 ∧
      result (state.addNode parent kind start).1 (state.addNode parent kind start).2) :
    Acts strict (addNodeUnder parent kind start) state result := by
  unfold Acts Meets
  rw [addNodeUnder_eq present]
  exact reached

/-- A node inside one that is no template, for a symbol that no template wraps. -/
theorem acts_addInner (fits : state.Fits strict) {parent : NodeId}
    (around : state.tree.Plain parent) {kind : NodeKind} (plain : kind.templateDecl? = none)
    (unwrapped : ∀ symbol template, kind.symbol? = some symbol →
      state.table.templated? template ≠ some symbol) (start : Span) :
    Acts strict (addNodeUnder parent kind start) state fun _ _ => True := by
  have present : state.tree.Has parent := by
    obtain ⟨other, found, _⟩ := around
    exact state.tree.has_of_kindAt found
  exact acts_addNodeUnder present ⟨fits.addNode_plain around plain unwrapped start, trivial⟩

theorem unwrapped_of_declare {table after : SymbolTable} (orderly : table.Orderly)
    {request : SymbolRequest} (plain : request.kind.templateInfo? = none)
    {scope symbol : SymbolId} (done : table.declare scope request = .ok (symbol, after))
    (template : SymbolId) : after.templated? template ≠ some symbol := by
  have retains := SymbolTable.Retains.declare plain done
  obtain ⟨_, attached⟩ := SymbolTable.attach_of_declare done
  obtain ⟨rfl, rfl⟩ := Prod.mk.inj attached
  exact ParseState.unwrapped_fresh orderly retains template

/-- The node of a declaration. -/
theorem acts_addEntity (fits : state.Fits strict) {symbol : SymbolId}
    (awaits : state.Awaits symbol) {kind : NodeKind} (entity : kind.isEntity = true)
    (same : kind.symbol? = some symbol) (start : Span) :
    Acts strict (addNode kind start) state fun node next =>
      next.Placed node symbol := by
  unfold addNode
  simp only [meets_frame]
  exact acts_addNodeUnder fits.seated_inner.has_node (fits.addEntity awaits entity same start)

/-- A symbol is declared and gets its node; what follows does not go through the open templates. -/
theorem acts_entity {β : Type} (fits : state.Fits strict) (quiet : state.Quiet strict)
    {request : SymbolRequest} (plain : request.kind.templateInfo? = none)
    (noScope : request.kind ≠ .namespaceScope) {qualifier : Option SymbolId}
    (proper : state.table.Clear qualifier) {span start : Span} {kind : SymbolId → NodeKind}
    (entity : ∀ symbol, (kind symbol).isEntity = true)
    (same : ∀ symbol, (kind symbol).symbol? = some symbol) {rest : SymbolId → NodeId → ParseM β}
    (continued : ∀ symbol node next, state.Continues strict next → next.Quiet strict →
      next.Placed node symbol → Acts strict (rest symbol node) next fun _ _ => True) :
    Acts strict (do
      let symbol ← declare request qualifier span
      let node ← addNode (kind symbol) start
      rest symbol node) state fun _ next => next.Quiet strict := by
  apply (acts_declare fits quiet plain noScope proper span).bind
  rintro symbol first declares ⟨awaits, aside⟩
  have quietFirst := quiet.of_aside declares.moves aside
  have placed : Acts strict (do
      let node ← addNode (kind symbol) start
      rest symbol node) first fun _ _ => True := by
    apply (acts_addEntity declares.fits awaits (entity symbol) (same symbol) start).bind
    intro node second adds placed
    exact continued symbol node second (declares.trans adds) (quietFirst.continues aside adds)
      placed
  exact placed.imp fun _ _ further _ => quietFirst.continues aside further

end Blocks

end ParseM

end DeclTree
