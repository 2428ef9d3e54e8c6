import DeclTree.Proofs.CoherentSpecifiers

/-!
# Templates keep scopes coherent

A template prefix opens a frame and a scope, and its node receives the parameters and the
declaration behind the prefix.  When the scope is left, a frame that is still open is given up,
and the node is bound to the last declaration in it.
-/

namespace DeclTree

namespace ParseState

variable {strict : Prop} {state next : ParseState} {opened : SymbolTable}
  {declaration : TemplateDecl} {factory : FactoryId} {container : SymbolId}

/-! ## Opening a template -/

/-- The state behind a template prefix, from the table in which the template is open. -/
def headed (state : ParseState) (opened : SymbolTable) (declaration : TemplateDecl)
    (factory : FactoryId) (container : SymbolId) (start : Span) : ParseState :=
  { state with
    tree := (state.tree.add (.template declaration) state.scopes.inner.node start).2
    table := opened.recorded (.template declaration) (state.tree.ref ⟨state.tree.size⟩)
    scopes := state.scopes.push
      ⟨⟨state.tree.size⟩, declaration.template, .template factory container, .template⟩ }

section Opening

variable (fits : state.Fits strict)
  (offers : state.scopes.inner.Offers state.table factory container)
  {unit : Option UnitId}
  (opens : state.table.openTemplate factory unit = .ok (declaration.template, opened))
include fits offers opens

/-- A template prefix opens a frame, a node and a scope. -/
theorem Fits.headed (phase : declaration.phase = .opened) (owned : declaration.owned = none)
    (start : Span) : (state.headed opened declaration factory container start).Fits strict := by
  have admitted : state.table.Admits (.openTemplate factory unit) := trivial
  have reached := fits.coherent.orderly.reachable.perform admitted
  have performed : state.table.perform (.openTemplate factory unit) = opened :=
    ParseM.settle_eq opens
  rw [performed] at reached
  have recorded : ((state.withTable opened).table.recorded (.template declaration)
      ((state.withTable opened).tree.ref ⟨state.tree.size⟩)).Reachable :=
    reachable_recorded reached state.scopes.inner.node (.template declaration) start
  exact ⟨fits.cursor, fits.coherent.openTemplate offers opens phase owned reached start recorded,
    fits.tame⟩

/-- Behind a prefix a parse is quiet, if the prefix is not open where a block of exported
declarations starts and the templates right in front of it are free. -/
theorem Fits.quiet_headed
    (free : strict → ¬ Heralds state.cursor.unread ∧ ¬ ClosesOnBlock state.cursor.unread ∧
      (state.table.stackOf factory = [] ∨ state.table.Free factory)) (start : Span) :
    (state.headed opened declaration factory container start).Quiet strict := by
  have orderly := fits.coherent.orderly
  have facts := orderly.opened offers.home opens
  intro strictly
  obtain ⟨noHerald, clear, before⟩ := free strictly
  refine ⟨noHerald, ?_⟩
  rintro _ _ ⟨⟩
  have opened := facts.free orderly.reachable.consistent.tree before
  exact ⟨clear, opened.recorded (.template declaration) (state.tree.ref ⟨state.tree.size⟩)⟩

end Opening

/-! ## Leaving a template -/

/-- The scope of a template is left: if it is still open it is given up, and its node is
settled. -/
theorem Continues.close {start : Span}
    (continues : (state.headed opened declaration factory container start).Continues strict next)
    {later : Tree} {change : TemplateDecl → TemplateDecl}
    (amends : next.tree.Amends later ⟨state.tree.size⟩ change)
    (settles : ∀ declaration, next.tree.kindAt ⟨state.tree.size⟩ = some (.template declaration) →
      (change declaration).template = declaration.template ∧
        (change declaration).SettledIn next.tree ⟨state.tree.size⟩)
    {errors : Array ParseError} (tame : ∀ error ∈ errors, error.Tame strict) :
    state.Continues strict { next.leave with
      tree := later
      table := next.table.discardTemplate factory declaration.template
      errors := errors } := by
  have coherent := continues.fits.coherent
  obtain ⟨inner, remains, frames⟩ := exists_frames_leave continues.scopes
  rw [frames] at coherent
  have admitted : next.table.Admits (.discardFrames factory declaration.template) := trivial
  have reached := coherent.orderly.reachable.perform admitted
  have plain (id : NodeId) (before : state.tree.Plain id) : later.Plain id :=
    plain_of_amends amends (continues.plain id (plain_add before _ _ start))
  refine ⟨⟨continues.fits.cursor, ?_, tame⟩, continues.scopes.pop, continues.moves, plain⟩
  have leads : inner.target = .template factory container ∨ inner.target = .consumed := by
    rcases remains with rfl | ⟨_, rfl⟩
    · exact .inl rfl
    · exact .inr rfl
  rcases remains with rfl | ⟨_, rfl⟩
  · exact coherent.close rfl leads amends settles reached
  · exact coherent.close rfl leads amends settles reached

end ParseState

namespace ParseM

variable {strict : Prop} {state : ParseState} {rules : Rules}

/-! ## Parameters -/

/-- The node of a template parameter, inside the node of the innermost scope. -/
theorem acts_addTemplateParameter (fits : state.Fits strict) (quiet : state.Quiet strict)
    {parent : NodeId} (inner : state.scopes.inner.node = parent) {kind : NodeKind}
    (parameter : kind.isTemplateParameter = true)
    (unwrapped : ∀ symbol template, kind.symbol? = some symbol →
      state.table.templated? template ≠ some symbol) (start : Span) :
    Acts strict (addNodeUnder parent kind start) state fun _ next => next.Quiet strict := by
  subst inner
  have other : kind.isEntity = false ∧ kind.templateDecl? = none := by
    cases kind <;> simp_all [NodeKind.isEntity, NodeKind.templateDecl?,
      NodeKind.isTemplateParameter]
  have added := (fits.addOther other.2 other.1 unwrapped start).1
  refine acts_addNodeUnder fits.seated_inner.has_node ⟨added, ?_⟩
  rw [ParseState.addNode_eq]
  exact quiet.keep (.refl _) rfl fun _ free => free.recorded kind _

/-- A change of a template declaration that leaves what it owns. -/
theorem settles_amend (fits : state.Fits strict) (quiet : state.Quiet strict) (node : NodeId)
    (change : TemplateDecl → TemplateDecl)
    (same : ∀ declaration, (change declaration).template = declaration.template ∧
      (change declaration).phase = declaration.phase ∧
        (change declaration).owned = declaration.owned) :
    Settles strict (modify fun state =>
      { state with tree := state.tree.updateTemplate node change }) state
        fun _ next => next.Quiet strict := by
  have amends := Tree.Amends.updateTemplate state.tree node change
  refine ⟨⟨⟨fits.cursor, fits.coherent.amend amends same, fits.tame⟩, .refl _, .refl _,
    fun _ => ParseState.plain_of_amends amends⟩, quiet⟩

/-- The symbol of a template parameter, which no template wraps. -/
theorem acts_templateParameterSymbol (fits : state.Fits strict) (quiet : state.Quiet strict)
    (start : Span) (template : SymbolId) (name : String) (kind : ParameterKind) (unit : UnitId) :
    Acts strict (changeTable start fun table => table.addParameter template
      { name := name, kind := .templateParameter kind, unit := some unit }) state
        fun symbol next => next.Quiet strict ∧
          ∀ other, next.table.templated? other ≠ some symbol := by
  let request : SymbolRequest :=
    { name := name, kind := .templateParameter kind, unit := some unit }
  apply (acts_changeTable fits (.addParameter template request) rfl rfl
    (fun _ _ done => .addParameter rfl done)
    fun _ refused => SymbolTable.parseKind_of_addParameter refused).imp
  rintro symbol _ adds ⟨table, done, rfl⟩
  refine ⟨quiet.keep (.refl _) rfl fun _ free => free.addParameter rfl rfl done, ?_⟩
  intro other
  obtain ⟨_, declared, _⟩ := SymbolTable.addParameter_ok done
  obtain ⟨_, attached⟩ := SymbolTable.attach_of_declare declared
  rw [(Prod.mk.inj attached).1]
  exact ParseState.unwrapped_fresh fits.coherent.orderly (.addParameter rfl done) other

theorem acts_templateParameter (reads : rules.Reads) (fits : state.Fits strict)
    (quiet : state.Quiet strict) {node : NodeId} (inner : state.scopes.inner.node = node)
    (template : SymbolId) :
    Acts strict (templateParameter rules node template) state
      fun _ next => next.Quiet strict := by
  unfold templateParameter
  simp only [meets_peek]
  apply ((onlyReads_parameterHead reads).acts fits).bind
  intro head first continuesFirst readsFirst
  apply ((onlyReads_eat _).acts continuesFirst.fits).bind
  intro hasDefault second continuesSecond readsSecond
  have before := continuesFirst.trans continuesSecond
  have quietSecond := (quiet.reads readsFirst).reads readsSecond
  have rest (third : ParseState) (continues : state.Continues strict third)
      (quietThird : third.Quiet strict) : Acts strict (do
      let unit ← unit
      let symbol ← changeTable state.cursor.peek.span fun table =>
        table.addParameter template
          { name := head.name.getD "", kind := .templateParameter head.kind, unit := some unit }
      let parameter ← addNodeUnder node
        (.templateParameter ⟨head.name, head.kind, head.type, some symbol, hasDefault,
          head.isVariadic⟩) state.cursor.peek.span
      finishNode parameter
      modify fun state =>
        { state with
          tree := state.tree.updateTemplate node (TemplateDecl.addParameter · parameter) }) third
        fun _ next => next.Quiet strict := by
    simp only [meets_unit]
    apply (acts_templateParameterSymbol continues.fits quietThird _ template _ _ _).bind
    rintro symbol fourth adds ⟨quietFourth, unwrapped⟩
    have innerFourth := (continues.trans adds).scopes.node_inner.trans inner
    apply (acts_addTemplateParameter adds.fits quietFourth innerFourth rfl ?_ _).bind
    · intro parameter fifth continuesFifth quietFifth
      have finishes : Acts strict (finishNode parameter) fifth fun _ next => next.Quiet strict :=
        ⟨continuesFifth.fits.finishNode parameter _, quietFifth⟩
      apply finishes.bind
      intro _ last further quietLast
      exact (settles_amend further.fits quietLast node (TemplateDecl.addParameter · parameter)
        fun _ => ⟨rfl, rfl, rfl⟩).acts
    · rintro _ other ⟨⟩
      exact unwrapped other
  split
  · apply (onlyReads_skipParameterDefault.acts continuesSecond.fits).bind
    intro _ third continuesThird readsThird
    exact rest third (before.trans continuesThird) (quietSecond.reads readsThird)
  · exact rest second before quietSecond

/-- Behind its parameter list a template does not come to a block of exported declarations. -/
theorem acts_expectClosingAngle (fits : state.Fits strict) (quiet : state.Quiet strict) :
    Acts strict expectClosingAngle state
      fun _ next => next.Quiet strict ∧ next.Shut strict := by
  apply (onlyReads_expectClosingAngle.acts_leads fits leads_expectClosingAngle).imp
  rintro _ next _ ⟨reads, comes⟩
  refine ⟨quiet.reads reads, fun strictly factory container target behind => ?_⟩
  have scopes : next.scopes = state.scopes := by rw [reads.2]
  rw [scopes] at target
  exact ((quiet strictly).2 factory container target).1 (comes behind)

theorem acts_templateParameters (reads : rules.Reads) (fits : state.Fits strict)
    (quiet : state.Quiet strict) {node : NodeId} (inner : state.scopes.inner.node = node)
    (template : SymbolId) :
    Acts strict (templateParameters rules node template) state
      fun _ next => next.Quiet strict ∧ next.Shut strict := by
  apply ((onlyReads_expect _).acts fits).bind
  intro _ first continuesFirst readsFirst
  have quietFirst := quiet.reads readsFirst
  simp only [meets_check]
  split
  · exact acts_expectClosingAngle continuesFirst.fits quietFirst
  · have items : Acts strict (iterate (templateParameterItem rules node template) ()) first
        fun _ next => next.Quiet strict := by
      apply acts_iterate (fun _ next => next.Quiet strict) continuesFirst.fits quietFirst
      intro _ second continuesSecond quietSecond
      have innerSecond := (continuesFirst.trans continuesSecond).scopes.node_inner.trans inner
      apply (acts_templateParameter reads continuesSecond.fits quietSecond innerSecond
        template).bind
      intro _ third continuesThird quietThird
      apply (settles_eat continuesThird.fits _).acts.bind
      intro more last further readsLast
      split
      · exact acts_pure further.fits (quietThird.reads readsLast)
      · exact acts_pure further.fits (quietThird.reads readsLast)
    apply items.bind
    intro _ last further quietLast
    exact acts_expectClosingAngle further.fits quietLast

/-! ## The declaration behind the prefix -/

theorem acts_templatedDeclaration (coheres : rules.Coheres strict) (fits : state.Fits strict)
    (quiet : state.Quiet strict) (shut : state.Shut strict) :
    Acts strict (templatedDeclaration rules) state fun _ _ => True := by
  apply (onlyReads_skipConstraint.acts_leads fits (approaches_skipConstraint state)).bind
  rintro _ first continuesFirst ⟨readsFirst, comes⟩
  have quietFirst := quiet.reads readsFirst
  simp only [meets_peek]
  split
  · apply (coheres.templateDeclaration first _ false continuesFirst.fits quietFirst).bind
    intro _ last further _
    exact acts_pure further.fits trivial
  · split
    · apply (settles_synchronize continuesFirst.fits).acts.bind
      intro _ last further _
      exact acts_pure further.fits trivial
    · apply (coheres.declaration first continuesFirst.fits quietFirst
        (shut.reads readsFirst comes)).bind
      intro _ last further _
      exact acts_pure further.fits trivial

theorem acts_templateContent (coheres : rules.Coheres strict) (fits : state.Fits strict)
    (quiet : state.Quiet strict) {node : NodeId} (inner : state.scopes.inner.node = node)
    (template : SymbolId) :
    Acts strict (templateContent rules node template) state fun _ _ => True := by
  apply (acts_templateParameters coheres.toReads fits quiet inner template).bind
  rintro _ first continuesFirst ⟨quietFirst, shut⟩
  exact acts_templatedDeclaration coheres continuesFirst.fits quietFirst shut

/-! ## Opening a template -/

/-- A prefix opens a frame where the ones right in front of it do, and else in the factory of the
scope around it, in which no frame is open. -/
theorem acts_prefixFactory (fits : state.Fits strict) (quiet : state.Quiet strict) (span : Span) :
    Acts strict (prefixFactory span) state fun place next =>
      next.scopes.inner.Offers next.table place.1 place.2 ∧ next.cursor = state.cursor ∧
        (strict → next.table.stackOf place.1 = [] ∨ next.table.Free place.1) := by
  unfold prefixFactory
  simp only [meets_frame]
  split
  · rename_i factory container target
    obtain ⟨home, _⟩ := fits.seated_inner.target factory container target
    exact acts_pure fits ⟨⟨home, .inl target⟩, rfl, fun strictly =>
      .inr ((quiet strictly).2 factory container target).2⟩
  · rename_i elsewhere
    apply (acts_changeTable fits (.factoryFor state.scopes.inner.symbol) trivial rfl
      (fun _ _ done => .factoryFor done)
      fun _ refused => SymbolTable.parseKind_of_factoryFor refused).bind
    rintro factory _ continues ⟨table, done, rfl⟩
    have home := SymbolTable.homeOf_factoryFor fits.coherent.orderly.reachable.homed done
    exact acts_pure continues.fits ⟨⟨home, .inr ⟨rfl, elsewhere⟩⟩, rfl, fun _ =>
      .inl (continues.fits.coherent.stackOf_eq_nil home)⟩

/-! ## Leaving a template -/

/-- A template that is still open is given up. -/
theorem meets_discardPending (factory : FactoryId) (template : SymbolId) (start : Span)
    (parsed : Except ParseError Bool) {refusal : ParseError → ParseState → Prop} :
    Meets (discardPending factory template start parsed) state (fun _ next => ∃ errors,
      (∀ error ∈ errors, error ∈ state.errors ∨ error.kind ≠ .internalError) ∧
        next = { state with
          table := state.table.discardTemplate factory template
          errors := errors }) refusal := by
  unfold discardPending
  simp only [meets_table]
  split
  · split
    · refine ⟨state.errors.push _, ?_, rfl⟩
      intro error member
      rcases Array.mem_push.1 member with before | rfl
      · exact .inl before
      · exact .inr (by simp [Complaint.locate])
    · exact ⟨state.errors, fun _ => .inl, rfl⟩
  · rename_i closed
    refine ⟨state.errors, fun _ => .inl, ?_⟩
    rw [SymbolTable.discardTemplate_of_not_pending (by simpa using closed)]

/-- The node of a template is bound to the last declaration in it. -/
theorem meets_bindOwned {node : NodeId} {declaration : TemplateDecl}
    (found : state.tree.kindAt node = some (.template declaration))
    (phase : declaration.phase = .opened) (owned : declaration.owned = none)
    {refusal : ParseError → ParseState → Prop} :
    Meets (bindOwned node) state (fun _ next => ∃ later change,
      state.tree.Amends later node change ∧
        (change declaration).template = declaration.template ∧
          (change declaration).SettledIn state.tree node ∧
            next = { state with tree := later }) refusal := by
  obtain ⟨other, there, kind⟩ := Option.map_eq_some_iff.1 found
  have known : (state.tree.get? node).bind (fun found => found.kind.templateDecl?) =
      some declaration := by
    rw [there, Option.bind_some, kind]
    rfl
  unfold bindOwned
  simp only [meets_get]
  split
  · rename_i none
    refine ⟨state.tree, id, .of_eq rfl rfl (fun _ => rfl) (fun _ => rfl) node, rfl, ?_, rfl⟩
    unfold TemplateDecl.SettledIn
    rw [none]
    exact ⟨owned, phase⟩
  · rename_i symbol last
    rw [known]
    simp only [TemplateDecl.bind, phase, if_true]
    refine ⟨_, _, .updateTemplate state.tree node _, rfl, ?_, rfl⟩
    unfold TemplateDecl.SettledIn
    rw [last]
    exact ⟨rfl, rfl⟩

/-- What follows the content of a template, whether or not the content was read. -/
theorem meets_closing {next : ParseState} {opened : SymbolTable} {declaration : TemplateDecl}
    {factory : FactoryId} {container : SymbolId} {start : Span}
    (continues : (state.headed opened declaration factory container start).Continues strict next)
    {parsed : Except ParseError Bool}
    (tame : ∀ error, parsed = .error error → error.Tame strict) :
    Meets (do
      popScope
      discardPending factory declaration.template start parsed
      bindOwned ⟨state.tree.size⟩
      finishNode ⟨state.tree.size⟩
      let _ ← resume parsed) next (fun _ last => state.Continues strict last ∧ True)
        fun error last => state.Continues strict last ∧ error.Tame strict := by
  obtain ⟨current, found, phase, owned⟩ : ∃ current,
      next.tree.kindAt ⟨state.tree.size⟩ = some (.template current) ∧
        current.phase = .opened ∧ current.owned = none := by
    obtain ⟨inner, remains, frames⟩ := ParseState.exists_frames_leave continues.scopes
    have seated := continues.fits.coherent.seated inner (frames ▸ List.mem_cons_self)
    rcases remains with rfl | ⟨_, rfl⟩
    · obtain ⟨_, current, found, _, rest⟩ := seated.template rfl
      exact ⟨current, found, rest⟩
    · obtain ⟨_, current, found, _, rest⟩ := seated.template rfl
      exact ⟨current, found, rest⟩
  change Meets (discardPending factory declaration.template start parsed >>= _) next.leave _ _
  apply (meets_discardPending factory declaration.template start parsed).bind
  rintro _ _ ⟨errors, kept, rfl⟩
  refine Meets.bind (meets_bindOwned ?_ phase owned) ?_
  · exact found
  rintro _ _ ⟨later, change, amends, same, settled, rfl⟩
  have settles (other : TemplateDecl)
      (there : next.tree.kindAt ⟨state.tree.size⟩ = some (.template other)) :
      (change other).template = other.template ∧
        (change other).SettledIn next.tree ⟨state.tree.size⟩ := by
    obtain rfl := NodeKind.template.inj (Option.some.inj (there.symm.trans found))
    exact ⟨same, settled⟩
  have tameErrors : ∀ error ∈ errors, error.Tame strict := by
    intro error member
    rcases kept error member with before | ordinary
    · exact continues.fits.tame error before
    · exact ParseError.tame_of_ne ordinary
  have closed := continues.close amends settles tameErrors
  exact (acts_finishNode_return closed.fits ⟨state.tree.size⟩ tame ()).behind closed

/-- A template from behind its introducing word. -/
theorem acts_openedTemplate (coheres : rules.Coheres strict) (fits : state.Fits strict)
    (quiet : state.Quiet strict) (clear : strict → ¬ ClosesOnBlock state.cursor.unread)
    (start : Span) (exported : Bool) :
    Acts strict (openedTemplate rules start exported) state fun _ _ => True := by
  apply ((onlyReads_checkNesting start).acts fits).bind
  intro _ first continuesFirst readsFirst
  have quietFirst := quiet.reads readsFirst
  apply (acts_prefixFactory continuesFirst.fits quietFirst start).bind
  rintro ⟨factory, container⟩ second continuesSecond ⟨offers, cursor, before⟩
  simp only [meets_unit]
  have moves : state.cursor.Moves second.cursor := cursor ▸ readsFirst.1
  have free (strictly : strict) : ¬ Heralds second.cursor.unread ∧
      ¬ ClosesOnBlock second.cursor.unread ∧
        (second.table.stackOf factory = [] ∨ second.table.Free factory) :=
    ⟨fun heralds => (quiet strictly).1 (moves.heralds heralds),
      fun closes => clear strictly (moves.closesOnBlock closes), before strictly⟩
  apply Meets.bind (meets_changeTable.mono (fun _ _ reached => reached) ?_)
  · rintro template _ ⟨opened, opens, rfl⟩
    let declaration := TemplateDecl.start template second.scopes.inner.node factory exported
    have entered : (second.headed opened declaration factory container start).Fits strict :=
      continuesSecond.fits.headed offers opens rfl rfl start
    have quietInside : (second.headed opened declaration factory container start).Quiet strict :=
      continuesSecond.fits.quiet_headed offers opens free start
    simp only [meets_frame]
    have adds : addNode (.template declaration) start (second.withTable opened) =
        .ok ⟨second.tree.size⟩ { second with
          tree := (second.tree.add (.template declaration) second.scopes.inner.node start).2
          table := opened.recorded (.template declaration)
            (second.tree.ref ⟨second.tree.size⟩) } := by
      have present : (second.withTable opened).tree.Has second.scopes.inner.node :=
        continuesSecond.fits.seated_inner.has_node
      change addNodeUnder second.scopes.inner.node _ start (second.withTable opened) = _
      rw [addNodeUnder_eq present, ParseState.addNode_eq]
      rfl
    refine (meets_of_ok adds).2 ?_
    change Meets (attempt (templateContent rules ⟨second.tree.size⟩ template) >>= _)
      (second.headed opened declaration factory container start) _ _
    have content := (acts_templateContent coheres entered quietInside rfl template).attempt
    apply Meets.bind (content.mono (fun _ _ reached => reached) fun _ _ refused => refused.elim)
    rintro parsed next ⟨continues, _, tame⟩
    exact meets_closing continues tame
  · rintro _ _ ⟨cause, refused, rfl, rfl⟩
    exact ⟨continuesSecond.fits.refl,
      ParseError.tame_of_ne (SymbolTable.parseKind_of_openTemplate refused)⟩

/-- A template declaration. -/
theorem acts_templateDeclaration (coheres : rules.Coheres strict) (fits : state.Fits strict)
    (quiet : state.Quiet strict) (start : Span) (exported : Bool) :
    Acts strict (templateDeclaration rules start exported) state fun _ _ => True := by
  apply (acts_expect fits (.keyword .templateKw)).bind
  rintro _ _ continues ⟨here, rfl⟩
  have quietNext := quiet.reads state.reads_next
  simp only [meets_check]
  split
  · rename_i less
    have clear (strictly : strict) : ¬ ClosesOnBlock state.next.cursor.unread := by
      obtain ⟨word, behind, unread, named⟩ := fits.cursor.exists_next (by simp) here
      have next : state.next.cursor.unread = behind := by simp [ParseState.next, unread]
      obtain ⟨opener, rest, rfl, opens⟩ : ∃ opener rest, behind = opener :: rest ∧
          opener.kind = .punct .less :=
        next ▸ continues.fits.cursor.exists_next (by simp) (eq_of_beq less)
      intro closes
      rw [next] at closes
      exact (quiet strictly).1 ⟨[], word, opener, rest, unread, named, opens, closes.of_cons opens⟩
    exact acts_openedTemplate coheres continues.fits quietNext clear start exported
  · exact (settles_synchronize continues.fits).acts.imp fun _ _ _ _ => trivial

end ParseM

end DeclTree
