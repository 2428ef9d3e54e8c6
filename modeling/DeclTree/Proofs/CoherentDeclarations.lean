import DeclTree.Proofs.CoherentSimple
import DeclTree.Proofs.CoherentTemplates
import DeclTree.Proofs.DeclarationRun

/-!
# Declarations keep scopes coherent

A namespace stands behind the scope it is declared in, and no template wraps it; a linkage block
has the symbol of the scope around it.  Every rule of the grammar leaves scopes, nodes and open
templates so that they fit together, also where it is refused, by induction on the depth of
nesting.
-/

namespace DeclTree

namespace SymbolTable

variable {table after : SymbolTable}

/-- A namespace that is opened is one, and is declared in the scope. -/
theorem Consistent.openNamespace_spec (consistent : table.Consistent) {scope id : SymbolId}
    {name : String} {unit : Option UnitId}
    (opened : table.openNamespace scope name unit = .ok (id, after)) :
    after.isNamespace id = true ∧ after.owner id = some scope := by
  rcases openNamespace_ok opened with ⟨found, rfl⟩ | declared
  · unfold findNamespace? at found
    split at found
    · have anonymous := List.find?_some found
      refine ⟨?_, (consistent.tree.mem_children scope id).1 (List.mem_of_find?_eq_some found)⟩
      unfold isAnonymousNamespace at anonymous
      unfold isNamespace
      cases present : after.get? id with
      | none => simp [present] at anonymous
      | some symbol =>
          simp only [present, Option.any_some, Bool.and_eq_true] at anonymous ⊢
          exact anonymous.2
    · have child := consistent.mem_children_of_mem_entries (List.mem_of_find?_eq_some found)
      exact ⟨List.find?_some found, (consistent.tree.mem_children scope id).1 child⟩
  · obtain ⟨inside, attached⟩ := attach_of_declare declared
    have standing := standing?_attach inside.has
      { name := name, kind := .namespaceScope, unit := unit } ⟨table.size⟩
    rw [if_pos rfl, ← attached] at standing
    rw [isNamespace_eq_standing, owner_eq_standing, (Prod.mk.inj attached).1, standing]
    exact ⟨rfl, rfl⟩

end SymbolTable

namespace ParseState

variable {strict : Prop} {origin state next : ParseState}

/-- No scope has a symbol behind that of the innermost one. -/
theorem Fits.symbol_le_inner (fits : state.Fits strict) {frame : ScopeFrame}
    (member : frame ∈ state.scopes.frames) :
    frame.symbol.index ≤ state.scopes.inner.symbol.index := by
  rcases List.mem_cons.1 member with rfl | outer
  · exact Nat.le_refl _
  · exact ((List.pairwise_cons.1 fits.coherent.inside).1 frame outer).symbol

theorem Fits.addUsing (fits : state.Fits strict) (scope : SymbolId) {target : SymbolId}
    (present : state.table.Has target) :
    state.Continues strict (state.withTable (state.table.addUsing scope target)) := by
  have admitted : state.table.Admits (.addUsing scope target) := present
  exact fits.withTable (.addUsing (.refl _) scope target)
    (fits.coherent.orderly.reachable.perform admitted)

/-- The node of a namespace is started in the innermost scope, in which the namespace is. -/
theorem Fits.addNamespace (fits : state.Fits strict) {declaration : NamespaceDecl}
    (isNamespace : state.table.isNamespace declaration.symbol = true)
    (owned : state.table.owner declaration.symbol = some state.scopes.inner.symbol)
    (start : Span) :
    state.Continues strict
        (state.addNode state.scopes.inner.node (.namespaceScope declaration) start).2 ∧
      (state.addNode state.scopes.inner.node (.namespaceScope declaration) start).2.Placed
        (state.addNode state.scopes.inner.node (.namespaceScope declaration) start).1
          declaration.symbol := by
  have orderly := fits.coherent.orderly
  have unwrapped (symbol template : SymbolId)
      (known : (NodeKind.namespaceScope declaration).symbol? = some symbol) :
      state.table.templated? template ≠ some symbol := by
    obtain rfl := Option.some.inj known
    intro wraps
    rw [orderly.wraps template _ wraps] at isNamespace
    cases isNamespace
  obtain ⟨continues, plain⟩ := fits.addOther rfl rfl unwrapped start
  refine ⟨continues, fits.placed_addNode plain (SymbolTable.has_of_owner owned) ?_⟩
  intro frame member
  exact (fits.symbol_le_inner member).trans
    (Nat.le_of_lt (orderly.namespaces _ _ isNamespace owned))

/-! ## Namespaces one inside the other -/

/-- A state inside namespaces that were entered one in the other, innermost first. -/
inductive Nested (strict : Prop) (origin : ParseState) : List NodeId → ParseState → Prop
  | none {state : ParseState} (continues : origin.Continues strict state) :
      Nested strict origin [] state
  | enter {nodes : List NodeId} {middle state : ParseState} {node : NodeId} {symbol : SymbolId}
      (nested : Nested strict origin nodes middle)
      (continues : (middle.enter ⟨node, symbol, .container, .namespaceScope⟩).Continues strict
        state) : Nested strict origin (node :: nodes) state

theorem Nested.behind {nodes : List NodeId} (nested : Nested strict origin nodes state)
    (continues : state.Continues strict next) : Nested strict origin nodes next := by
  cases nested with
  | none before => exact .none (before.trans continues)
  | enter outer before => exact .enter outer (before.trans continues)

theorem Nested.fits {nodes : List NodeId} (nested : Nested strict origin nodes state) :
    state.Fits strict := by
  cases nested with
  | none continues => exact continues.fits
  | enter _ continues => exact continues.fits

theorem Nested.moves {nodes : List NodeId} (nested : Nested strict origin nodes state) :
    origin.cursor.Moves state.cursor := by
  induction nested with
  | none continues => exact continues.moves
  | enter _ continues ih => exact ih.trans continues.moves

theorem Nested.leave {nodes : List NodeId} {node : NodeId}
    (nested : Nested strict origin (node :: nodes) state) :
    Nested strict origin nodes state.leave := by
  cases nested with
  | enter outer continues => exact outer.behind (continues.leave (by simp))

/-- Inside a namespace declarations do not go through open templates. -/
theorem Nested.aside {nodes : List NodeId} {node : NodeId}
    (nested : Nested strict origin (node :: nodes) state) : state.Aside := by
  cases nested with
  | @enter _ middle _ _ symbol _ continues =>
      have entered : (middle.enter ⟨node, symbol, .container, .namespaceScope⟩).Aside := by
        rintro _ _ ⟨⟩
      exact entered.remain continues.scopes

end ParseState

namespace ParseM

open ParseState (Nested)

variable {strict : Prop} {state : ParseState} {rules : Rules}

/-! ## Namespaces -/

theorem meets_openNamespace {origin : ParseState} {nodes : List NodeId}
    (nested : Nested strict origin nodes state) (start : Span) (name : String)
    (isInline : Bool) :
    Meets (openNamespace start name isInline) state
      (fun node next => Nested strict origin (node :: nodes) next ∧ next.cursor = state.cursor)
      fun error next => Nested strict origin nodes next ∧ error.Tame strict := by
  have fits := nested.fits
  have orderly := fits.coherent.orderly
  have begins (table : SymbolTable) (symbol : SymbolId)
      (continues : state.Continues strict (state.withTable table))
      (isNamespace : table.isNamespace symbol = true)
      (owned : table.owner symbol = some state.scopes.inner.symbol) : Meets (do
        let node ← addNode (.namespaceScope ⟨name, isInline, symbol⟩) start
        pushScope ⟨node, symbol, .container, .namespaceScope⟩
        return node) (state.withTable table)
        (fun node next => Nested strict origin (node :: nodes) next ∧ next.cursor = state.cursor)
        fun error next => Nested strict origin nodes next ∧ error.Tame strict := by
    let declaration : NamespaceDecl := ⟨name, isInline, symbol⟩
    have named : (state.withTable table).table.isNamespace declaration.symbol = true := isNamespace
    obtain ⟨adds, placed⟩ := continues.fits.addNamespace named owned start
    unfold addNode
    simp only [bind_assoc, meets_frame]
    refine (meets_of_ok (addNodeUnder_eq continues.fits.seated_inner.has_node _ start)).2 ?_
    refine ⟨.enter (nested.behind (continues.trans adds))
      (adds.fits.enter_placed placed (by simp)).refl, ?_⟩
    rw [ParseState.addNode_eq]
    rfl
  unfold openNamespace checkNesting
  simp only [bind_assoc, meets_get]
  split
  · exact ⟨nested, ParseError.tame_of_ne (by simp [Complaint.locate])⟩
  · simp only [pure_bind, meets_lookupScope, meets_unit]
    apply Meets.bind (meets_changeTable.mono (fun _ _ reached => reached) ?_)
    · rintro symbol _ ⟨table, opens, rfl⟩
      obtain ⟨isNamespace, owned⟩ := orderly.reachable.consistent.openNamespace_spec opens
      let operation := TableOperation.openNamespace state.scopes.inner.symbol name
        (some state.tree.unit)
      have admitted : state.table.Admits operation := trivial
      have performed : state.table.perform operation = table := settle_eq opens
      have reached := orderly.reachable.perform admitted
      rw [performed] at reached
      have continues := fits.withTable (.openNamespace opens) reached
      split
      · have present := SymbolTable.has_of_owner owned
        have uses := continues.fits.addUsing state.scopes.inner.symbol present
        have retains : table.Retains (table.addUsing state.scopes.inner.symbol symbol) :=
          .addUsing (.refl table) _ _
        simp only [meets_table]
        exact begins _ symbol (continues.trans uses)
          ((retains.isNamespace present).trans isNamespace) ((retains.owner present).trans owned)
      · exact begins table symbol continues isNamespace owned
    · rintro _ _ ⟨cause, refused, rfl, rfl⟩
      exact ⟨nested, ParseError.tame_of_ne (SymbolTable.parseKind_of_openNamespace refused)⟩

/-- Namespaces that are left are finished, innermost first. -/
theorem meets_closeNamespaces {origin : ParseState} {nodes : List NodeId}
    {refusal : ParseError → ParseState → Prop} :
    ∀ {state : ParseState}, Nested strict origin nodes state →
      Meets (closeNamespaces nodes) state (fun _ next => origin.Continues strict next)
        refusal := by
  induction nodes with
  | nil =>
      intro state nested
      cases nested with
      | none continues => exact continues
  | cons node outer ih =>
      intro state nested
      have left := nested.leave
      exact ih (left.behind (left.fits.finishNode node _))

/-- Namespaces are entered without reading anything, or all those entered are left again. -/
theorem meets_openNamespaces {origin : ParseState} (start : Span)
    (segments : List (String × Bool)) :
    ∀ {state : ParseState} {nodes : List NodeId}, Nested strict origin nodes state →
      Meets (openNamespaces start nodes segments) state
        (fun opened next => Nested strict origin opened next ∧
          opened.length = nodes.length + segments.length ∧ next.cursor = state.cursor)
        fun error next => origin.Continues strict next ∧ error.Tame strict := by
  induction segments with
  | nil =>
      intro state nodes nested
      exact ⟨nested, rfl, rfl⟩
  | cons segment rest ih =>
      intro state nodes nested
      obtain ⟨name, isInline⟩ := segment
      apply Meets.bind (meets_openNamespace nested start name isInline).attempt
      rintro outcome next ⟨entered, refused⟩
      cases outcome with
      | ok node =>
          obtain ⟨inside, same⟩ := entered node rfl
          apply (ih inside).mono
          · rintro opened last ⟨all, count, still⟩
            refine ⟨all, ?_, still.trans same⟩
            rw [count, List.length_cons, List.length_cons]
            omega
          · intro _ _ closed
            exact closed
      | error error =>
          obtain ⟨outside, tame⟩ := refused error rfl
          apply Meets.bind (meets_closeNamespaces outside)
          intro _ last continues
          exact ⟨continues, tame⟩

/-- A namespace declaration names a namespace. -/
theorem acts_namespaceSegments (fits : state.Fits strict) (quiet : state.Quiet strict)
    (isInline : Bool) :
    Acts strict (namespaceSegments isInline) state fun segments next =>
      segments ≠ [] ∧ next.Quiet strict := by
  unfold namespaceSegments
  simp only [meets_peek]
  apply (settles_eat fits _).acts.bind
  intro named first continuesFirst readsFirst
  have quietFirst := quiet.reads readsFirst
  split
  · apply acts_iterate (fun segments next => segments ≠ [] ∧ next.Quiet strict)
      continuesFirst.fits ⟨by simp, quietFirst⟩
    rintro segments second continuesSecond ⟨some, quietSecond⟩
    apply (settles_eat continuesSecond.fits _).acts.bind
    intro more third continuesThird readsThird
    have quietThird := quietSecond.reads readsThird
    split
    · apply (settles_eat continuesThird.fits _).acts.bind
      intro inlined fourth continuesFourth readsFourth
      apply (onlyReads_expectIdentifier.acts continuesFourth.fits).bind
      intro name last further readsLast
      exact acts_pure further.fits ⟨by simp, (quietThird.reads readsFourth).reads readsLast⟩
    · exact acts_pure continuesThird.fits ⟨some, quietThird⟩
  · exact acts_pure continuesFirst.fits ⟨by simp, quietFirst⟩

/-- A namespace from behind its word. -/
theorem acts_namespaceBody (coheres : rules.Coheres strict) (fits : state.Fits strict)
    (quiet : state.Quiet strict) (start : Span) (isInline : Bool) :
    Acts strict (namespaceBody rules start isInline) state fun _ _ => True := by
  apply (acts_namespaceSegments fits quiet isInline).bind
  rintro segments first continuesFirst ⟨some, quietFirst⟩
  apply (onlyReads_skipAttributes.acts continuesFirst.fits).bind
  intro _ second continuesSecond readsSecond
  have quietSecond := quietFirst.reads readsSecond
  simp only [meets_check]
  split
  · rename_i missing
    apply (acts_expect continuesSecond.fits _).bind
    rintro _ _ _ ⟨brace, _⟩
    simp [brace] at missing
  · rename_i brace
    have brace : second.cursor.peek.kind = .punct .leftBrace := by simpa using brace
    apply Meets.bind (meets_openNamespaces start segments (.none continuesSecond.fits.refl))
    rintro nodes third ⟨nested, count, same⟩
    rw [← same] at brace
    refine (meets_of_ok (expect_of_eq brace)).2 ?_
    have entered := nested.behind (third.reads_next.continues nested.fits)
    obtain ⟨node, outer, rfl⟩ : ∃ node outer, nodes = node :: outer := by
      apply List.exists_cons_of_length_pos
      have named := List.length_pos_iff.2 some
      omega
    have aside := entered.aside
    have quietNext := quietSecond.of_aside entered.moves aside
    have content := coheres.declarations third.next true entered.fits quietNext fun _ => aside
    apply Meets.bind (content.mono (fun _ _ reached => reached) fun _ _ refused => refused.elim)
    rintro _ fourth ⟨continuesFourth, _⟩
    have closer := settles_eat continuesFourth.fits (.punct .rightBrace)
    apply Meets.bind (closer.mono (fun _ _ reached => reached) fun _ _ refused => refused.elim)
    rintro _ fifth ⟨continuesFifth, _⟩
    apply (meets_closeNamespaces (entered.behind (continuesFourth.trans continuesFifth))).mono
    · intro _ last continues
      exact ⟨continues, trivial⟩
    · intro _ _ refused
      exact refused

theorem acts_namespaceDeclaration (coheres : rules.Coheres strict) (fits : state.Fits strict)
    (quiet : state.Quiet strict) (start : Span) (isInline : Bool) :
    Acts strict (namespaceDeclaration rules start isInline) state fun _ _ => True := by
  apply ((onlyReads_expect _).acts fits).bind
  intro _ first continuesFirst readsFirst
  apply (onlyReads_skipAttributes.acts continuesFirst.fits).bind
  intro _ second continuesSecond readsSecond
  simp only [meets_check, meets_checkAhead]
  split
  · exact (settles_synchronize continuesSecond.fits).acts.imp fun _ _ _ _ => trivial
  · exact acts_namespaceBody coheres continuesSecond.fits
      ((quiet.reads readsFirst).reads readsSecond) start isInline

/-! ## Linkage -/

/-- A node without a symbol in the innermost scope. -/
theorem acts_addBare (fits : state.Fits strict) {kind : NodeKind} (bare : kind.symbol? = none)
    (start : Span) :
    Acts strict (addNode kind start) state fun node next => next.Placed node
      state.scopes.inner.symbol := by
  have other : kind.templateDecl? = none ∧ kind.isEntity = false := by
    cases kind <;> simp_all [NodeKind.symbol?, NodeKind.templateDecl?, NodeKind.isEntity]
  obtain ⟨continues, plain⟩ := fits.addOther other.1 other.2 (by simp [bare]) start
  unfold addNode
  simp only [meets_frame]
  exact acts_addNodeUnder fits.seated_inner.has_node ⟨continues, fits.placed_addNode plain
    fits.seated_inner.present fun _ => fits.symbol_le_inner⟩

theorem acts_linkageContent (coheres : rules.Coheres strict) (fits : state.Fits strict)
    (quiet : state.Quiet strict) (aside : state.Aside) :
    Acts strict (linkageContent rules) state fun _ _ => True := by
  apply (settles_eat fits _).acts.bind
  intro braced first continuesFirst readsFirst
  have quietFirst := quiet.reads readsFirst
  split
  · have asideFirst := aside.remain continuesFirst.scopes
    apply (coheres.declarations first true continuesFirst.fits quietFirst
      fun _ => asideFirst).acts.bind
    intro _ second continuesSecond _
    apply (settles_eat continuesSecond.fits _).acts.bind
    intro _ last further _
    exact acts_pure further.fits trivial
  · exact coheres.declaration first continuesFirst.fits quietFirst
      (.of_aside fun _ => aside.remain continuesFirst.scopes)

theorem acts_linkageDeclaration (coheres : rules.Coheres strict) (fits : state.Fits strict)
    (quiet : state.Quiet strict) (start : Span) :
    Acts strict (linkageDeclaration rules start) state fun _ _ => True := by
  apply ((onlyReads_expect _).acts fits).bind
  intro _ first continuesFirst readsFirst
  apply ((onlyReads_expect _).acts continuesFirst.fits).bind
  intro literal second continuesSecond readsSecond
  apply ((onlyReads_checkNesting start).acts continuesSecond.fits).bind
  intro _ third continuesThird readsThird
  have quietThird := ((quiet.reads readsFirst).reads readsSecond).reads readsThird
  simp only [meets_lookupScope]
  apply (acts_addBare continuesThird.fits rfl start).bind
  intro node fourth continuesFourth placed
  let frame : ScopeFrame := ⟨node, third.scopes.inner.symbol, .container, .linkage⟩
  have entered : (fourth.enter frame).Fits strict :=
    continuesFourth.fits.enter_placed placed (by simp)
  have aside : (fourth.enter frame).Aside := by
    rintro _ _ ⟨⟩
  have quietInside : (fourth.enter frame).Quiet strict :=
    quietThird.of_aside continuesFourth.moves aside
  apply acts_scope (by simp) (acts_linkageContent coheres entered quietInside aside).attempt
  rintro result last outside ⟨_, tame⟩
  exact acts_finishNode_resume outside.fits node tame

/-! ## Using -/

theorem acts_usingDirective (fits : state.Fits strict) (start : Span) :
    Acts strict (usingDirective start) state fun _ _ => True := by
  apply (onlyReads_namePath.acts fits).bind
  intro path first continuesFirst _
  apply ((onlyReads_expect (.punct .semicolon)).acts continuesFirst.fits).attempt.acts.bind
  rintro terminated second continuesSecond ⟨_, tame⟩
  simp only [meets_lookupScope]
  have known : Leads (resolveNamespace? path) second (fun target next => next = second ∧
      ∀ id, target = some id → second.table.Has id) fun _ => False := by
    rw [← bind_pure (resolveNamespace? path)]
    apply leads_resolveNamespace?
    intro target isNamespace
    exact ⟨rfl, fun id named => SymbolTable.has_of_isNamespace (isNamespace id named)⟩
  apply Meets.bind (Meets.mono known (fun _ _ reached => reached)
    fun _ _ refused => refused.elim)
  rintro target next ⟨same, present⟩
  rw [same]
  have rest (third : ParseState) (fitsThird : third.Fits strict) : Acts strict (do
      let node ← addNode (.usingDirective ⟨path.text, target⟩) start
      finishNode node
      let _ ← resume terminated) third fun _ _ => True := by
    apply (acts_addBare fitsThird rfl start).bind
    intro node last further _
    exact acts_finishNode_return further.fits node tame ()
  split
  · rename_i scope
    simp only [meets_table]
    have uses := continuesSecond.fits.addUsing second.scopes.inner.symbol (present scope rfl)
    exact (rest _ uses.fits).behind uses
  · exact rest second continuesSecond.fits

theorem acts_aliasDeclaration (reads : rules.Reads) (fits : state.Fits strict)
    (quiet : state.Quiet strict) (start : Span) :
    Acts strict (aliasDeclaration rules start) state fun _ _ => True := by
  apply (onlyReads_expectIdentifier.acts fits).bind
  intro name first continuesFirst readsFirst
  apply (onlyReads_skipAttributes.acts continuesFirst.fits).bind
  intro _ second continuesSecond readsSecond
  apply ((onlyReads_expect _).acts continuesSecond.fits).bind
  intro _ third continuesThird readsThird
  apply ((onlyReads_specifiers (by simp)).acts continuesThird.fits).bind
  intro specs fourth continuesFourth readsFourth
  have quietFourth := (((quiet.reads readsFirst).reads readsSecond).reads readsThird).reads
    readsFourth
  split
  · simp only [meets_peek]
    exact acts_refuse continuesFourth.fits (by simp)
  · apply ((onlyReads_declarator reads .abstract).acts continuesFourth.fits).bind
    intro declarator fifth continuesFifth readsFifth
    refine Acts.imp (acts_entity continuesFifth.fits (quietFourth.reads readsFifth) rfl (by simp)
      SymbolTable.clear_none (fun _ => rfl) (fun _ => rfl) ?_) fun _ _ _ _ => trivial
    intro symbol node sixth continuesSixth _ _
    apply ((onlyReads_expect (.punct .semicolon)).acts continuesSixth.fits).attempt.acts.bind
    rintro terminated last further ⟨_, tame⟩
    exact acts_finishNode_return further.fits node tame ()

theorem acts_usingDeclaration (reads : rules.Reads) (fits : state.Fits strict)
    (quiet : state.Quiet strict) (start : Span) :
    Acts strict (usingDeclaration rules start) state fun _ _ => True := by
  apply ((onlyReads_expect _).acts fits).bind
  intro _ first continuesFirst readsFirst
  apply (settles_eat continuesFirst.fits _).acts.bind
  intro directive second continuesSecond readsSecond
  have quietSecond := (quiet.reads readsFirst).reads readsSecond
  split
  · exact acts_usingDirective continuesSecond.fits start
  · apply (onlyReads_aliasAhead.acts continuesSecond.fits).bind
    intro ahead third continuesThird readsThird
    split
    · exact acts_aliasDeclaration reads continuesThird.fits (quietSecond.reads readsThird) start
    · exact (settles_synchronize continuesThird.fits).acts.imp fun _ _ _ _ => trivial

/-! ## All declarations -/

/-- In a strict parse, a block of exported declarations does not stand behind a template prefix. -/
theorem aside_of_exports (fits : state.Fits strict) (shut : state.Shut strict)
    (here : state.cursor.peek.kind = .keyword .exportKw)
    (brace : state.next.cursor.peek.kind = .punct .leftBrace) (strictly : strict) :
    state.Aside := by
  intro factory container target
  apply shut strictly factory container target
  obtain ⟨word, behind, unread, exports⟩ := fits.cursor.exists_next (by simp) here
  have next : state.next.cursor.unread = behind := by simp [ParseState.next, unread]
  obtain ⟨brace, rest, rfl, opens⟩ : ∃ brace rest, behind = brace :: rest ∧
      brace.kind = .punct .leftBrace :=
    next ▸ (state.reads_next.1.sound fits.cursor).exists_next (by simp) brace
  rw [unread]
  exact .block exports opens

theorem acts_exportedDeclarations (coheres : rules.Coheres strict) (fits : state.Fits strict)
    (quiet : state.Quiet strict) (shut : state.Shut strict)
    (here : state.cursor.peek.kind = .keyword .exportKw) :
    Acts strict (exportedDeclarations rules) state fun _ _ => True := by
  have continues := state.reads_next.continues fits
  have quietNext := quiet.reads state.reads_next
  refine (meets_of_ok (skip_one state)).2 (Acts.behind ?_ continues)
  by_cases brace : state.next.cursor.peek.kind = .punct .leftBrace
  · have aside (strictly : strict) := aside_of_exports fits shut here brace strictly
    have further := state.next.reads_next.continues continues.fits
    refine (meets_of_ok (eat_of_eq brace)).2 (Acts.behind ?_ further)
    apply (coheres.declarations _ true further.fits (quietNext.reads state.next.reads_next)
      fun strictly => (aside strictly).remain (continues.trans further).scopes).acts.bind
    intro _ second continuesSecond _
    apply ((onlyReads_expect _).acts continuesSecond.fits).bind
    intro _ last continuesLast _
    exact acts_pure continuesLast.fits trivial
  · refine (meets_of_ok (eat_of_ne brace)).2 ?_
    refine coheres.declaration state.next continues.fits quietNext
      (shut.reads state.reads_next (Cursor.comesToBlock_of_next ?_))
    rw [here]
    rfl

theorem acts_keywordDeclaration (coheres : rules.Coheres strict) (fits : state.Fits strict)
    (quiet : state.Quiet strict) (shut : state.Shut strict) (start : Span) {word : Keyword}
    (here : state.cursor.peek.kind = .keyword word) (next : TokenKind) :
    Acts strict (keywordDeclaration rules start word next) state fun _ _ => True := by
  have simple := acts_simpleDeclaration coheres fits quiet start
  have synchronizes : Acts strict synchronize state fun _ _ => True :=
    (settles_synchronize fits).acts.imp fun _ _ _ _ => trivial
  have access : Acts strict (if next = .punct .colon then skip 2
      else simpleDeclaration rules start) state fun _ _ => True := by
    split
    · exact ((onlyReads_skip 2).acts fits).imp fun _ _ _ _ => trivial
    · exact simple
  unfold keywordDeclaration
  split
  · exact acts_namespaceDeclaration coheres fits quiet start false
  · split
    · apply ((onlyReads_skip 1).acts fits).bind
      intro _ first continuesFirst readsFirst
      exact acts_namespaceDeclaration coheres continuesFirst.fits (quiet.reads readsFirst) start
        true
    · exact simple
  · split
    · exact acts_linkageDeclaration coheres fits quiet start
    · split
      · exact synchronizes
      · exact simple
  · split
    · apply ((onlyReads_skip 1).acts fits).bind
      intro _ first continuesFirst readsFirst
      exact acts_templateDeclaration coheres continuesFirst.fits (quiet.reads readsFirst) start
        true
    · exact acts_exportedDeclarations coheres fits quiet shut here
  · exact acts_templateDeclaration coheres fits quiet start false
  · exact acts_usingDeclaration coheres.toReads fits quiet start
  · exact synchronizes
  · exact synchronizes
  · exact access
  · exact access
  · exact access
  · exact simple

theorem acts_declaration (coheres : rules.Coheres strict) (fits : state.Fits strict)
    (quiet : state.Quiet strict) (shut : state.Shut strict) :
    Acts strict (declaration rules) state fun _ _ => True := by
  apply (onlyReads_skipAttributes.acts_leads fits (approaches_skipAttributes state)).bind
  rintro _ first continuesFirst ⟨readsFirst, comes⟩
  have quietFirst := quiet.reads readsFirst
  simp only [meets_peek, meets_ahead]
  split
  · exact ((onlyReads_skip 1).acts continuesFirst.fits).imp fun _ _ _ _ => trivial
  · rename_i here
    exact acts_keywordDeclaration coheres continuesFirst.fits quietFirst
      (shut.reads readsFirst comes) _ here _
  · split
    · exact (settles_synchronize continuesFirst.fits).acts.imp fun _ _ _ _ => trivial
    · exact acts_simpleDeclaration coheres continuesFirst.fits quietFirst _
  · exact acts_simpleDeclaration coheres continuesFirst.fits quietFirst _

theorem settles_declarationItem (coheres : rules.Coheres strict) (fits : state.Fits strict)
    (quiet : state.Quiet strict) (shut : state.Shut strict) (closing : Bool) :
    Settles strict (declarationItem rules closing ()) state fun _ _ => True := by
  unfold declarationItem
  simp only [meets_peek]
  split
  · split
    · apply (settles_complain fits (by simp) _).bind
      intro _ last continues _
      exact settles_pure continues.fits trivial
    · exact settles_pure fits trivial
  · split
    · exact settles_pure fits trivial
    · have skips : Settles strict (skip 1) state fun _ _ => True := by
        unfold Settles Meets
        rw [skip_one]
        exact ⟨state.reads_next.continues fits, trivial⟩
      apply skips.bind
      intro _ first continuesFirst _
      apply (settles_complain continuesFirst.fits (by simp) _).bind
      intro _ last further _
      exact settles_pure further.fits trivial
  · apply (acts_declaration coheres fits quiet shut).attempt.bind
    rintro outcome first continuesFirst ⟨_, tame⟩
    cases outcome with
    | ok _ => exact settles_pure continuesFirst.fits trivial
    | error error =>
        apply (settles_report continuesFirst.fits (tame error rfl)).bind
        intro _ second continuesSecond _
        apply (settles_synchronize continuesSecond.fits).bind
        intro _ last further _
        exact settles_pure further.fits trivial

/-- The declarations of a scope. -/
theorem settles_declarations (coheres : rules.Coheres strict) (fits : state.Fits strict)
    (quiet : state.Quiet strict) (aside : strict → state.Aside) (closing : Bool) :
    Settles strict (declarations rules closing) state fun _ _ => True := by
  apply meets_iterate (fun _ next => state.Continues strict next) fits.refl
  intro _ next continues
  have quietNext : next.Quiet strict := fun strictly =>
    quiet.continues (aside strictly) continues strictly
  have shut : next.Shut strict := .of_aside fun strictly =>
    (aside strictly).remain continues.scopes
  apply (settles_declarationItem coheres continues.fits quietNext shut closing).mono
  · rintro outcome last ⟨further, _⟩
    cases outcome with
    | again => exact continues.trans further
    | done => exact ⟨continues.trans further, trivial⟩
  · intro _ _ refused
    exact refused

/-- Rules for any depth of nesting keep scopes coherent. -/
theorem coheres_ofDepth (strict : Prop) (depth : Nat) : (Rules.ofDepth depth).Coheres strict := by
  induction depth with
  | zero =>
      exact ⟨(steady_ofDepth 0).toReads, fun _ _ _ _ => trivial, fun _ _ _ _ _ => trivial,
        fun _ _ _ _ _ => trivial⟩
  | succ depth coheres =>
      refine ⟨(steady_ofDepth (depth + 1)).toReads, ?_, ?_, ?_⟩
      · intro state fits quiet shut
        exact acts_declaration coheres fits quiet shut
      · intro state start exported fits quiet
        exact acts_templateDeclaration coheres fits quiet start exported
      · intro state closing fits quiet aside
        exact settles_declarations coheres fits quiet aside closing

theorem settles_translationUnit (fits : state.Fits strict) (quiet : state.Quiet strict)
    (aside : state.Aside) : Settles strict translationUnit state fun _ _ => True := by
  unfold translationUnit
  simp only [meets_get]
  exact (coheres_ofDepth strict _).declarations state false fits quiet fun _ => aside

end ParseM

end DeclTree
