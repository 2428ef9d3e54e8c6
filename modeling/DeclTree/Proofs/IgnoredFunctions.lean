import DeclTree.Proofs.IgnoredDeclarators

/-!
# Simple declarations in front of a sequel

A declaration ends with a semicolon or with a function body, which may be the last token of the
text.  Its declarators, and what stands between a parameter list and a body, do not end it.
-/

namespace DeclTree

namespace ParseM

variable {α β : Type} {sequel : Sequel} {old : Nat} {state : ParseState} {rules longer : Rules}

/-! ## Behind a parameter list -/

theorem disregards_qualifierScope (id : DeclaratorId) :
    Disregards sequel old (qualifierScope id) (qualifierScope id) := by
  unfold qualifierScope
  split
  · exact .pure _
  · exact .ite (.pure _) ((disregards_resolveScope _ _ _).bind fun _ => .pure _)

theorem ignores_trailingType (ignore : rules.Ignore sequel longer) :
    Ignores sequel old (fun _ => .anything) (trailingType rules) (trailingType longer) :=
  fun _ => ignoresFrom_next.short fun _ => (ignore.specifiers _ _).inside fun _ =>
    (ignore.declarator _ _).short fun _ => ignores_pure _

theorem ignores_functionWord (tail : FunctionTail) (token : Token) :
    Ignores sequel old (fun _ => .anything) (functionWord tail token) (functionWord tail token) :=
  fun state => .ite (fun _ => ignoresFrom_next.short fun _ => ignores_pure _) fun _ =>
    .ite (fun _ => ignoresFrom_next.short fun _ => ignores_pure _) fun _ =>
      .ite (fun _ => ignoresFrom_next.short fun _ => (ignores_skipExpression _).short
        fun _ => ignores_pure _) fun _ =>
          .ite (fun _ => (ignores_skipAttributes state).short fun _ => ignores_pure _)
            fun _ => ignores_pure _ state

theorem ignores_functionItem (ignore : rules.Ignore sequel longer) (tail : FunctionTail) :
    Ignores sequel old (fun _ => .anything) (functionItem rules tail)
      (functionItem longer tail) := by
  refine fun state => .peek ?_
  split
  iterate 2
    · exact ignoresFrom_next.short fun _ => ignores_pure _
  iterate 2
    · exact ignoresFrom_next.short fun _ => ignores_skipGroupIf.short fun _ => ignores_pure _
  · exact .ite (fun _ => ignoresFrom_next.short fun _ => ignores_pure _) fun _ =>
      ignores_pure _ state
  · exact ignores_functionWord tail _ state
  · exact (ignores_trailingType ignore state).short fun _ => ignores_pure _
  · rename_i bracket
    refine .checkSecond (by rw [bracket]; rfl) (.ite (fun _ => ?_) fun _ => ignores_pure _ state)
    exact (ignores_skipAttributes state).short fun _ => ignores_pure _
  · exact ignores_pure _ state

theorem ignores_functionMark :
    Ignores sequel old (fun _ => .never) functionMark functionMark := by
  refine fun state => .check (.ite (fun found => ?_) fun _ => ignores_pure none state)
  have equal : state.cursor.peek.kind.endsDeclaration = false := by rw [eq_of_beq found]; rfl
  have read {result : Option (Specifier × Bool)}
      (inner : (state.cursor.ahead 1).kind.endsDeclaration = false) :
      IgnoresFrom sequel old (fun _ => .never) (do skip 2; return result) (do skip 2; return result)
        state :=
    (ignoresFrom_skipInside fun approaches more =>
      approaches.two_lt_length (approaches.one_lt_length more equal) inner).inside
        fun _ => ignores_pure _
  refine .second equal ?_
  split
  · rename_i value
    exact .ite (fun _ => read (by rw [value]; rfl)) fun _ => ignores_refuse _ _ state
  iterate 2
    · rename_i value
      exact read (by rw [value]; rfl)
  · exact ignores_refuse _ _ state

theorem ignores_bodyAhead : Ignores sequel old (fun _ => .never) bodyAhead bodyAhead := by
  refine fun state => .peek ?_
  split <;> exact ignores_pure _ state

/-! ## Bodies -/

theorem ignores_skipBraces :
    Ignores sequel old (fun _ => .same) skipBraces skipBraces :=
  fun state => .check (.ite (fun _ => ignores_skipGroup state) fun _ =>
    ((ignores_expect _).disregarding fun _ => .pure ()) state)

theorem ignores_initializerSegment (round : Unit) :
    Ignores sequel old (fun _ => .anything) (initializerSegment round)
      (initializerSegment round) :=
  ignores_expectIdentifier.short fun _ => ignores_jumpClosedArguments.short fun _ =>
    (ignores_eat _).short fun _ => .ite (ignores_pure _) (ignores_pure _)

theorem ignores_constructorInitializer (round : Unit) :
    Ignores sequel old (fun _ => .anything) (constructorInitializer round)
      (constructorInitializer round) := by
  have segments : Ignores sequel old (fun _ => .anything) (iterate initializerSegment ())
      (iterate initializerSegment ()) := .iterateShort ignores_initializerSegment ()
  refine (ignores_eat _).short fun _ => segments.short fun _ state => .check (.check ?_)
  have rest : Ignores sequel old (fun _ => .anything)
      (do
        skipGroup
        let _ ← eat (.punct .ellipsis)
        if ← eat (.punct .comma) then return .again () else return .done () :
          ParseM (Step Unit Unit))
      (do
        skipGroup
        let _ ← eat (.punct .ellipsis)
        if ← eat (.punct .comma) then return .again () else return .done ()) :=
    ignores_skipGroup.short fun _ => (ignores_eat _).short fun _ => (ignores_eat _).short fun _ =>
      .ite (ignores_pure _) (ignores_pure _)
  exact .ite (fun _ => (ignores_expect _ state).short fun _ => rest) fun _ => rest state

/-- At the end of the text there is no handler, and the sequel starts with none. -/
theorem concludes_handlers {bound more : Nat} (le : bound ≤ more)
    (approaches : state.cursor.Approaches sequel) (spent : state.cursor.unread = []) :
    Concludes sequel old .same (fun _ => .same) (loop exceptionHandler bound ())
      (loop exceptionHandler more ()) state := by
  have handled {state : ParseState} (other : state.cursor.peek.kind ≠ .keyword .catchKw)
      (bound : Nat) : loop exceptionHandler (bound + 1) () state = .ok () state := by
    have round : exceptionHandler () state = .ok (.done ()) state := by
      change EStateM.bind (eat _) _ state = _
      rw [EStateM.bind, eat_of_ne other]
      rfl
    change EStateM.bind (exceptionHandler ()) _ state = _
    rw [EStateM.bind, round]
    rfl
  intro _
  cases bound with
  | zero => trivial
  | succ bound =>
      obtain ⟨more, rfl⟩ : ∃ rest, more = rest + 1 := ⟨more - 1, by omega⟩
      have ends : state.cursor.peek.kind = .eof := approaches.sound.peek_eof_iff.2 spent
      unfold Leads Meets
      rw [handled (by rw [ends]; simp)]
      exact .inr (handled (Cursor.peek_followedBy_of_spent spent) more)

theorem ignores_handlers :
    Ignores sequel old (fun _ => .same) (iterate exceptionHandler ())
      (iterate exceptionHandler ()) := by
  have round (start : Unit) : Ignores sequel old (AtEnd.ofStep .same fun _ => .same)
      (exceptionHandler start) (exceptionHandler start) := by
    refine (ignores_eatInside rfl).inside fun _ => .ite ?_ (ignores_pure _)
    refine ignores_skipGroupIf.inside fun _ state => (ignores_skipBraces state).bind
      (fun _ next _ => ignores_pure _ next) fun _ _ _ _ => concludes_pure rfl
  exact ignores_iterate round (fun _ _ _ _ le approaches spent =>
    concludes_handlers le approaches spent) ()

/-- Braces have to be there. -/
theorem concludes_skipBraces {known : AtEnd} {rest : Unit → ParseM β} {further : ParseM β}
    {ending : β → AtEnd} (approaches : state.cursor.Approaches sequel)
    (spent : state.cursor.unread = []) :
    Concludes sequel old known ending (skipBraces >>= rest) further state := by
  have ends : state.cursor.peek.kind = .eof := approaches.sound.peek_eof_iff.2 spent
  have refused : Leads skipBraces state (fun _ _ => False) fun _ => True := by
    refine leads_ifCheck (fun found => ?_) fun other => ?_
    · cases found.symm.trans ends
    · exact leads_expect (fun found => absurd found other) fun _ => trivial
  exact fun _ => refused.bind fun _ _ => False.elim

theorem ignores_skipBody : Ignores sequel old (fun _ => .same) skipBody skipBody := by
  have rest (catches : Bool) : Ignores sequel old (fun _ => .same)
      (do
        skipBraces
        if catches then iterate exceptionHandler ())
      (do
        skipBraces
        if catches then iterate exceptionHandler ()) := by
    refine fun state => (ignores_skipBraces state).bind (fun _ next _ => ?_)
      fun _ next approaches spent => ?_
    · exact .ite (fun _ => ignores_handlers next) fun _ => ignores_pure () next
    · by_cases handlers : catches = true
      · simp only [if_pos handlers]
        have heavier : next.cursor.weight ≤ (next.cursor.followedBy sequel).weight :=
          Cursor.weight_followedBy
        exact concludes_handlers (Nat.succ_le_succ heavier) approaches spent
      · simp only [if_neg handlers]
        exact concludes_pure rfl
  have initializers : Ignores sequel old (fun _ => .anything) (iterate constructorInitializer ())
      (iterate constructorInitializer ()) := .iterateShort ignores_constructorInitializer ()
  refine (ignores_eatInside rfl).inside fun _ => (ignores_eatInside rfl).inside fun _ =>
    .ite (fun state => ?_) (rest _)
  exact (initializers state).bind (fun _ next _ => rest _ next) fun _ _ approaches spent =>
    concludes_skipBraces approaches spent

/-! ## Functions -/

theorem disregards_parameterSymbol (function : SymbolId) (parameter : ParsedParameter) :
    Disregards sequel old (parameterSymbol function parameter)
      (parameterSymbol function parameter) := by
  unfold parameterSymbol
  split
  · exact .pure _
  · refine disregards_unit.bind fun unit state => ?_
    exact (disregards_changeTable _ _ state).attempt (fun _ next _ => Disregards.pure _ next)
      fun error => (Spoils.report error).bind fun _ => .pure _

theorem ignores_addParameters (node : NodeId) (function : SymbolId)
    (parameters : List ParsedParameter) :
    Ignores sequel old (fun _ => .never) (addParameters node function parameters)
      (addParameters node function parameters) := by
  induction parameters with
  | nil => exact ignores_pure ()
  | cons parameter rest ih =>
      have added : Ignores sequel old (fun _ => .never) (addParameter node function parameter)
          (addParameter node function parameter) :=
        (disregards_parameterSymbol _ _).ignores.inside fun _ _ => .addNodeUnder
          fun _ next _ new => (disregards_finishNodeAt new _).ignores next
      exact added.inside fun _ => ih

theorem ignores_functionBody {node : NodeId} (new : old ≤ node.index) :
    Ignores sequel old (fun _ => .same) (functionBody node) (functionBody node) := by
  refine fun state => (ignores_skipBody state).attemptEnding (fun outcome => ?_)
    fun error _ => leads_whatever fun _ _ => trivial
  refine (disregards_finishNode new).bind fun _ => ?_
  exact (disregards_resume outcome).bind fun _ => .pure _

/-! ## The nodes of declarators -/

/-- Whether what a declarator leaves to be finished is none of the first nodes. -/
def LeavesNew (old : Nat) (declared : InitDeclarator) : Prop :=
  ∀ node ∈ declared.node, old ≤ node.index

theorem leavesNew_some {node : NodeId} (new : old ≤ node.index) (hasBody : Bool) :
    LeavesNew old ⟨some node, hasBody⟩ := by
  rintro _ ⟨⟩
  exact new

theorem size_of_rests {next : ParseState} (rests : state.Rests next) :
    state.tree.size ≤ next.tree.size := by
  have fresh : state.tree.birth? ⟨next.tree.size⟩ = none := by
    rw [← rests.births]
    exact next.tree.birth?_fresh
  unfold Tree.birth? Tree.get? at fresh
  exact Array.getElem?_eq_none_iff.1 (Option.map_eq_none_iff.1 fresh)

/-- What follows a part that creates no node. -/
theorem leads_resting {first : ParseM α} {rest : α → ParseM β} {accept : β → ParseState → Prop}
    (resting : Resting first) (large : old ≤ state.tree.size)
    (following : ∀ value next, old ≤ next.tree.size →
      Leads (rest value) next accept fun _ => True) :
    Leads (first >>= rest) state accept fun _ => True := by
  refine ((resting state).mono (fun _ _ => id) fun _ _ => trivial).bind fun value next rests => ?_
  exact following value next (Nat.le_trans large (size_of_rests rests))

theorem leads_addNode {kind : NodeKind} {start : Span} {rest : NodeId → ParseM β}
    {accept : β → ParseState → Prop} (large : old ≤ state.tree.size)
    (following : ∀ node next, old ≤ node.index → Leads (rest node) next accept fun _ => True) :
    Leads (addNode kind start >>= rest) state accept fun _ => True := by
  unfold addNode
  simp only [bind_assoc, leads_frame]
  refine (leads_addNodeUnder_present state _ kind start).bind ?_
  rintro node next ⟨_, added⟩
  refine following node next ?_
  obtain ⟨rfl, rfl⟩ := Prod.mk.inj added
  exact large

theorem leads_typedefDeclarator (large : old ≤ state.tree.size) (specs : DeclSpecs)
    (declarator : Declarator) (id : DeclaratorId) (start : Span) :
    Leads (typedefDeclarator specs declarator id start) state
      (fun declared _ => LeavesNew old declared ∧ declared.hasBody = false) fun _ => True :=
  leads_resting (resting_declare _ _ _) large fun _ _ large => leads_addNode large fun _ _ new =>
    ⟨leavesNew_some new _, rfl⟩

theorem leads_variableDeclarator (large : old ≤ state.tree.size) (specs : DeclSpecs)
    (declarator : Declarator) (id : DeclaratorId) (start : Span) :
    Leads (variableDeclarator specs declarator id start) state
      (fun declared _ => LeavesNew old declared ∧ declared.hasBody = false) fun _ => True := by
  unfold variableDeclarator
  refine leads_resting (.reads (onlyReads_eat _)) large fun _ next large => ?_
  have rest {next : ParseState} (large : old ≤ next.tree.size) :
      Leads (do
        let hasInitializer ← initializer declarator
        let scope ← qualifierScope id
        let declarationOnly ← isDeclarationOnly specs id hasInitializer
        let symbol ← declare
          { name := id.name
            kind := .var
            defined := !declarationOnly
            specialization := id.hasArguments } scope id.span
        let node ← addNode
          (.var ⟨id.name, id.qualifier.map Qualifier.text, specs.typeRef declarator,
            specs.specifiers, symbol, hasInitializer⟩) start
        return ⟨some node, false⟩ : ParseM InitDeclarator) next
        (fun declared _ => LeavesNew old declared ∧ declared.hasBody = false) fun _ => True :=
    leads_resting (.reads (onlyReads_initializer _)) large fun _ _ large =>
      leads_resting (.reads (onlyReads_qualifierScope _)) large fun _ _ large =>
        leads_resting (.reads (onlyReads_isDeclarationOnly _ _ _)) large fun _ _ large =>
          leads_resting (resting_declare _ _ _) large fun _ _ large =>
            leads_addNode large fun _ _ new => ⟨leavesNew_some new _, rfl⟩
  split
  · exact leads_resting (.reads (onlyReads_skipExpression _)) large fun _ _ large => rest large
  · exact rest large

theorem leads_dataDeclarator (large : old ≤ state.tree.size) (specs : DeclSpecs)
    (declarator : Declarator) (id : DeclaratorId) (start : Span) :
    Leads (dataDeclarator specs declarator id start) state
      (fun declared _ => LeavesNew old declared ∧ declared.hasBody = false) fun _ => True := by
  unfold dataDeclarator
  split
  · trivial
  · split
    · exact leads_typedefDeclarator large specs declarator id start
    · exact leads_variableDeclarator large specs declarator id start

theorem leads_functionBody (node : NodeId) :
    Leads (functionBody node) state (fun declared _ => LeavesNew old declared) fun _ => True := by
  refine leads_whatever fun _ _ => leads_whatever fun _ _ => leads_whatever fun _ _ => ?_
  exact fun _ none => by cases none

theorem leads_functionRest (ignore : rules.Ignore sequel longer) (large : old ≤ state.tree.size)
    (specs : DeclSpecs) (declarator : Declarator) (id : DeclaratorId)
    (parameters : List ParsedParameter) (start : Span) :
    Leads (functionRest rules specs declarator id parameters start) state
      (fun declared _ => LeavesNew old declared) fun _ => True := by
  have items (tail : FunctionTail) : Ignores sequel old (fun _ => .anything)
      (iterate (functionItem rules) tail) (iterate (functionItem longer) tail) :=
    .iterateShort (ignores_functionItem ignore) tail
  refine (items _).proceeding.leads_bind large fun _ _ large =>
    leads_resting (.reads onlyReads_functionMark) large fun _ _ large =>
      leads_resting (.reads onlyReads_bodyAhead) large fun _ _ large =>
        leads_resting (.reads (onlyReads_qualifierScope _)) large fun _ _ large =>
          leads_resting (resting_declare _ _ _) large fun _ _ large =>
            leads_addNode large fun node _ new => leads_whatever fun _ _ => ?_
  split
  · exact leads_functionBody node
  · exact leavesNew_some new _

/-! ## Declarators and what follows them -/

theorem ignores_typedefDeclarator (specs : DeclSpecs) (declarator : Declarator)
    (id : DeclaratorId) (start : Span) :
    Ignores sequel old (fun _ => .anything) (typedefDeclarator specs declarator id start)
      (typedefDeclarator specs declarator id start) :=
  (disregards_declare _ _ _).ignores.inside fun _ _ => .addNode fun _ next _ _ =>
    ignores_pure _ next

theorem ignores_initializer (declarator : Declarator) :
    Ignores sequel old (fun _ => .anything) (initializer declarator) (initializer declarator) := by
  refine .ite (ignores_pure _) ((ignores_eatInside rfl).inside fun _ => .ite ?_ fun state => ?_)
  · exact (ignores_skipExpression _).short fun _ => ignores_pure _
  · exact .check (.ite (fun _ => (ignores_skipGroup state).short fun _ => ignores_pure _)
      fun _ => ignores_pure _ state)

theorem ignores_variableDeclarator (specs : DeclSpecs) (declarator : Declarator)
    (id : DeclaratorId) (start : Span) :
    Ignores sequel old (fun _ => .anything) (variableDeclarator specs declarator id start)
      (variableDeclarator specs declarator id start) := by
  have rest : Ignores sequel old (fun _ => .anything)
      (do
        let hasInitializer ← initializer declarator
        let scope ← qualifierScope id
        let declarationOnly ← isDeclarationOnly specs id hasInitializer
        let symbol ← declare
          { name := id.name
            kind := .var
            defined := !declarationOnly
            specialization := id.hasArguments } scope id.span
        let node ← addNode
          (.var ⟨id.name, id.qualifier.map Qualifier.text, specs.typeRef declarator,
            specs.specifiers, symbol, hasInitializer⟩) start
        return ⟨some node, false⟩ : ParseM InitDeclarator)
      (do
        let hasInitializer ← initializer declarator
        let scope ← qualifierScope id
        let declarationOnly ← isDeclarationOnly specs id hasInitializer
        let symbol ← declare
          { name := id.name
            kind := .var
            defined := !declarationOnly
            specialization := id.hasArguments } scope id.span
        let node ← addNode
          (.var ⟨id.name, id.qualifier.map Qualifier.text, specs.typeRef declarator,
            specs.specifiers, symbol, hasInitializer⟩) start
        return ⟨some node, false⟩) := by
    have inClass (hasInitializer : Bool) :
        Disregards sequel old (isDeclarationOnly specs id hasInitializer)
          (isDeclarationOnly specs id hasInitializer) :=
      disregards_className?.bind fun _ => .pure _
    exact (ignores_initializer _).short fun _ => (disregards_qualifierScope id).ignores.inside
      fun _ => (inClass _).ignores.inside fun _ => (disregards_declare _ _ _).ignores.inside
        fun _ _ => .addNode fun _ next _ _ => ignores_pure _ next
  exact (ignores_eatInside rfl).inside fun _ =>
    .ite ((ignores_skipExpression _).short fun _ => rest) rest

theorem ignores_dataDeclarator (specs : DeclSpecs) (declarator : Declarator)
    (id : DeclaratorId) (start : Span) :
    Ignores sequel old (fun _ => .anything) (dataDeclarator specs declarator id start)
      (dataDeclarator specs declarator id start) :=
  .ite (ignores_refuse _ _) (.ite (ignores_typedefDeclarator _ _ _ _)
    (ignores_variableDeclarator _ _ _ _))

/-- What is known at the end of the text of a declarator and what follows it: a body ends the
declaration. -/
def behindDeclarator (declared : InitDeclarator) : AtEnd :=
  if declared.hasBody then .same else .anything

/-- At the end of the text a function has neither a mark nor a body. -/
theorem leads_bodiless {result : Option (Specifier × Bool) → Bool → ParseM InitDeclarator}
    (ends : state.cursor.peek.kind = .eof)
    (bodiless : Leads (result none false) state (fun declared _ => declared.hasBody = false)
      fun _ => True) :
    Leads (do
      let given ← functionMark
      let hasBody ← bodyAhead
      result given hasBody) state (fun declared _ => declared.hasBody = false) fun _ => True := by
  have mark : functionMark state = .ok none state := by
    change (if state.cursor.peek.kind == .punct .equal then _ else pure none :
      ParseM (Option (Specifier × Bool))) state = _
    rw [ends]
    rfl
  refine (leads_of_ok mark).2 ?_
  unfold bodyAhead
  simp only [bind_assoc]
  refine leads_peek.2 ?_
  rw [ends]
  exact bodiless

/-- A declarator that comes to the end of the text does so without a body. -/
theorem concludes_bodiless {parse longerParse : ParseM InitDeclarator}
    (bodiless : Leads parse state (fun declared _ => declared.hasBody = false) fun _ => True) :
    Concludes sequel old .anything behindDeclarator parse longerParse state :=
  fun _ => bodiless.imp fun declared _ without => .inr (by
    change behindDeclarator declared = .anything
    rw [behindDeclarator, without]
    rfl)

theorem ignores_functionRest (ignore : rules.Ignore sequel longer) (specs : DeclSpecs)
    (declarator : Declarator) (id : DeclaratorId) (parameters : List ParsedParameter)
    (start : Span) :
    Ignores sequel old behindDeclarator (functionRest rules specs declarator id parameters start)
      (functionRest longer specs declarator id parameters start) := by
  have items (tail : FunctionTail) : Ignores sequel old (fun _ => .anything)
      (iterate (functionItem rules) tail) (iterate (functionItem longer) tail) :=
    .iterateShort (ignores_functionItem ignore) tail
  refine fun state => (items _ state).bind (fun tail next _ => ?_)
    fun tail next approaches spent => concludes_bodiless ?_
  · refine (ignores_functionMark.inside fun given => ignores_bodyAhead.inside fun hasBody =>
      (disregards_qualifierScope id).ignores.inside fun scope =>
        (disregards_declare _ _ _).ignores.inside fun symbol _ =>
          .addNode fun node _ _ new => ?_) next
    refine ((ignores_addParameters node symbol parameters).inside fun _ =>
      .ite (fun state => ?_) (ignores_pure _)) _
    refine (ignores_functionBody new state).weaken fun declared agrees same => ?_
    unfold behindDeclarator
    split
    · exact same
    · trivial
  · exact leads_bodiless (approaches.sound.peek_eof_iff.2 spent) (leads_whatever fun _ _ =>
      leads_whatever fun _ _ => leads_whatever fun _ _ => leads_whatever fun _ _ => rfl)

theorem leads_functionRest_spent (ignore : rules.Ignore sequel longer)
    (approaches : state.cursor.Approaches sequel) (spent : state.cursor.unread = [])
    (specs : DeclSpecs) (declarator : Declarator) (id : DeclaratorId)
    (parameters : List ParsedParameter) (start : Span) :
    Leads (functionRest rules specs declarator id parameters start) state
      (fun declared _ => declared.hasBody = false) fun _ => True := by
  have items (tail : FunctionTail) : Ignores sequel 0 (fun _ => .anything)
      (iterate (functionItem rules) tail) (iterate (functionItem longer) tail) :=
    .iterateShort (ignores_functionItem ignore) tail
  refine (((items _).proceeding state (Nat.zero_le _)).mono (fun _ _ further => further)
    fun _ _ => trivial).bind
    fun tail next goesOn => ?_
  have ends := (approaches.moves goesOn.moves).sound.peek_eof_iff.2 (goesOn.moves.spent spent)
  exact leads_bodiless ends (leads_whatever fun _ _ => leads_whatever fun _ _ =>
    leads_whatever fun _ _ => leads_whatever fun _ _ => rfl)

theorem ignores_initDeclarator (ignore : rules.Ignore sequel longer) (specs : DeclSpecs)
    (start : Span) :
    Ignores sequel old behindDeclarator (initDeclarator rules specs start)
      (initDeclarator longer specs start) := by
  have data (declarator : Declarator) (id : DeclaratorId) : Ignores sequel old behindDeclarator
      (dataDeclarator specs declarator id start) (dataDeclarator specs declarator id start) :=
    fun state => (ignores_dataDeclarator specs declarator id start state).telling
      (fun large => leads_dataDeclarator large specs declarator id start)
      fun declared _ agrees facts _ => by
        rw [behindDeclarator, facts.2]
        trivial
  refine fun state => (ignores_declarator ignore _ state).bind (fun declarator next _ => ?_)
    fun declarator next approaches spent => concludes_bodiless ?_
  · split
    · exact ignores_refuseName next
    · split
      · exact (Ignores.ite (data _ _) (ignores_functionRest ignore _ _ _ _ _)) next
      · exact data _ _ next
  · have without (id : DeclaratorId) : Leads (dataDeclarator specs declarator id start) next
        (fun declared _ => declared.hasBody = false) fun _ => True :=
      (leads_dataDeclarator (Nat.zero_le _) specs declarator id start).imp fun _ _ both => both.2
    split
    · trivial
    · split
      · split
        · exact without _
        · exact leads_functionRest_spent ignore approaches spent _ _ _ _ _
      · exact without _

theorem leads_initDeclarator (ignore : rules.Ignore sequel longer) (large : old ≤ state.tree.size)
    (specs : DeclSpecs) (start : Span) :
    Leads (initDeclarator rules specs start) state (fun declared _ => LeavesNew old declared)
      fun _ => True := by
  have named : Ignores sequel old (fun _ => .anything) (declarator rules .named)
      (declarator longer .named) := ignores_declarator ignore .named
  have data {next : ParseState} (large : old ≤ next.tree.size) (declarator : Declarator)
      (id : DeclaratorId) : Leads (dataDeclarator specs declarator id start) next
        (fun declared _ => LeavesNew old declared) fun _ => True :=
    (leads_dataDeclarator large specs declarator id start).imp fun _ _ both => both.1
  refine named.proceeding.leads_bind large fun declarator next large => ?_
  split
  · trivial
  · split
    · split
      · exact data large _ _
      · exact leads_functionRest ignore large _ _ _ _ _
    · exact data large _ _

/-! ## Simple declarations -/

theorem disregards_finishDeclarator {declared : InitDeclarator} (new : LeavesNew old declared) :
    Disregards sequel old (finishDeclarator declared) (finishDeclarator declared) := by
  unfold finishDeclarator
  split
  · rename_i node found
    exact disregards_finishNode (new node found)
  · exact .pure ()

theorem ignores_declaratorItem (ignore : rules.Ignore sequel longer) (specs : DeclSpecs)
    (start : Span) :
    Ignores sequel old (AtEnd.ofStep .never fun _ => .same) (declaratorItem rules specs start)
      (declaratorItem longer specs start) := by
  intro state large
  refine IgnoresFrom.knowing (ignores_initDeclarator ignore specs start state)
    (leads_initDeclarator ignore large specs start) (fun declared next _ new => ?_)
    (fun declared next new approaches spent => ?_) large
  · refine .ite (fun _ => ignores_pure _ next) fun _ => .check (.ite (fun comma => ?_) fun _ => ?_)
    · have finishes : IgnoresFrom sequel old (fun _ => .never) (finishDeclarator declared)
          (finishDeclarator declared) next := (disregards_finishDeclarator new).ignores next
      refine finishes.knowing (leads_finishDeclarator declared next) (fun _ last _ same => ?_)
        fun _ _ _ _ _ => concludes_never
      refine (ignoresFrom_nextInside ?_).inside fun _ _ => .peek (ignores_pure _ _)
      rw [same.1, eq_of_beq comma]
      rfl
    · have terminated : IgnoresFrom sequel old (fun _ => .same)
          (do
            let terminated ← attempt (expect (.punct .semicolon))
            finishDeclarator declared
            let _ ← resume terminated
            return Step.done ())
          (do
            let terminated ← attempt (expect (.punct .semicolon))
            finishDeclarator declared
            let _ ← resume terminated
            return Step.done ()) next :=
        (ignores_expect _ next).attemptEnding (fun outcome => (disregards_finishDeclarator new).bind
          fun _ => (disregards_resume outcome).bind fun _ => .pure (.done () : Step Span Unit))
          fun error _ => leads_whatever fun _ _ => trivial
      refine terminated.telling
        (fun _ => (?_ : Leads _ next (fun outcome _ => outcome = Step.done ()) _)) ?_
      · exact leads_whatever fun _ _ => leads_whatever fun _ _ => leads_whatever fun _ _ => rfl
      · rintro _ _ agrees rfl same
        exact same
  · cases body : declared.hasBody with
    | true =>
        rw [behindDeclarator, body]
        exact concludes_pure rfl
    | false =>
        have ends := approaches.sound.peek_eof_iff.2 spent
        refine fun _ => leads_check.2 ?_
        rw [ends]
        exact leads_attempt_missing ends (by simp) fun error _ => leads_whatever fun _ _ => trivial

theorem disregards_declareForward (forward : ForwardTag) :
    Disregards sequel old (declareForward forward) (declareForward forward) :=
  (disregards_pathScope _).bind fun _ => (disregards_declare _ _ _).bind fun _ => .pure ()

theorem disregards_declareForwards (specs : DeclSpecs) : Disregards sequel old
    (match specs.forward with
      | some forward => declareForward forward
      | none => return ())
    (match specs.forward with
      | some forward => declareForward forward
      | none => return ()) := by
  split
  · exact disregards_declareForward _
  · exact .pure ()

theorem ignores_simpleDeclaration (ignore : rules.Ignore sequel longer) (start : Span) :
    Ignores sequel old (fun _ => .same) (simpleDeclaration rules start)
      (simpleDeclaration longer start) := by
  have declarators (specs : DeclSpecs) : Ignores sequel old (fun _ => .same)
      (iterate (declaratorItem rules specs) start) (iterate (declaratorItem longer specs) start) :=
    ignores_iterate (ignores_declaratorItem ignore specs)
      (fun _ _ _ _ _ _ _ => concludes_never) start
  refine (ignores_specifiers ignore _).inside fun specs => .ite ignores_synchronize fun state => ?_
  refine (ignores_eat _ state).bind (fun read next _ => ?_) fun read next approaches spent => ?_
  · exact .ite (fun _ => (disregards_declareForwards specs).ignores next) fun _ =>
      declarators specs next
  · cases read with
    | true => exact (disregards_declareForwards specs next).concludes approaches
    | false => exact concludes_never

end ParseM

end DeclTree
