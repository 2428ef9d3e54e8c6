import DeclTree.Proofs.BalancedDeclarations
import DeclTree.Proofs.IgnoredFunctions

/-!
# Declarations in front of a sequel

Every form of declaration ends with a semicolon or a brace that is its own.  Recovery is the only
part that goes on without looking for its end, and it stops in front of the sequel as well, unless
what has been read before it already ended the text.
-/

namespace DeclTree

namespace ParseM

variable {α β : Type} {sequel : Sequel} {old : Nat} {state : ParseState} {rules longer : Rules}

/-! ## Templates -/

theorem ignores_parameterName :
    Ignores sequel old (fun _ => .never) parameterName parameterName :=
  (ignores_eatInside rfl).inside fun _ _ => .peek
    (((ignores_eatInside rfl).inside fun _ => .ite (ignores_pure _) (ignores_pure _)) _)

theorem ignoresFrom_typeParameter {word : Keyword}
    (peek : state.cursor.peek.kind = .keyword word) :
    IgnoresFrom sequel old (fun _ => .never) typeParameter typeParameter state :=
  (ignoresFrom_nextInside (peek ▸ rfl)).inside fun _ =>
    ignores_parameterName.inside fun _ => ignores_pure _

theorem ignoresFrom_templateTemplateParameter {word : Keyword}
    (peek : state.cursor.peek.kind = .keyword word) :
    IgnoresFrom sequel old (fun _ => .never) templateTemplateParameter templateTemplateParameter
      state := by
  refine (ignoresFrom_nextInside (peek ▸ rfl)).inside fun _ =>
    ignores_skipTemplateArguments.inside fun _ next => .peek (.ite (fun words => ?_) fun _ =>
      ignores_refuse _ _ next)
  refine (ignoresFrom_nextInside ?_).inside fun _ =>
    ignores_parameterName.inside fun _ => ignores_pure _
  rcases words with found | found <;> rw [found] <;> rfl

theorem ignores_valueParameter (ignore : rules.Ignore sequel longer) (token : Token) :
    Ignores sequel old (fun _ => .anything) (valueParameter rules token)
      (valueParameter longer token) :=
  (ignores_specifiers ignore _).inside fun _ => .ite (ignores_refused _ _)
    ((ignores_declarator ignore _).short fun _ => ignores_pure _)

theorem ignoresFrom_dependentTypeAhead
    (inner : state.cursor.peek.kind.endsDeclaration = false) :
    IgnoresFrom sequel old (fun _ => .never) dependentTypeAhead dependentTypeAhead state := by
  refine .checkSecond inner ?_
  change IgnoresFrom sequel old (fun _ => .never)
    (ahead 2 >>= fun token => pure (_ && token.kind == .punct .colonColon))
    (ahead 2 >>= fun token => pure (_ && token.kind == .punct .colonColon)) state
  by_cases name : (state.cursor.ahead 1).kind = .identifier
  · exact .ahead (fun approaches more => approaches.two_lt_length
      (approaches.one_lt_length more inner) (by rw [name]; rfl)) (ignores_pure _ state)
  · have other : ((state.cursor.ahead 1).kind == .identifier) = false := by simpa using name
    rw [other]
    exact .unheeded fun _ => ignores_pure false state

theorem ignores_parameterHead (ignore : rules.Ignore sequel longer) :
    Ignores sequel old (fun _ => .anything) (parameterHead rules) (parameterHead longer) := by
  refine fun state => .peek ?_
  split
  iterate 2
    · rename_i peek
      refine (ignoresFrom_dependentTypeAhead (by rw [peek]; rfl)).knowing
        (looks_dependentTypeAhead state) ?_ fun _ _ _ _ _ => concludes_never
      rintro _ next - ⟨rfl, -⟩
      exact .ite (fun _ => ignores_valueParameter ignore _ next) fun _ =>
        (ignoresFrom_typeParameter peek).anyway
  · rename_i peek
    exact (ignoresFrom_templateTemplateParameter peek).anyway
  · exact ignores_valueParameter ignore _ state

theorem ignores_templateParameter (ignore : rules.Ignore sequel longer) (node : NodeId)
    (template : SymbolId) :
    Ignores sequel old (fun _ => .anything) (templateParameter rules node template)
      (templateParameter longer node template) := by
  have rest (start : Span) (head : ParameterHead) (hasDefault : Bool) :
      Ignores sequel old (fun _ => .anything)
        (do
          let unit ← unit
          let symbol ← changeTable start fun table =>
            table.addParameter template
              { name := head.name.getD "", kind := .templateParameter head.kind, unit := some unit }
          let parameter ← addNodeUnder node
            (.templateParameter ⟨head.name, head.kind, head.type, some symbol, hasDefault,
              head.isVariadic⟩) start
          finishNode parameter
          modify fun state => { state with
            tree := state.tree.updateTemplate node (TemplateDecl.addParameter · parameter) })
        (do
          let unit ← unit
          let symbol ← changeTable start fun table =>
            table.addParameter template
              { name := head.name.getD "", kind := .templateParameter head.kind, unit := some unit }
          let parameter ← addNodeUnder node
            (.templateParameter ⟨head.name, head.kind, head.type, some symbol, hasDefault,
              head.isVariadic⟩) start
          finishNode parameter
          modify fun state => { state with
            tree := state.tree.updateTemplate node (TemplateDecl.addParameter · parameter) }) := by
    refine disregards_unit.ignores.inside fun _ => (disregards_changeTable _ _).ignores.inside
      fun _ _ => .addNodeUnder fun parameter next _ new => ?_
    refine ((disregards_finishNode new).bind fun _ => .changes ?_ ?_ ?_).ignores next
    · exact fun state => .updateTemplate node _
    · exact fun _ => rfl
    · exact fun _ => rfl
  exact fun _ => .peek (((ignores_parameterHead ignore).short fun _ =>
    (ignores_eat _).short fun _ =>
    .ite (ignores_skipParameterDefault.inside fun _ => rest _ _ _) (rest _ _ _)) _)

/-- The end of a template parameter list has to be there. -/
theorem concludes_expectClosingAngle {known : AtEnd} {further : ParseM Unit}
    {ending : Unit → AtEnd} (approaches : state.cursor.Approaches sequel)
    (spent : state.cursor.unread = []) :
    Concludes sequel old known ending expectClosingAngle further state := by
  have ends : state.cursor.peek.kind = .eof := approaches.sound.peek_eof_iff.2 spent
  refine fun _ => leads_check.2 ?_
  rw [ends]
  exact leads_expect (fun found => by cases found.symm.trans ends) fun _ => trivial

theorem ignores_templateParameters (ignore : rules.Ignore sequel longer) (node : NodeId)
    (template : SymbolId) :
    Ignores sequel old (fun _ => .never) (templateParameters rules node template)
      (templateParameters longer node template) := by
  have item (round : Unit) : Ignores sequel old (fun _ => .anything)
      (templateParameterItem rules node template round)
      (templateParameterItem longer node template round) :=
    (ignores_templateParameter ignore _ _).short fun _ => (ignores_eat _).short fun _ =>
      .ite (ignores_pure _) (ignores_pure _)
  have items : Ignores sequel old (fun _ => .anything)
      (iterate (templateParameterItem rules node template) ())
      (iterate (templateParameterItem longer node template) ()) := .iterateShort item ()
  refine (ignores_expectInside rfl).inside fun _ state => .check (.check (.ite
    (fun _ => ignores_expectClosingAngle state) fun _ => ?_))
  exact (items state).bind (fun _ next _ => ignores_expectClosingAngle next)
    fun _ _ approaches spent => concludes_expectClosingAngle approaches spent

theorem endsDeclaration_of_isLiteral {kind : TokenKind} (literal : kind.isLiteral = true) :
    kind.endsDeclaration = false := by
  cases kind with
  | punct => cases literal
  | _ => rfl

theorem ignores_constraintOperand (round : Unit) :
    Ignores sequel old (fun _ => .never) (constraintOperand round) (constraintOperand round) := by
  have rest : Ignores sequel old (fun _ => .never)
      (do
        if ← eat (.punct .ampAmp) then return .again ()
        else if ← eat (.punct .pipePipe) then return .again ()
        else return .done () : ParseM (Step Unit Unit))
      (do
        if ← eat (.punct .ampAmp) then return .again ()
        else if ← eat (.punct .pipePipe) then return .again ()
        else return .done ()) :=
    (ignores_eatInside rfl).inside fun _ => .ite (ignores_pure _)
      ((ignores_eatInside rfl).inside fun _ => .ite (ignores_pure _) (ignores_pure _))
  refine fun state => .peek (.ite (fun opens => ?_) fun _ => .ite (fun literal => ?_) fun _ => ?_)
  · exact (ignoresFrom_skipGroupInside (by rw [opens]; rfl) rfl).inside fun _ => rest
  · exact (ignoresFrom_nextInside (endsDeclaration_of_isLiteral literal)).inside fun _ => rest
  · exact (ignores_namePath state).inside fun _ => rest

theorem ignores_skipConstraint :
    Ignores sequel old (fun _ => .never) skipConstraint skipConstraint := by
  refine fun state => .checkWord (.ite (fun word => ?_) fun _ => ignores_pure () state)
  have kind := eq_of_beq (Bool.and_eq_true_iff.1 word).1
  exact (ignoresFrom_nextInside (kind ▸ rfl)).inside fun _ => .iterate ignores_constraintOperand ()

theorem ignores_templatedDeclaration (ignore : rules.Ignore sequel longer) :
    Ignores sequel old (fun _ => .same) (templatedDeclaration rules)
      (templatedDeclaration longer) :=
  ignores_skipConstraint.inside fun _ state => .peek (.ite
    (fun _ => (ignore.templateDeclaration _ _ _ state).disregarding fun _ => .pure _) fun _ => .ite
      (fun _ => (ignores_synchronize state).disregarding fun _ => .pure _)
        fun _ => (ignore.declaration _ state).disregarding fun _ => .pure _)

theorem disregards_prefixFactory (span : Span) :
    Disregards sequel old (prefixFactory span) (prefixFactory span) := by
  refine disregards_frame.bind fun frame => ?_
  split
  · exact .pure _
  · exact (disregards_changeTable _ _).bind fun _ => .pure _

theorem disregards_discardPending (factory : FactoryId) (template : SymbolId) (start : Span)
    (parsed : Except ParseError Bool) :
    Disregards sequel old (discardPending factory template start parsed)
      (discardPending factory template start parsed) := by
  refine disregards_table.bind fun table => .ite ((disregards_setTable _).bind fun _ => ?_)
    (.pure ())
  split
  · exact disregards_complain _ _
  · exact .pure ()

theorem disregards_bindOwned (node : NodeId) :
    Disregards sequel old (bindOwned node) (bindOwned node) := by
  intro state
  refine .get ?_
  have same : (state.followedBy sequel).tree = state.tree := rfl
  simp only [same]
  cases owned : ownedSymbol? state.tree node with
  | none => exact Disregards.pure () state
  | some symbol =>
      cases found : (state.tree.get? node).bind fun found => found.kind.templateDecl? with
      | none => exact Disregards.pure () state
      | some declaration =>
          cases bound : declaration.bind symbol with
          | ok bound =>
              simp only [bound]
              exact fun _ => ⟨.updateTemplate node _, fun _ => .inr ⟨rfl, rfl⟩⟩
          | error error =>
              simp only [bound]
              exact fun _ => ⟨.report _, fun _ => .inl (.inl (by simp))⟩

theorem ignores_openedTemplate (ignore : rules.Ignore sequel longer) (start : Span)
    (exported : Bool) :
    Ignores sequel old (fun _ => .same) (openedTemplate rules start exported)
      (openedTemplate longer start exported) := by
  have content (node : NodeId) (template : SymbolId) : Ignores sequel old (fun _ => .same)
      (templateContent rules node template) (templateContent longer node template) :=
    (ignores_templateParameters ignore _ _).inside fun _ => ignores_templatedDeclaration ignore
  refine (disregards_checkNesting _).ignores.inside fun _ =>
    (disregards_prefixFactory _).ignores.inside fun _ => disregards_unit.ignores.inside fun _ =>
      (disregards_changeTable _ _).ignores.inside fun template =>
        disregards_frame.ignores.inside fun _ _ => .addNode fun node next _ new => ?_
  refine ((disregards_pushScope _).ignores.inside fun _ state => ?_) next
  refine (content node template state).attemptEnding (fun parsed => ?_) fun error state => ?_
  · exact disregards_popScope.bind fun _ => (disregards_discardPending _ _ _ _).bind fun _ =>
      (disregards_bindOwned node).bind fun _ => (disregards_finishNode new).bind fun _ =>
        (disregards_resume parsed).bind fun _ => .pure ()
  · exact leads_whatever fun _ _ => leads_whatever fun _ _ => leads_whatever fun _ _ =>
      leads_whatever fun _ _ => trivial

theorem ignores_templateDeclaration (ignore : rules.Ignore sequel longer) (start : Span)
    (exported : Bool) :
    Ignores sequel old (fun _ => .same) (templateDeclaration rules start exported)
      (templateDeclaration longer start exported) :=
  (ignores_expectInside rfl).inside fun _ _ => .check (.ite
    (fun _ => ignores_openedTemplate ignore _ _ _) fun _ => ignores_synchronize _)

/-! ## Namespaces and linkage blocks -/

theorem ignores_openNamespace (start : Span) (name : String) (isInline : Bool) :
    Ignores sequel old (fun _ => .never) (openNamespace start name isInline)
      (openNamespace start name isInline) := by
  have rest (symbol : SymbolId) : Ignores sequel old (fun _ => .never)
      (do
        let node ← addNode (.namespaceScope ⟨name, isInline, symbol⟩) start
        pushScope ⟨node, symbol, .container, .namespaceScope⟩
        return node)
      (do
        let node ← addNode (.namespaceScope ⟨name, isInline, symbol⟩) start
        pushScope ⟨node, symbol, .container, .namespaceScope⟩
        return node) :=
    fun _ => .addNode fun _ next _ _ =>
      ((disregards_pushScope _).bind fun _ => .pure _).ignores next
  exact (disregards_checkNesting _).ignores.inside fun _ => disregards_lookupScope.ignores.inside
    fun _ => disregards_unit.ignores.inside fun _ => (disregards_changeTable _ _).ignores.inside
      fun _ => .ite (disregards_table.ignores.inside fun _ =>
        (disregards_setTable _).ignores.inside fun _ => rest _) (rest _)

theorem leads_openNamespace_new (large : old ≤ state.tree.size) (start : Span) (name : String)
    (isInline : Bool) :
    Leads (openNamespace start name isInline) state (fun node _ => old ≤ node.index)
      fun _ => True := by
  have rest {next : ParseState} (large : old ≤ next.tree.size) (symbol : SymbolId) :
      Leads (do
        let node ← addNode (.namespaceScope ⟨name, isInline, symbol⟩) start
        pushScope ⟨node, symbol, .container, .namespaceScope⟩
        return node) next (fun node _ => old ≤ node.index) fun _ => True :=
    leads_addNode large fun _ _ new => leads_whatever fun _ _ => new
  refine leads_resting (.reads (onlyReads_checkNesting _)) large fun _ _ large =>
    leads_resting (.reads onlyReads_lookupScope) large fun _ _ large => leads_unit.2 ?_
  refine leads_resting (resting_changeTable _ _) large fun _ _ large => ?_
  split
  · exact leads_table.2 (leads_resting (resting_setTable _) large fun _ _ large => rest large _)
  · exact rest large _

theorem disregards_closeNamespaces {nodes : List NodeId} (new : ∀ node ∈ nodes, old ≤ node.index) :
    Disregards sequel old (closeNamespaces nodes) (closeNamespaces nodes) := by
  induction nodes with
  | nil => exact .pure ()
  | cons node outer ih =>
      exact disregards_popScope.bind fun _ =>
        (disregards_finishNode (new node List.mem_cons_self)).bind fun _ =>
          ih fun other member => new other (List.mem_cons_of_mem node member)

/-- Namespaces that are entered, and what follows. -/
theorem IgnoresFrom.openNamespaces {start : Span} {rest further : List NodeId → ParseM β}
    {ending : β → AtEnd}
    (following : ∀ nodes next, (∀ node ∈ nodes, old ≤ node.index) →
      IgnoresFrom sequel old ending (rest nodes) (further nodes) next)
    (segments : List (String × Bool)) {entered : List NodeId}
    (new : ∀ node ∈ entered, old ≤ node.index) :
    IgnoresFrom sequel old ending (ParseM.openNamespaces start entered segments >>= rest)
      (ParseM.openNamespaces start entered segments >>= further) state := by
  induction segments generalizing entered state with
  | nil => exact following entered state new
  | cons segment segments ih =>
      intro large
      unfold ParseM.openNamespaces
      simp only [bind_assoc]
      refine (ignores_openNamespace _ _ _ state).attemptKnowing
        (leads_openNamespace_new large _ _ _) (fun node next _ fresh => ?_)
        (fun _ _ _ _ _ => concludes_never) (fun error => ?_) large
      · refine ih fun other member => ?_
        rcases List.mem_cons.1 member with rfl | old
        · exact fresh
        · exact new other old
      · have closes : Disregards sequel old (closeNamespaces entered) (closeNamespaces entered) :=
          disregards_closeNamespaces new
        simp only [bind_assoc]
        exact .behind closes.proceeding fun _ => .resumed error

theorem ignores_namespaceSegments (isInline : Bool) :
    Ignores sequel old (fun _ => .never) (namespaceSegments isInline)
      (namespaceSegments isInline) := by
  have segment (segments : List (String × Bool)) : Ignores sequel old (fun _ => .never)
      (namespaceSegment segments) (namespaceSegment segments) :=
    (ignores_eatInside rfl).inside fun _ => .ite ((ignores_eatInside rfl).inside fun _ =>
      ignores_expectIdentifier.inside fun _ => ignores_pure _) (ignores_pure _)
  exact fun state => .peek (((ignores_eatInside rfl).inside fun _ =>
    .ite (.iterate segment _) (ignores_pure _)) state)

/-- A closing brace that may be missing, and what follows without reading anything. -/
theorem ignores_closingBrace {rest further : Bool → ParseM β}
    (following : ∀ read, Disregards sequel old (rest read) (further read)) :
    Ignores sequel old (fun _ => .same) (eat (.punct .rightBrace) >>= rest)
      (eat (.punct .rightBrace) >>= further) := by
  refine fun state => (ignores_eat _ state).bind (fun read next _ => (following read).ignores next)
    fun read next approaches _ => ?_
  cases read with
  | true => exact (following true next).concludes approaches
  | false => exact concludes_never

theorem ignores_namespaceBody (ignore : rules.Ignore sequel longer) (start : Span)
    (isInline : Bool) :
    Ignores sequel old (fun _ => .same) (namespaceBody rules start isInline)
      (namespaceBody longer start isInline) := by
  refine (ignores_namespaceSegments _).inside fun segments => ignores_skipAttributes.inside
    fun _ state => .check ?_
  have content {next : ParseState} : IgnoresFrom sequel old (fun _ => .same)
      (do
        let nodes ← openNamespaces start [] segments
        let _ ← expect (.punct .leftBrace)
        rules.declarations true
        let _ ← eat (.punct .rightBrace)
        closeNamespaces nodes)
      (do
        let nodes ← openNamespaces start [] segments
        let _ ← expect (.punct .leftBrace)
        longer.declarations true
        let _ ← eat (.punct .rightBrace)
        closeNamespaces nodes) next :=
    .openNamespaces (fun nodes next new => ((ignores_expectInside rfl).inside fun _ =>
      (ignore.declarations _).inside fun _ => ignores_closingBrace fun _ =>
        disregards_closeNamespaces new) next) segments (by simp)
  refine .ite (fun _ => ?_) fun _ => content
  exact (ignores_expectInside rfl state).inside fun _ _ => content

theorem ignores_namespaceDeclaration (ignore : rules.Ignore sequel longer) (start : Span)
    (isInline : Bool) :
    Ignores sequel old (fun _ => .same) (namespaceDeclaration rules start isInline)
      (namespaceDeclaration longer start isInline) :=
  (ignores_expectInside rfl).inside fun _ => ignores_skipAttributes.inside fun _ state =>
    .checkBoth rfl (fun _ _ => ignores_synchronize state) (ignores_namespaceBody ignore _ _ state)

theorem ignores_linkageContent (ignore : rules.Ignore sequel longer) :
    Ignores sequel old (fun _ => .same) (linkageContent rules) (linkageContent longer) :=
  (ignores_eatInside rfl).inside fun _ => .ite ((ignore.declarations _).inside fun _ =>
    ignores_closingBrace fun _ => .pure ()) (ignore.declaration _)

theorem ignores_linkageDeclaration (ignore : rules.Ignore sequel longer) (start : Span) :
    Ignores sequel old (fun _ => .same) (linkageDeclaration rules start)
      (linkageDeclaration longer start) := by
  refine (ignores_expectInside rfl).inside fun _ => (ignores_expectInside rfl).inside fun _ =>
    (disregards_checkNesting _).ignores.inside fun _ => disregards_lookupScope.ignores.inside
      fun _ _ => .addNode fun node next _ new => ?_
  refine ((disregards_pushScope _).ignores.inside fun _ state => ?_) next
  refine (ignores_linkageContent ignore state).attemptEnding (fun result => ?_)
    fun error state => ?_
  · exact disregards_popScope.bind fun _ => (disregards_finishNode new).bind fun _ =>
      disregards_resume result
  · exact leads_whatever fun _ _ => leads_whatever fun _ _ => trivial

theorem ignoresFrom_exportedDeclarations (ignore : rules.Ignore sequel longer)
    (peek : state.cursor.peek.kind = .keyword .exportKw) :
    IgnoresFrom sequel old (fun _ => .same) (exportedDeclarations rules)
      (exportedDeclarations longer) state :=
  (ignoresFrom_nextInside (peek ▸ rfl)).inside fun _ => (ignores_eatInside rfl).inside fun _ =>
    .ite ((ignore.declarations _).inside fun _ => (ignores_expect _).disregarding fun _ => .pure ())
      (ignore.declaration _)

/-! ## Using declarations -/

theorem disregards_resolveNamespace? (path : NamePath) :
    Disregards sequel old (resolveNamespace? path) (resolveNamespace? path) := by
  refine (disregards_resolve? path).bind fun found => ?_
  split
  · exact .pure _
  · refine disregards_table.bind fun table => ?_
    split
    · split <;> exact .pure _
    · exact .stuck

theorem ignores_usingDirective (start : Span) :
    Ignores sequel old (fun _ => .same) (usingDirective start) (usingDirective start) := by
  have named (path : NamePath) (target : Option SymbolId) (outcome : Except ParseError Token) :
      Disregards sequel old
        (do
          let node ← addNode (.usingDirective ⟨path.text, target⟩) start
          finishNode node
          let _ ← resume outcome)
        (do
          let node ← addNode (.usingDirective ⟨path.text, target⟩) start
          finishNode node
          let _ ← resume outcome) :=
    fun _ => .addNode fun _ next new => ((disregards_finishNode new).bind fun _ =>
      (disregards_resume outcome).bind fun _ => .pure ()) next
  have refused (path : NamePath) (target : Option SymbolId) (error : ParseError)
      {state : ParseState} : Leads (do
        let node ← addNode (.usingDirective ⟨path.text, target⟩) start
        finishNode node
        let _ ← resume (.error error : Except ParseError Token)) state (fun _ _ => False)
        fun _ => True :=
    leads_whatever fun _ _ => leads_whatever fun _ _ => trivial
  refine ignores_namePath.inside fun path state => ?_
  refine (ignores_expect _ state).attemptEnding (fun outcome => ?_) fun error state => ?_
  · refine disregards_lookupScope.bind fun scope => (disregards_resolveNamespace? path).bind
      fun target => ?_
    split
    · exact disregards_table.bind fun _ => (disregards_setTable _).bind fun _ => named _ _ outcome
    · exact named _ _ outcome
  · refine leads_whatever fun _ _ => leads_whatever fun target _ => ?_
    split
    · exact leads_whatever fun _ _ => leads_whatever fun _ _ => refused _ _ _
    · exact refused _ _ _

theorem ignores_aliasDeclaration (ignore : rules.Ignore sequel longer) (start : Span) :
    Ignores sequel old (fun _ => .same) (aliasDeclaration rules start)
      (aliasDeclaration longer start) := by
  refine ignores_expectIdentifier.inside fun name => ignores_skipAttributes.inside fun _ =>
    (ignores_expectInside rfl).inside fun _ => (ignores_specifiers ignore _).inside fun specs =>
      .ite (fun _ => .peek (ignores_refused _ _ _)) fun state => ?_
  refine (ignores_declarator ignore _ state).bind (fun declarator next _ => ?_)
    fun declarator next approaches spent _ => ?_
  · refine ((disregards_declare _ _ _).ignores.inside fun _ _ => .addNode
      fun node last _ new => ?_) next
    refine (ignores_expect _ last).attemptEnding (fun outcome => ?_) fun error state => ?_
    · exact (disregards_finishNode new).bind fun _ => (disregards_resume outcome).bind
        fun _ => .pure ()
    · exact leads_whatever fun _ _ => trivial
  · refine ((resting_declare _ _ _ next).mono (fun _ _ rests => rests) fun _ _ => trivial).bind
      fun _ middle rests => ?_
    have ends := (approaches.moves rests.moves).sound.peek_eof_iff.2 (rests.moves.spent spent)
    unfold addNode
    simp only [bind_assoc, leads_frame]
    refine (leads_addNodeUnder_present middle _ _ _).bind ?_
    rintro node last ⟨_, added⟩
    obtain ⟨rfl, rfl⟩ := Prod.mk.inj added
    exact leads_attempt_missing ends (by simp) fun _ _ => leads_whatever fun _ _ => trivial

theorem ignores_aliasAhead : Ignores sequel old (fun _ => .never) aliasAhead aliasAhead := by
  intro state
  by_cases name : state.cursor.peek.kind = .identifier
  · exact .second (by rw [name]; rfl) (.check (ignores_pure _ state))
  · have other : (state.cursor.peek.kind == .identifier) = false := by simpa using name
    refine .unheeded fun _ => .check ?_
    rw [other]
    exact ignores_pure false state

theorem ignores_usingDeclaration (ignore : rules.Ignore sequel longer) (start : Span) :
    Ignores sequel old (fun _ => .same) (usingDeclaration rules start)
      (usingDeclaration longer start) :=
  (ignores_expectInside rfl).inside fun _ => (ignores_eatInside rfl).inside fun _ =>
    .ite (ignores_usingDirective start) (ignores_aliasAhead.inside fun _ =>
      .ite (ignores_aliasDeclaration ignore start) ignores_synchronize)

/-! ## Declarations -/

theorem ignoresFrom_keywordDeclaration (ignore : rules.Ignore sequel longer) {word : Keyword}
    (peek : state.cursor.peek.kind = .keyword word) (start : Span) :
    IgnoresFrom sequel old (fun _ => .same)
      (keywordDeclaration rules start word (state.cursor.ahead 1).kind)
      (keywordDeclaration longer start word (state.cursor.ahead 1).kind) state := by
  have inner : state.cursor.peek.kind.endsDeclaration = false := by rw [peek]; rfl
  have simple : IgnoresFrom sequel old (fun _ => .same) (simpleDeclaration rules start)
      (simpleDeclaration longer start) state := ignores_simpleDeclaration ignore start state
  have given : IgnoresFrom sequel old (fun _ => .same) synchronize synchronize state :=
    ignores_synchronize state
  unfold keywordDeclaration
  split
  · exact ignores_namespaceDeclaration ignore _ _ state
  · exact .ite (fun _ => (ignoresFrom_nextInside inner).inside fun _ =>
      ignores_namespaceDeclaration ignore _ _) fun _ => simple
  · exact .ite (fun _ => ignores_linkageDeclaration ignore _ state) fun _ =>
      .ite (fun _ => given) fun _ => simple
  · exact .ite (fun _ => (ignoresFrom_nextInside inner).inside fun _ =>
      ignores_templateDeclaration ignore _ _) fun _ => ignoresFrom_exportedDeclarations ignore peek
  · exact ignores_templateDeclaration ignore _ _ state
  · exact ignores_usingDeclaration ignore _ state
  iterate 2
    · exact given
  iterate 3
    · exact .ite (fun _ => ignoresFrom_skip fun approaches more =>
        approaches.one_lt_length more inner) fun _ => simple
  · exact simple

theorem ignores_declaration (ignore : rules.Ignore sequel longer) :
    Ignores sequel old (fun _ => .same) (declaration rules) (declaration longer) := by
  refine ignores_skipAttributes.inside fun _ state => .peek ?_
  by_cases ends : state.cursor.peek.kind.endsDeclaration = true
  · refine .unheeded fun _ => ?_
    rcases TokenKind.endsDeclaration_cases ends with kind | kind
    · rw [kind]
      exact ignoresFrom_next
    · rw [kind]
      exact ignores_simpleDeclaration ignore _ state
  · refine .second (Bool.eq_false_iff.2 ends) ?_
    split
    · exact ignoresFrom_next
    · rename_i word peek
      exact ignoresFrom_keywordDeclaration ignore peek _
    · exact .ite (fun _ => ignores_synchronize state) fun _ =>
        ignores_simpleDeclaration ignore _ state
    · exact ignores_simpleDeclaration ignore _ state

theorem ignores_declarationItem (ignore : rules.Ignore sequel longer) (closing : Bool)
    (round : Unit) :
    Ignores sequel old (AtEnd.ofStep .same fun _ => .never) (declarationItem rules closing round)
      (declarationItem longer closing round) := by
  refine fun state => .peek ?_
  split
  · exact .ite (fun _ => ((disregards_complain _ _).bind fun _ => .pure _).ignores state)
      fun _ => ignores_pure _ state
  · refine .ite (fun _ => ignores_pure _ state) fun _ => ?_
    exact (Spoils.behind (onlyReads_skip 1).proceeding fun _ => (Spoils.report _).bind
      fun _ => .pure _).ignores state
  · refine (ignores_declaration ignore state).attempt (fun _ next _ => ignores_pure _ next)
      (fun _ _ _ _ => concludes_pure rfl) fun error => (Spoils.report error).bind fun _ => ?_
    exact (OnlyReads.bind (by simp [synchronize]) fun _ => .pure _).proceeding

/-- A scope that is left open at the end of the text is reported. -/
theorem leads_unclosed (ends : state.cursor.peek.kind = .eof) (bound : Nat) :
    Leads (loop (declarationItem rules true) bound ()) state (fun _ next => next.Spoiled sequel)
      fun _ => True := by
  cases bound with
  | zero => trivial
  | succ bound =>
      refine Leads.bind (?_ : Leads _ state (fun outcome next => outcome = Step.done () ∧
        next.Spoiled sequel) _) ?_
      · refine leads_peek.2 ?_
        rw [ends]
        exact ⟨rfl, .inl (by simp)⟩
      · rintro _ next ⟨rfl, spoiled⟩
        exact spoiled

theorem ignores_declarations (ignore : rules.Ignore sequel longer) :
    Ignores sequel old (fun _ => .never) (declarations rules true) (declarations longer true) :=
  ignores_iterate (ignores_declarationItem ignore true) (fun _ bound _ _ _ approaches spent _ =>
    (leads_unclosed (approaches.sound.peek_eof_iff.2 spent) bound).imp fun _ _ => .inl) ()

end ParseM

namespace Rules

open ParseM

/-- Rules for deeper nesting do in front of a sequel what those for less do without one. -/
theorem ignore_ofDepth (sequel : Sequel) {depth more : Nat} (le : depth ≤ more) :
    (ofDepth depth).Ignore sequel (ofDepth more) := by
  induction depth generalizing more with
  | zero =>
      exact ⟨fun _ _ _ _ => trivial, fun _ _ _ _ => trivial, fun _ _ _ => trivial,
        fun _ _ _ _ _ => trivial, fun _ _ _ => trivial⟩
  | succ depth ih =>
      obtain ⟨more, rfl⟩ : ∃ rest, more = rest + 1 := ⟨more - 1, by omega⟩
      have ignore : (ofDepth depth).Ignore sequel (ofDepth more) := ih (by omega)
      exact ⟨fun _ => ignores_specifiers ignore, fun _ => ignores_declarator ignore,
        fun _ => ignores_declaration ignore, fun _ => ignores_templateDeclaration ignore,
        fun _ => ignores_declarations ignore⟩

end Rules

namespace ParseM

variable {sequel : Sequel} {old : Nat} {state : ParseState} {rules longer : Rules}

/-- The declarations of a unit end with the text and nowhere else. -/
theorem leads_declarationItem_open (rules : Rules) (state : ParseState) :
    Leads (declarationItem rules false ()) state (fun outcome next =>
      (state.cursor.peek.kind = .eof → outcome = .done () ∧ next = state) ∧
        (state.cursor.peek.kind ≠ .eof → outcome = .again ())) fun _ => True := by
  refine leads_peek.2 ?_
  split
  · rename_i ends
    exact ⟨fun _ => ⟨rfl, rfl⟩, fun more => absurd ends more⟩
  · rename_i brace
    have other : state.cursor.peek.kind ≠ .eof := by simp [brace]
    exact leads_whatever fun _ _ => leads_whatever fun _ _ =>
      ⟨fun ends => absurd ends other, fun _ => rfl⟩
  · rename_i other _
    refine leads_whatever fun outcome _ => ?_
    cases outcome with
    | ok value => exact ⟨fun ends => absurd ends other, fun _ => rfl⟩
    | error error =>
        exact leads_whatever fun _ _ => leads_whatever fun _ _ =>
          ⟨fun ends => absurd ends other, fun _ => rfl⟩

theorem loop_succ_of_again {α β : Type} {step : α → ParseM (Step α β)} {value other : α}
    {next : ParseState} (round : step value state = .ok (.again other) next) (bound : Nat) :
    loop step (bound + 1) value state = loop step bound other next := by
  change EStateM.bind (step value) _ state = _
  rw [EStateM.bind, round]

/-- In front of a sequel the declarations of a text are read as without it, and then those of the
sequel. -/
theorem leads_declarations_followed (ignore : rules.Ignore sequel longer)
    (large : old ≤ state.tree.size) {bound more : Nat} (le : bound ≤ more) :
    Leads (loop (declarationItem rules false) bound ()) state (fun _ next =>
      state.GoesOn old next ∧ (state.cursor.Approaches sequel → next.Spoiled sequel ∨
        (next.cursor.unread = [] ∧ ∃ rest, more < rest + bound ∧
          loop (declarationItem longer false) more () (state.followedBy sequel) =
            loop (declarationItem longer false) rest () (next.followedBy sequel))))
      fun _ => True := by
  induction bound generalizing more state with
  | zero => trivial
  | succ bound ih =>
      obtain ⟨more, rfl⟩ : ∃ rest, more = rest + 1 := ⟨more - 1, by omega⟩
      have item : Ignores sequel old (AtEnd.ofStep .same fun _ => .never)
          (declarationItem rules false ()) (declarationItem longer false ()) :=
        ignores_declarationItem ignore false ()
      have round := (item state large).and (leads_declarationItem_open rules state)
      refine Leads.bind (round.mono (fun _ _ both => both) fun _ _ => trivial) ?_
      rintro outcome middle ⟨⟨goesOn, tallies⟩, atEnd, inside⟩
      by_cases ends : state.cursor.peek.kind = .eof
      · obtain ⟨rfl, rfl⟩ := atEnd ends
        exact ⟨.refl old middle, fun approaches => .inr
          ⟨approaches.sound.peek_eof_iff.1 ends, more + 1, by omega, rfl⟩⟩
      · obtain rfl := inside ends
        refine (ih (Nat.le_trans large goesOn.size_le) (show bound ≤ more by omega)).imp ?_
        rintro _ last ⟨further, known⟩
        refine ⟨goesOn.trans further, fun approaches => ?_⟩
        have live : state.cursor.unread ≠ [] := fun spent =>
          ends (approaches.sound.peek_eof_iff.2 spent)
        rcases tallies approaches live with spoiled | ⟨still, spent⟩
        · exact .inl (spoiled.goesOn further)
        · have agrees : AgreesBefore sequel (declarationItem longer false ()) state (.again ())
              middle := by
            by_cases finished : middle.cursor.unread = []
            · exact spent finished
            · exact still finished
          refine (known (approaches.moves goesOn.moves)).imp_right ?_
          rintro ⟨finished, rest, left, same⟩
          exact ⟨finished, rest, by omega, (loop_succ_of_again agrees more).trans same⟩

end ParseM

end DeclTree
