import DeclTree.Proofs.BalancedDeclarators
import DeclTree.Proofs.ParseTermination

/-!
# Accepted units match their braces

Namespaces, linkage blocks, exported blocks and classes are read up to the brace that closes them,
or the end of the text is reported.  A closing brace without an opening one is reported as well.
So the braces of a unit without errors match, except where they stand in a piece of text that is
passed over without a look at them.
-/

namespace DeclTree

open Braces (Matching)

namespace ParseM

variable {α β : Type} {origin state : ParseState} {rules : Rules}

/-! ## Templates -/

@[simp] theorem keepsBraces_parameterName : KeepsBraces true parameterName :=
  .bind (keepsBraces_eat rfl) fun _ => .bind keepsBraces_peek fun _ =>
    .bind (keepsBraces_eat rfl) fun _ => by simp

theorem keepsBraces_valueParameter (keep : rules.KeepBraces) (token : Token) :
    KeepsBraces true (valueParameter rules token) := by
  have rest (specs : DeclSpecs) : KeepsBraces true (do
      let declarator ← declarator rules .parameter
      return ⟨.nonType, declarator.id.map DeclaratorId.name, some (specs.typeRef declarator),
        declarator.isPack⟩ : ParseM ParameterHead) :=
    .bind (keepsBraces_declarator keep _) fun _ => .pure _
  exact .bind (keepsBraces_specifiers keep _) fun specs =>
    .ite (.bind (.refuse _ _) fun _ => rest specs) (rest specs)

theorem onward_typeParameter {word : Keyword} (peek : state.cursor.peek.kind = .keyword word) :
    Onward true state typeParameter state :=
  Onward.nextToken (.refl state) (by simp [peek]) fun _ =>
    .bind keepsBraces_parameterName fun _ => .pure _

theorem onward_templateTemplateParameter {word : Keyword}
    (peek : state.cursor.peek.kind = .keyword word) :
    Onward true state templateTemplateParameter state := by
  refine Onward.nextToken (.refl state) (by simp [peek]) fun _ =>
    .bind keepsBraces_skipTemplateArguments fun _ next => leads_peek.2 ?_
  split
  · rename_i words
    refine Onward.nextToken (.refl next) ?_ fun _ =>
      .bind keepsBraces_parameterName fun _ => .pure _
    rcases words with found | found <;> simp [found]
  · trivial

/-- Whether a dependent type is ahead is told by looking. -/
theorem looks_dependentTypeAhead (state : ParseState) :
    Leads dependentTypeAhead state (fun _ next => next = state ∧ True) fun _ => True :=
  ⟨rfl, trivial⟩

theorem keepsBraces_parameterHead (keep : rules.KeepBraces) :
    KeepsBraces true (parameterHead rules) := by
  refine fun state => leads_peek.2 ?_
  split
  iterate 2
    · rename_i peek
      refine Onward.look (looks_dependentTypeAhead state) fun _ _ => ?_
      split
      · exact keepsBraces_valueParameter keep _ state
      · exact onward_typeParameter peek
  · rename_i peek
    exact onward_templateTemplateParameter peek
  · exact keepsBraces_valueParameter keep _ state

theorem keepsBraces_templateParameter (keep : rules.KeepBraces) (node : NodeId)
    (template : SymbolId) : KeepsBraces true (templateParameter rules node template) := by
  have rest (start : Span) (head : ParameterHead) (hasDefault : Bool) : KeepsBraces true (do
      let unit ← unit
      let symbol ← changeTable start fun table =>
        table.addParameter template
          { name := head.name.getD "", kind := .templateParameter head.kind, unit := some unit }
      let parameter ← addNodeUnder node
        (.templateParameter ⟨head.name, head.kind, head.type, some symbol, hasDefault,
          head.isVariadic⟩) start
      finishNode parameter
      modify fun state => { state with
        tree := state.tree.updateTemplate node (TemplateDecl.addParameter · parameter) } :
        ParseM Unit) :=
    .bind keepsBraces_unit fun _ => .bind (keepsBraces_changeTable _ _) fun _ =>
      .bind (keepsBraces_addNodeUnder _ _ _) fun _ => .bind (keepsBraces_finishNode _) fun _ =>
        .changes (fun _ => rfl) fun _ => rfl
  exact .bind keepsBraces_peek fun _ => .bind (keepsBraces_parameterHead keep) fun _ =>
    .bind (keepsBraces_eat rfl) fun _ =>
      .ite (.bind keepsBraces_skipParameterDefault fun _ => rest _ _ _) (rest _ _ _)

theorem keepsBraces_templateParameters (keep : rules.KeepBraces) (node : NodeId)
    (template : SymbolId) : KeepsBraces true (templateParameters rules node template) := by
  have item (round : Unit) : KeepsBraces true (templateParameterItem rules node template round) :=
    .bind (keepsBraces_templateParameter keep _ _) fun _ => .bind (keepsBraces_eat rfl) fun _ => by
      simp
  exact .bind (keepsBraces_expect rfl) fun _ => .bind (keepsBraces_check _) fun _ =>
    .bind (keepsBraces_check _) fun _ => .ite keepsBraces_expectClosingAngle
      (.bind (.iterate item ()) fun _ => keepsBraces_expectClosingAngle)

theorem isPlain_of_isLiteral {kind : TokenKind} (literal : kind.isLiteral) :
    kind.isPlain true = true := by
  cases kind <;> simp_all [TokenKind.isLiteral]

@[simp] theorem keepsBraces_constraintOperand (round : Unit) :
    KeepsBraces true (constraintOperand round) := by
  have rest : KeepsBraces true (do
      if ← eat (.punct .ampAmp) then return .again ()
      else if ← eat (.punct .pipePipe) then return .again ()
      else return .done () : ParseM (Step Unit Unit)) :=
    .bind (keepsBraces_eat rfl) fun _ =>
      .ite (.pure _) (.bind (keepsBraces_eat rfl) fun _ => by simp)
  refine fun state => leads_peek.2 ?_
  split
  · rename_i opens
    exact Onward.bind (onward_skipGroup (.refl state) (by rw [opens]; rfl)) fun _ => rest
  · split
    · rename_i literal
      exact Onward.nextToken (.refl state) (isPlain_of_isLiteral literal) fun _ => rest
    · exact KeepsBraces.bind keepsBraces_namePath (fun _ => rest) state

@[simp] theorem keepsBraces_skipConstraint : KeepsBraces true skipConstraint := by
  refine fun state => (tellsOf_checkWord "requires").choose (fun found => ?_)
    (KeepsBraces.pure () state)
  exact Onward.nextToken (.refl state) (by simp [found]) fun _ =>
    .iterate keepsBraces_constraintOperand ()

/-- A declaration that is passed over from its first word on. -/
theorem onward_synchronize_here (more : state.cursor.peek.kind ≠ .eof)
    (given : state.cursor.Sound → Braces.GivesUp (state.cursor.peek :: state.cursor.unread.drop 1)
      (state.cursor.peek :: state.cursor.unread.drop 1)) : Onward true state synchronize state :=
  onward_synchronize (.refl state) (ParseState.givesUp 0 more given)

theorem keepsBraces_templatedDeclaration (keep : rules.KeepBraces) :
    KeepsBraces true (templatedDeclaration rules) := by
  refine .bind keepsBraces_skipConstraint fun _ state => leads_peek.2 ?_
  split
  · exact KeepsBraces.bind (keep.templateDeclaration _ _) (fun _ => .pure _) state
  · split
    · rename_i skipped
      refine Onward.bind ?_ fun _ => .pure _
      rcases skipped with friend | ⟨kind, text⟩
      · exact onward_synchronize_here (by simp [friend]) fun _ =>
          .friend friend (.done _)
      · exact onward_synchronize_here (by simp [kind]) fun _ => .concept kind text
    · exact KeepsBraces.bind keep.declaration (fun _ => .pure _) state

@[simp] theorem keepsBraces_prefixFactory (span : Span) :
    KeepsBraces true (prefixFactory span) := by
  refine .bind keepsBraces_frame fun frame => ?_
  split
  · exact .pure _
  · exact .bind (keepsBraces_changeTable _ _) fun _ => .pure _

@[simp] theorem keepsBraces_discardPending (factory : FactoryId) (template : SymbolId)
    (start : Span) (parsed : Except ParseError Bool) :
    KeepsBraces true (discardPending factory template start parsed) := by
  refine .bind keepsBraces_table fun table => .ite (.bind (keepsBraces_setTable _) fun _ => ?_)
    (.pure ())
  split
  · exact keepsBraces_complain _ _
  · exact .pure ()

@[simp] theorem keepsBraces_bindOwned (node : NodeId) : KeepsBraces true (bindOwned node) := by
  refine fun state => leads_get.2 ?_
  split
  · exact KeepsBraces.pure () state
  · split
    · exact KeepsBraces.pure () state
    · split
      · exact .of_eq rfl rfl
      · exact keepsBraces_complain _ _ state

theorem keepsBraces_openedTemplate (keep : rules.KeepBraces) (start : Span) (exported : Bool) :
    KeepsBraces true (openedTemplate rules start exported) := by
  have content (node : NodeId) (template : SymbolId) :
      KeepsBraces true (templateContent rules node template) :=
    .bind (keepsBraces_templateParameters keep _ _) fun _ => keepsBraces_templatedDeclaration keep
  refine .bind (keepsBraces_checkNesting _) fun _ => .bind (keepsBraces_prefixFactory _) fun _ =>
    .bind keepsBraces_unit fun _ => .bind (keepsBraces_changeTable _ _) fun template =>
      .bind keepsBraces_frame fun _ => .bind (keepsBraces_addNode _ _) fun node =>
        .bind (keepsBraces_pushScope _) fun _ state => ?_
  refine Onward.attempt (content node template state) (fun _ => ?_) fun _ _ => ?_
  · exact .bind keepsBraces_popScope fun _ => .bind (keepsBraces_discardPending _ _ _ _) fun _ =>
      .bind (keepsBraces_bindOwned _) fun _ => .bind (keepsBraces_finishNode _) fun _ =>
        .bind (.pure _) fun _ => .pure ()
  · exact leads_behind fun _ _ => leads_behind fun _ _ => leads_behind fun _ _ =>
      leads_behind fun _ _ => trivial

theorem keepsBraces_templateDeclaration (keep : rules.KeepBraces) (start : Span)
    (exported : Bool) : KeepsBraces true (templateDeclaration rules start exported) := by
  refine fun state => leads_expect (fun word => ?_) fun _ => trivial
  refine leads_ifCheck (fun _ => ?_) fun other => ?_
  · exact (keepsBraces_openedTemplate keep _ _).onward (.next_of_plain (by simp [word]))
  · refine onward_synchronize (.refl state) (ParseState.givesUp 1 (by simp [word]) fun sound => ?_)
    exact .instantiation word fun opens =>
      other (((sound.skip 1).startsWith_iff (by simp) 0).1 opens)

/-! ## Namespaces and linkage blocks -/

@[simp] theorem keepsBraces_openNamespace (start : Span) (name : String) (isInline : Bool) :
    KeepsBraces true (openNamespace start name isInline) := by
  have rest (symbol : SymbolId) : KeepsBraces true (do
      let node ← addNode (.namespaceScope ⟨name, isInline, symbol⟩) start
      pushScope ⟨node, symbol, .container, .namespaceScope⟩
      return node : ParseM NodeId) :=
    .bind (keepsBraces_addNode _ _) fun _ => .bind (keepsBraces_pushScope _) fun _ => .pure _
  exact .bind (keepsBraces_checkNesting _) fun _ => .bind keepsBraces_lookupScope fun _ =>
    .bind keepsBraces_unit fun _ => .bind (keepsBraces_changeTable _ _) fun _ =>
      .ite (.bind keepsBraces_table fun _ => .bind (keepsBraces_setTable _) fun _ => rest _)
        (rest _)

@[simp] theorem keepsBraces_closeNamespaces (nodes : List NodeId) :
    KeepsBraces true (closeNamespaces nodes) := by
  induction nodes with
  | nil => exact .pure ()
  | cons node outer ih =>
      exact .bind keepsBraces_popScope fun _ => .bind (keepsBraces_finishNode _) fun _ => ih

@[simp] theorem keepsBraces_openNamespaces (start : Span) (entered : List NodeId)
    (segments : List (String × Bool)) :
    KeepsBraces true (openNamespaces start entered segments) := by
  induction segments generalizing entered with
  | nil => exact .pure _
  | cons segment rest ih =>
      refine fun state => Onward.attempt (keepsBraces_openNamespace _ _ _ state)
        (fun node => ih (node :: entered)) fun _ _ => leads_behind fun _ _ => trivial

@[simp] theorem keepsBraces_namespaceSegments (isInline : Bool) :
    KeepsBraces true (namespaceSegments isInline) := by
  have segment (segments : List (String × Bool)) : KeepsBraces true (namespaceSegment segments) :=
    .bind (keepsBraces_eat rfl) fun _ => .ite (.bind (keepsBraces_eat rfl) fun _ =>
      .bind keepsBraces_expectIdentifier fun _ => .pure _) (.pure _)
  exact .bind keepsBraces_peek fun _ => .bind (keepsBraces_eat rfl) fun _ =>
    .ite (.iterate segment _) (.pure _)

theorem keepsBraces_namespaceBody (keep : rules.KeepBraces) (start : Span) (isInline : Bool) :
    KeepsBraces true (namespaceBody rules start isInline) := by
  refine .bind (keepsBraces_namespaceSegments _) fun segments =>
    .bind keepsBraces_skipAttributes fun _ state => leads_check.2 ?_
  split
  · rename_i other
    exact onward_expect_other (by simpa using other)
  · refine Leads.bind (keepsBraces_openNamespaces start [] segments state)
      fun nodes entered kept => ?_
    refine leads_expect (fun opens => ?_) fun _ => trivial
    refine onward_declarations keep (.refl entered.next) fun inside body closes => ?_
    exact onward_eatCloser kept opens body closes fun _ => keepsBraces_closeNamespaces nodes

theorem keepsBraces_namespaceDeclaration (keep : rules.KeepBraces) (start : Span)
    (isInline : Bool) : KeepsBraces true (namespaceDeclaration rules start isInline) := by
  refine fun state => leads_expect (fun word => ?_) fun _ => trivial
  have named : state.KeepsBraces true state.next := .next_of_plain (by simp [word])
  have passed : Leads skipAttributes state.next (fun _ next =>
      (Stretch.attributes state.next.cursor.unread).unclosed = none ∧ next = { state.next with
        cursor := state.next.cursor.skip (Stretch.attributes state.next.cursor.unread).length })
      fun _ => True := leads_unread.2 (leads_pass _ _)
  have read : Onward true state skipAttributes state.next := keepsBraces_skipAttributes.onward named
  refine Leads.bind ((read.and passed).mono (fun _ _ both => both) fun _ _ => trivial) ?_
  rintro _ next ⟨kept, whole, rfl⟩
  refine leads_check.2 (leads_checkAhead.2 ?_)
  split
  · rename_i ahead
    simp only [Bool.and_eq_true, beq_iff_eq] at ahead
    refine onward_synchronize (.refl state) fun quiet => ⟨quiet, fun sound => ?_⟩
    obtain ⟨first, rest, unread, kind⟩ := sound.exists_next (by simp) word
    have behind : state.next.cursor.unread = rest := by simp [ParseState.next, unread]
    have later : (state.next.cursor.skip
        (Stretch.attributes state.next.cursor.unread).length).Sound := (sound.skip 1).skip _
    refine ⟨later, ?_⟩
    have name := (later.startsWith_iff (by simp) 0).2 ahead.1
    have equal := (later.startsWith_iff (by simp) 1).2 ahead.2
    rw [Cursor.unread_skip, behind] at name equal
    rw [List.drop_drop] at equal
    rw [behind] at whole
    rw [unread, Cursor.unread_skip, behind]
    exact .namespaceAlias kind whole name equal
  · exact (keepsBraces_namespaceBody keep _ _).onward kept

theorem keepsBraces_linkageContent (keep : rules.KeepBraces) :
    KeepsBraces true (linkageContent rules) := by
  refine fun state => leads_ifEat (fun opens => ?_) fun _ => keep.declaration state
  refine onward_declarations keep (.refl state.next) fun inside body closes => ?_
  exact onward_eatCloser (.refl state) opens body closes fun _ => .pure ()

theorem keepsBraces_linkageDeclaration (keep : rules.KeepBraces) (start : Span) :
    KeepsBraces true (linkageDeclaration rules start) := by
  refine .bind (keepsBraces_expect rfl) fun _ => .bind (keepsBraces_expect rfl) fun _ =>
    .bind (keepsBraces_checkNesting _) fun _ => .bind keepsBraces_lookupScope fun _ =>
      .bind (keepsBraces_addNode _ _) fun node => .bind (keepsBraces_pushScope _) fun _ state => ?_
  refine Onward.attempt (keepsBraces_linkageContent keep state) (fun _ => ?_) fun _ _ => ?_
  · exact .bind keepsBraces_popScope fun _ => .bind (keepsBraces_finishNode _) fun _ => .pure ()
  · exact leads_behind fun _ _ => leads_behind fun _ _ => trivial

theorem onward_exportedDeclarations (keep : rules.KeepBraces)
    (peek : state.cursor.peek.kind = .keyword .exportKw) :
    Onward true state (exportedDeclarations rules) state := by
  refine Onward.nextToken (.refl state) (by simp [peek]) fun _ next =>
    leads_ifEat (fun opens => ?_) fun _ => keep.declaration next
  refine onward_declarations keep (.refl next.next) fun inside body _ => ?_
  exact onward_expectCloser (.refl next) opens body fun _ => .pure ()

/-! ## Using declarations -/

@[simp] theorem keepsBraces_resolveNamespace? (path : NamePath) :
    KeepsBraces true (resolveNamespace? path) := by
  refine .bind (keepsBraces_resolve? path) fun found => ?_
  split
  · exact .pure _
  · refine .bind keepsBraces_table fun table => ?_
    split
    · split
      · exact .pure _
      · exact .pure _
    · exact .stuck

@[simp] theorem keepsBraces_usingDirective (start : Span) :
    KeepsBraces true (usingDirective start) := by
  have node (path : NamePath) (target : Option SymbolId) (last : Token) : KeepsBraces true (do
      let node ← addNode (.usingDirective ⟨path.text, target⟩) start
      finishNode node
      let _ ← resume (.ok last) : ParseM Unit) :=
    .bind (keepsBraces_addNode _ _) fun _ => .bind (keepsBraces_finishNode _) fun _ =>
      .bind (.pure _) fun _ => .pure ()
  refine .bind keepsBraces_namePath fun path state =>
    Onward.attempt (keepsBraces_expect rfl state) (fun last => ?_) fun error _ => ?_
  · refine .bind keepsBraces_lookupScope fun scope =>
      .bind (keepsBraces_resolveNamespace? path) fun target => ?_
    split
    · exact .bind keepsBraces_table fun _ => .bind (keepsBraces_setTable _) fun _ => node _ _ last
    · exact node _ _ last
  · refine leads_behind fun _ _ => leads_behind fun target _ => ?_
    have failed (target : Option SymbolId) (next : ParseState) : Onward true state (do
        let node ← addNode (.usingDirective ⟨path.text, target⟩) start
        finishNode node
        let _ ← resume (.error error : Except ParseError Token) : ParseM Unit) next :=
      leads_behind fun _ _ => leads_behind fun _ _ => trivial
    split
    · exact leads_behind fun _ _ => leads_behind fun _ next => failed _ next
    · exact failed _ _

theorem keepsBraces_aliasDeclaration (keep : rules.KeepBraces) (start : Span) :
    KeepsBraces true (aliasDeclaration rules start) := by
  have rest (name : Token) (specs : DeclSpecs) : KeepsBraces true (do
      let declarator ← declarator rules .abstract
      let symbol ← declare { name := name.lexeme, kind := .typedef } none name.span
      let node ← addNode (.typedef ⟨name.lexeme, specs.typeRef declarator, symbol⟩) start
      let terminated ← attempt (expect (.punct .semicolon))
      finishNode node
      let _ ← resume terminated : ParseM Unit) := by
    refine .bind (keepsBraces_declarator keep _) fun _ => .bind (keepsBraces_declare _ _ _)
      fun _ => .bind (keepsBraces_addNode _ _) fun node state => ?_
    exact Onward.attempt (keepsBraces_expect rfl state)
      (fun _ => .bind (keepsBraces_finishNode _) fun _ => .bind (.pure _) fun _ => .pure ())
      fun _ _ => leads_behind fun _ _ => trivial
  exact .bind keepsBraces_expectIdentifier fun name => .bind keepsBraces_skipAttributes fun _ =>
    .bind (keepsBraces_expect rfl) fun _ => .bind (keepsBraces_specifiers keep _) fun specs =>
      .ite (.bind keepsBraces_peek fun _ => .bind (.refuse _ _) fun _ => rest name specs)
        (rest name specs)

/-- Whether a name for a type is ahead is told by looking. -/
theorem looks_aliasAhead (state : ParseState) : Leads aliasAhead state (fun found next =>
    next = state ∧ (¬ found → ¬ (state.cursor.peek.kind = .identifier ∧
      ((state.cursor.ahead 1).kind = .punct .equal ∨
        (state.cursor.ahead 1).kind = .punct .leftBracket)))) fun _ => True := by
  refine ⟨rfl, fun missing named => missing ?_⟩
  simpa using named

theorem keepsBraces_usingDeclaration (keep : rules.KeepBraces) (start : Span) :
    KeepsBraces true (usingDeclaration rules start) := by
  refine fun state => leads_expect (fun word => ?_) fun _ => trivial
  have named : state.KeepsBraces true state.next := .next_of_plain (by simp [word])
  refine leads_ifEat (fun directive => ?_) fun noDirective => ?_
  · exact (keepsBraces_usingDirective start).onward
      (named.trans (.next_of_plain (by simp [directive])))
  · refine Onward.look (looks_aliasAhead state.next) fun found noAlias => ?_
    split
    · exact (keepsBraces_aliasDeclaration keep start).onward named
    · rename_i missing
      refine onward_synchronize (.refl state)
        (ParseState.givesUp 1 (by simp [word]) fun sound => ?_)
      have starts {kind : TokenKind} (other : kind ≠ .eof) (distance : Nat) :=
        (Cursor.Sound.startsWith_iff (sound.skip 1) other distance).1
      refine .repeated word (fun directive => noDirective (starts (by simp) 0 directive)) ?_
      rintro ⟨named, next⟩
      exact noAlias missing ⟨starts (by simp) 0 named,
        next.imp (starts (by simp) 1) (starts (by simp) 1)⟩

/-! ## Declarations -/

theorem onward_keywordDeclaration (keep : rules.KeepBraces) {start : Span} {word : Keyword}
    (peek : state.cursor.peek.kind = .keyword word) :
    Onward true state (keywordDeclaration rules start word (state.cursor.ahead 1).kind) state := by
  have simple : Onward true state (simpleDeclaration rules start) state :=
    keepsBraces_simpleDeclaration keep start state
  unfold keywordDeclaration
  split
  · exact keepsBraces_namespaceDeclaration keep start false state
  · split
    · exact Onward.nextToken (.refl state) (by simp [peek]) fun _ =>
        keepsBraces_namespaceDeclaration keep start true
    · exact simple
  · split
    · exact keepsBraces_linkageDeclaration keep start state
    · split
      · rename_i template
        exact onward_synchronize_here (by simp [peek]) fun sound =>
          .external peek ((sound.startsWith_iff (by simp) 1).2 template)
      · exact simple
  · split
    · exact Onward.nextToken (.refl state) (by simp [peek]) fun _ =>
        keepsBraces_templateDeclaration keep start true
    · exact onward_exportedDeclarations keep peek
  · exact keepsBraces_templateDeclaration keep start false state
  · exact keepsBraces_usingDeclaration keep start state
  · exact onward_synchronize_here (by simp [peek]) fun _ => .assertion peek
  · exact onward_synchronize_here (by simp [peek]) fun _ => .friend peek (.done _)
  iterate 3
    · split
      · rename_i colon
        refine onward_skip (.refl state) fun _ => state.cursor.matching_ahead ?_
        intro distance inside
        obtain rfl | rfl : distance = 0 ∨ distance = 1 := by omega
        · rw [show state.cursor.ahead 0 = state.cursor.peek from rfl]
          simp [peek]
        · simp [colon]
      · exact simple
  · exact simple

theorem keepsBraces_declaration (keep : rules.KeepBraces) :
    KeepsBraces true (declaration rules) := by
  refine .bind keepsBraces_skipAttributes fun _ state => leads_peek.2 (leads_ahead.2 ?_)
  split
  · rename_i peek
    exact onward_skip (.refl state) fun _ => state.cursor.matching_next (by simp [peek])
  · rename_i word peek
    exact onward_keywordDeclaration keep peek
  · rename_i peek
    dsimp only
    split
    · rename_i starts
      refine onward_synchronize_here (by simp [peek]) fun sound => ?_
      simp only [startsModule, Bool.and_eq_true, Bool.or_eq_true, beq_iff_eq, or_assoc] at starts
      have next {kind : TokenKind} (other : kind ≠ .eof) := (sound.startsWith_iff other 1).2
      exact .moduleName peek starts.1
        (starts.2.imp (next (by simp)) (Or.imp (next (by simp)) (next (by simp))))
    · exact keepsBraces_simpleDeclaration keep _ state
  · exact keepsBraces_simpleDeclaration keep _ state

/-- A declaration of a scope is read from brace to brace, and behind the last one the scope is
closed, unless there was an error. -/
theorem leads_declarationItem (keep : rules.KeepBraces) (closing : Bool) (round : Unit) :
    Leads (declarationItem rules closing round) state (fun outcome next => outcome.Keeps
      (fun _ after => state.KeepsBraces true after)
      (fun _ after => state.KeepsBraces true after ∧ (after.errors = #[] →
        after.cursor.peek.kind = if closing then .punct .rightBrace else .eof)) next)
      fun _ => True := by
  refine leads_peek.2 ?_
  split
  · rename_i ends
    cases closing with
    | true => exact ⟨.of_ne (by simp), by simp⟩
    | false => exact ⟨.refl state, fun _ => ends⟩
  · rename_i closes
    cases closing with
    | true => exact ⟨.refl state, fun _ => closes⟩
    | false => exact (leads_of_ok (skip_one state)).2 (.of_ne (by simp))
  · refine (Leads.attempt (keepsBraces_declaration keep state)).bind fun outcome next caught => ?_
    cases outcome with
    | ok value => exact caught.1 value rfl
    | error error =>
        have reported : Leads (report error) next (fun _ after => after.errors ≠ #[])
            fun _ => True :=
          Array.push_ne_empty
        exact reported.bind fun _ _ known =>
          Leads.bind (onward_synchronize_of_ne known) fun _ _ kept => kept

theorem leads_declarations_braces (keep : rules.KeepBraces) (closing : Bool)
    (state : ParseState) : Leads (declarations rules closing) state
      (fun _ next => state.KeepsBraces true next ∧ (next.errors = #[] →
        next.cursor.peek.kind = if closing then .punct .rightBrace else .eof)) fun _ => True := by
  refine leads_iterate (fun _ next => state.KeepsBraces true next) (.refl state)
    fun round next kept => ?_
  refine (leads_declarationItem keep closing round).imp ?_
  rintro (_ | _) after still
  · exact kept.trans still
  · exact ⟨kept.trans still.1, still.2⟩

end ParseM

/-- Rules of any depth read from brace to brace. -/
theorem Rules.keepBraces_ofDepth (depth : Nat) : (Rules.ofDepth depth).KeepBraces := by
  induction depth with
  | zero => exact ⟨fun _ _ => trivial, fun _ _ => trivial, fun _ => trivial,
      fun _ _ _ => trivial, fun _ _ => trivial⟩
  | succ depth ih =>
      exact ⟨ParseM.keepsBraces_specifiers ih, ParseM.keepsBraces_declarator ih,
        ParseM.keepsBraces_declaration ih, ParseM.keepsBraces_templateDeclaration ih,
        ParseM.leads_declarations_braces ih⟩

theorem ParseM.keepsBraces_translationUnit : KeepsBraces true translationUnit :=
  fun state => leads_get.2
    (((Rules.keepBraces_ofDepth (state.cursor.weight + 1)).declarations false state).imp
      fun _ _ read => read.1)

/-- An accepted unit is read from brace to brace up to its end, or up to a declaration that is
passed over and runs into a group that is left open.  So no part at its start closes more braces
than it opens, and all that are opened are closed, unless there is a piece of text whose own braces
do not match: a group in parentheses or brackets or the name of a conversion function, which are
passed over without a look at braces, or what such a declaration swallows. -/
theorem accepted_braces_match {options : ParseOptions} {table : SymbolTable}
    (reached : table.Reachable) (unit : UnitId) {source : String}
    (accepted : (parseUnit options table unit source).errors = []) :
    Braces.Reads true (sourceTokens options.dialect source) [] ∧
      (Braces.Balanced (sourceTokens options.dialect source) ∨
        (∃ passage, Braces.PassedOver (sourceTokens options.dialect source) passage ∧
          ¬ Braces.Balanced passage) ∨
        ∃ passage, Braces.Swallowed (sourceTokens options.dialect source) passage ∧
          ¬ Braces.Balanced passage) := by
  obtain ⟨final, finished⟩ := ParseState.exists_finished options reached unit source
  have quiet : final.errors = #[] := by
    simpa [parseUnit, ParseState.parsed, ParseState.finish_eq finished] using accepted
  have led := ParseM.keepsBraces_translationUnit (.start options table unit source)
  unfold ParseM.Onward ParseM.Leads ParseM.Meets at led
  rw [finished.run] at led
  obtain ⟨_, read⟩ := led quiet
  have reads := (read (ParseState.sound_start options reached unit source).cursor).2
  rw [finished.unread] at reads
  exact ⟨reads, Braces.Reads.balanced_or reads⟩

/-- A using declaration is passed over, and so is the group that it leaves open. -/
theorem accepted_braces_match_open :
    (parseSource "using x \x7b").errors = [] ∧
      ¬ Braces.Balanced (sourceTokens .cpp "using x \x7b") ∧
        ((∃ passage, Braces.PassedOver (sourceTokens .cpp "using x \x7b") passage ∧
          ¬ Braces.Balanced passage) ∨
        ∃ passage, Braces.Swallowed (sourceTokens .cpp "using x \x7b") passage ∧
          ¬ Braces.Balanced passage) := by
  have accepted : (parseSource "using x \x7b").errors = [] := by decide +kernel
  have unbalanced : ¬ Braces.Balanced (sourceTokens .cpp "using x \x7b") := by decide +kernel
  exact ⟨accepted, unbalanced,
    ((accepted_braces_match .empty ⟨0⟩ accepted).2).resolve_left unbalanced⟩

/-- In brackets only brackets are counted. -/
example : (parseSource "int a[\x7d];").errors = [] ∧
    ¬ Braces.Balanced (sourceTokens .cpp "int a[\x7d];") := by
  decide +kernel

end DeclTree
