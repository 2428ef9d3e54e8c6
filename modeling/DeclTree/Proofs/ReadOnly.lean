import DeclTree.Proofs.PartialOutcome

/-!
# Parts of a parse that only read

Names, types, declarators, expressions and all that is passed over change nothing
but the cursor.  Specifiers do so where no class or enum body is allowed.
-/

namespace DeclTree

namespace SymbolTable

/-! ## Names that are not found -/

variable {table : SymbolTable} {error : SymbolError}

theorem parseKind_of_lookupInScope {name : String} {scope : SymbolId}
    (refused : table.lookupInScope name scope = .error error) :
    error.parseKind = .unresolvedName := by
  unfold lookupInScope at refused
  split at refused
  · cases refused
  · split at refused
    · cases refused
    · cases refused
    · cases refused
      rfl

theorem parseKind_of_lookupAlong {name : String} {scopes : List SymbolId}
    (refused : table.lookupAlong name scopes = .error error) :
    error.parseKind = .unresolvedName := by
  induction scopes with
  | nil =>
      cases refused
      rfl
  | cons scope outer ih =>
      unfold lookupAlong at refused
      split at refused
      · rename_i other stops
        cases refused
        exact parseKind_of_lookupInScope stops
      · cases refused
      · exact ih refused

theorem parseKind_of_lookupMembers {current : SymbolId} {segments : List String}
    (refused : table.lookupMembers current segments = .error error) :
    error.parseKind = .unresolvedName := by
  induction segments generalizing current with
  | nil => cases refused
  | cons segment rest ih =>
      unfold lookupMembers at refused
      split at refused
      · cases refused
        rfl
      · split at refused
        · cases refused
          rfl
        · exact ih refused

theorem parseKind_of_lookupFirst {segment : String} {scope : SymbolId} {isGlobal : Bool}
    (refused : table.lookupFirst segment scope isGlobal = .error error) :
    error.parseKind = .unresolvedName := by
  unfold lookupFirst at refused
  split at refused
  · split at refused
    · rename_i other stops
      cases refused
      exact parseKind_of_lookupInScope stops
    · cases refused
      rfl
    · cases refused
  · exact parseKind_of_lookupAlong refused

/-- A name that is not found is unresolved. -/
theorem parseKind_of_lookupQualified {path : List String} {scope : SymbolId} {isGlobal : Bool}
    (refused : table.lookupQualified path scope isGlobal = .error error) :
    error.parseKind = .unresolvedName := by
  unfold lookupQualified at refused
  split at refused
  · cases refused
    rfl
  · split at refused
    · rename_i other stops
      cases refused
      exact parseKind_of_lookupFirst stops
    · exact parseKind_of_lookupMembers refused

end SymbolTable

/-- Rules whose specifiers without bodies and whose declarators only read. -/
structure Rules.Reads (rules : Rules) : Prop where
  specifiers : ∀ {mode : SpecifierMode}, mode ≠ .declaration →
    ParseM.OnlyReads (rules.specifiers mode)
  declarator : ∀ mode : DeclaratorMode, ParseM.OnlyReads (rules.declarator mode)

namespace ParseM

variable {rules : Rules}

/-- Whether a parse only reads besides one part that it never leaves out. -/
inductive Includes {α : Type} (part : ParseM α) : {β : Type} → ParseM β → Prop
  | here {β : Type} {rest : α → ParseM β} (reads : ∀ value, OnlyReads (rest value)) :
      Includes part (part >>= rest)
  | behind {β γ : Type} {first : ParseM γ} {rest : γ → ParseM β} (reads : OnlyReads first)
      (following : ∀ value, Includes part (rest value)) : Includes part (first >>= rest)

theorem Includes.onlyReads {α β : Type} {part : ParseM α} {parse : ParseM β}
    (includes : Includes part parse) (reads : OnlyReads part) : OnlyReads parse := by
  induction includes with
  | here following => exact reads.bind following
  | behind before _ following => exact before.bind following

/-! ## Tokens -/

@[simp] theorem onlyReads_ahead (distance : Nat) : OnlyReads (ahead distance) :=
  .looks fun _ => ⟨_, rfl⟩

@[simp] theorem onlyReads_peek : OnlyReads peek :=
  .looks fun _ => ⟨_, rfl⟩

@[simp] theorem onlyReads_unread : OnlyReads unread :=
  .looks fun _ => ⟨_, rfl⟩

@[simp] theorem onlyReads_check (kind : TokenKind) : OnlyReads (check kind) :=
  .looks fun _ => ⟨_, rfl⟩

@[simp] theorem onlyReads_checkAhead (distance : Nat) (kind : TokenKind) :
    OnlyReads (checkAhead distance kind) :=
  .looks fun _ => ⟨_, rfl⟩

@[simp] theorem onlyReads_checkWord (word : String) : OnlyReads (checkWord word) :=
  .looks fun _ => ⟨_, rfl⟩

@[simp] theorem onlyReads_mark : OnlyReads mark :=
  .looks fun _ => ⟨_, rfl⟩

@[simp] theorem onlyReads_since (start : Nat) : OnlyReads (since start) :=
  .looks fun _ => ⟨_, rfl⟩

@[simp] theorem onlyReads_previousSpan : OnlyReads previousSpan :=
  .looks fun _ => ⟨_, rfl⟩

@[simp] theorem onlyReads_skip (count : Nat) : OnlyReads (skip count) := by
  refine .moves fun state => ?_
  by_cases within : count ≤ state.cursor.unread.length ∨ count = 1
  · exact .inl ⟨(), _, skip_within within, .skip (.refl _) within, rfl⟩
  · exact .inr (skip_beyond within)

theorem onlyReads_synchronize : OnlyReads synchronize :=
  .bind onlyReads_unread fun _ => onlyReads_skip _

@[simp] theorem onlyReads_splitShift : OnlyReads splitShift := by
  refine .moves fun state => ?_
  by_cases closes : state.cursor.peek.kind = .punct .greaterGreater
  · have splits : splitShift state = .ok () { state with cursor := state.cursor.splitShift } := by
      change (if _ then _ else _ : ParseM Unit) state = _
      rw [if_pos closes]
      rfl
    exact .inl ⟨(), _, splits, .split (.refl _) closes, rfl⟩
  · have stops : splitShift state = .error .stuck state := by
      change (if _ then _ else _ : ParseM Unit) state = _
      rw [if_neg closes]
      rfl
    exact .inr stops

@[simp] theorem onlyReads_advance : OnlyReads advance := by
  simp [advance]

@[simp] theorem onlyReads_eat (kind : TokenKind) : OnlyReads (eat kind) := by
  simp [eat]

@[simp] theorem onlyReads_expect (kind : TokenKind) : OnlyReads (expect kind) := by
  refine .bind onlyReads_peek fun token => .ite onlyReads_advance ?_
  exact .ite (.refuse (by simp) _) (.refuse (by simp) _)

@[simp] theorem onlyReads_refuseName {α : Type} : OnlyReads (refuseName : ParseM α) :=
  .bind onlyReads_peek fun _ => .refuse (by simp) _

@[simp] theorem onlyReads_expectIdentifier : OnlyReads expectIdentifier := by
  simp [expectIdentifier]

/-! ## Stretches -/

@[simp] theorem onlyReads_pass (stretch : Stretch) : OnlyReads (pass stretch) := by
  refine .bind (onlyReads_skip _) fun _ => ?_
  split <;> simp

@[simp] theorem onlyReads_skipGroup : OnlyReads skipGroup := by
  simp [skipGroup]

@[simp] theorem onlyReads_skipGroupIf (opener : Punct) : OnlyReads (skipGroupIf opener) := by
  simp [skipGroupIf]

@[simp] theorem onlyReads_skipExpression (stops : List TokenKind) :
    OnlyReads (skipExpression stops) := by
  simp [skipExpression]

@[simp] theorem onlyReads_skipAttributes : OnlyReads skipAttributes := by
  simp [skipAttributes]

theorem onlyReads_passAngle (reach : Angle.Reach) {missing : ParseM Unit}
    (otherwise : OnlyReads missing) : OnlyReads (passAngle reach missing) := by
  refine .bind (onlyReads_skip _) fun _ => ?_
  split
  · exact .pure ()
  · exact onlyReads_splitShift.bind fun _ => onlyReads_skip 1
  · exact otherwise
  · exact .refuse (by simp) _

@[simp] theorem onlyReads_skipTemplateArguments : OnlyReads skipTemplateArguments := by
  refine .bind (onlyReads_expect _) fun opener => .bind onlyReads_unread fun tokens => ?_
  exact onlyReads_passAngle _ (.refuse (by simp) _)

@[simp] theorem onlyReads_skipClosedArguments : OnlyReads skipClosedArguments := by
  refine .bind onlyReads_unread fun tokens => ?_
  simp

@[simp] theorem onlyReads_jumpClosedArguments : OnlyReads jumpClosedArguments := by
  simp [jumpClosedArguments]

@[simp] theorem onlyReads_skipParameterDefault : OnlyReads skipParameterDefault := by
  refine .bind onlyReads_unread fun tokens => onlyReads_passAngle _ ?_
  exact .bind onlyReads_peek fun _ => .refuse (by simp) _

@[simp] theorem onlyReads_expectClosingAngle : OnlyReads expectClosingAngle := by
  refine .bind (onlyReads_check _) fun closes => .ite (.bind onlyReads_splitShift fun _ => ?_) ?_
  · simp
  · simp

/-! ## Scopes and names -/

@[simp] theorem onlyReads_lookupScope : OnlyReads lookupScope :=
  .looks fun _ => ⟨_, rfl⟩

@[simp] theorem onlyReads_table : OnlyReads table :=
  .looks fun _ => ⟨_, rfl⟩

theorem onlyReads_unit : OnlyReads unit :=
  .looks fun _ => ⟨_, rfl⟩

theorem onlyReads_frame : OnlyReads frame :=
  .looks fun _ => ⟨_, rfl⟩

@[simp] theorem onlyReads_className? : OnlyReads className? :=
  .looks fun _ => ⟨_, rfl⟩

@[simp] theorem onlyReads_checkNesting (span : Span) : OnlyReads (checkNesting span) :=
  .bind .get fun _ => .ite (.refuse (by simp) _) (.pure ())

@[simp] theorem onlyReads_resolveScope (segments : List String) (isGlobal : Bool) (span : Span) :
    OnlyReads (resolveScope segments isGlobal span) := by
  refine .bind onlyReads_table fun table => .bind onlyReads_lookupScope fun scope => ?_
  split
  · rename_i error refused
    have unresolved := SymbolTable.parseKind_of_lookupQualified refused
    exact .refuse (by simp [Complaint.kind, unresolved]) _
  · split
    · simp
    · exact .refuse (by simp [Complaint.kind, SymbolError.parseKind]) _

@[simp] theorem onlyReads_nameContinues : OnlyReads nameContinues := by
  simp [nameContinues]

theorem nameSegment_includes (start : Nat) (isGlobal : Bool) (segments : List String) :
    Includes expectIdentifier (nameSegment start isGlobal segments) := by
  refine .behind (onlyReads_eat _) fun _ => .here fun name =>
    .bind onlyReads_skipClosedArguments fun _ => .bind onlyReads_nameContinues fun continues => ?_
  simp

@[simp] theorem onlyReads_nameSegment (start : Nat) (isGlobal : Bool) (segments : List String) :
    OnlyReads (nameSegment start isGlobal segments) :=
  (nameSegment_includes start isGlobal segments).onlyReads onlyReads_expectIdentifier

@[simp] theorem onlyReads_namePath : OnlyReads namePath := by
  refine .bind onlyReads_mark fun start => .bind (onlyReads_eat _) fun isGlobal => ?_
  simp

@[simp] theorem onlyReads_resolve? (path : NamePath) : OnlyReads (resolve? path) :=
  .looks fun _ => ⟨_, rfl⟩

@[simp] theorem onlyReads_pathScope (path : NamePath) : OnlyReads (pathScope path) := by
  simp [pathScope]

/-! ## Specifiers -/

@[simp] theorem onlyReads_tagPath? : OnlyReads tagPath? := by
  refine .bind (onlyReads_check _) fun _ => .bind (onlyReads_check _) fun _ => ?_
  simp

@[simp] theorem onlyReads_baseClass (bases : List TypeRef) : OnlyReads (baseClass bases) := by
  refine .bind onlyReads_skipAttributes fun _ => .bind onlyReads_unread fun tokens =>
    .bind (onlyReads_skip _) fun _ => .bind onlyReads_namePath fun path =>
      .bind (onlyReads_resolve? path) fun symbol => .bind (onlyReads_eat _) fun _ => ?_
  simp

@[simp] theorem onlyReads_baseClause : OnlyReads baseClause := by
  simp [baseClause]

@[simp] theorem onlyReads_forwardTag (specs : DeclSpecs) (path : Option NamePath)
    (kind : TagKind) : OnlyReads (forwardTag specs path kind) := by
  unfold forwardTag
  split <;> simp

@[simp] theorem onlyReads_tagPlace (path : Option NamePath) (key : Token) :
    OnlyReads (tagPlace path key) := by
  unfold tagPlace
  split <;> simp

theorem classSpecifier_includes (specs : DeclSpecs) :
    Includes advance (classSpecifier rules specs false) := by
  refine .here fun key => .bind onlyReads_skipAttributes fun _ =>
    .bind onlyReads_tagPath? fun path => .bind (onlyReads_checkWord _) fun isFinal => ?_
  have rest (specs : DeclSpecs) : OnlyReads (do
      if false && ((← check (.punct .leftBrace)) || (← check (.punct .colon))) then
        classDefinition rules specs key path isFinal
      else
        forwardTag specs path (.classTag (classKeyOf key.kind))) :=
    .bind (onlyReads_check _) fun _ => .bind (onlyReads_check _) fun _ =>
      onlyReads_forwardTag _ _ _
  split
  · exact .bind (onlyReads_skip 1) fun _ => rest _
  · exact rest _

@[simp] theorem onlyReads_scopedWord : OnlyReads scopedWord := by
  refine .bind (onlyReads_check _) fun _ => .bind (onlyReads_check _) fun _ => ?_
  simp

theorem onlyReads_underlyingType (reads : rules.Reads) (allowed : Bool) :
    OnlyReads (underlyingType rules allowed) := by
  have specifiers : OnlyReads (rules.specifiers .typeOnly) := reads.specifiers (by simp)
  unfold underlyingType
  refine .ite (.bind (onlyReads_eat _) fun _ => ?_) (.pure _)
  simp [specifiers]

theorem enumSpecifier_includes (specs : DeclSpecs) :
    Includes advance (enumSpecifier rules specs false) := by
  refine .here fun key => .bind onlyReads_scopedWord fun words =>
    .bind onlyReads_skipAttributes fun _ => .bind onlyReads_tagPath? fun path =>
      .bind (.pure _) fun underlying => .bind (onlyReads_check _) fun _ => ?_
  exact onlyReads_forwardTag _ _ _

theorem markedSpecifier_includes (specs : DeclSpecs) (word : Keyword) (specifier : Specifier) :
    Includes (skip 1) (markedSpecifier specs word specifier) := by
  have language : OnlyReads (do
      if word = .externKw then
        let _ ← eat (.literal .string)
      return { specs with specifiers := specs.specifiers.insert specifier } :
        ParseM DeclSpecs) := by
    simp
  refine .here fun _ => .ite ?_ language
  exact .bind (onlyReads_skipGroupIf _) fun _ => language

@[simp] theorem onlyReads_markedSpecifier (specs : DeclSpecs) (word : Keyword)
    (specifier : Specifier) : OnlyReads (markedSpecifier specs word specifier) :=
  (markedSpecifier_includes specs word specifier).onlyReads (onlyReads_skip 1)

@[simp] theorem onlyReads_namedType (specs : DeclSpecs) : OnlyReads (namedType specs) := by
  simp [namedType]

theorem deducedType_includes (specs : DeclSpecs) : Includes (skip 1) (deducedType specs) := by
  refine .behind onlyReads_mark fun start => .here fun _ => ?_
  simp

@[simp] theorem onlyReads_deducedType (specs : DeclSpecs) : OnlyReads (deducedType specs) :=
  (deducedType_includes specs).onlyReads (onlyReads_skip 1)

@[simp] theorem onlyReads_typeWord (specs : DeclSpecs) (isType : Bool) :
    OnlyReads (typeWord specs isType) := by
  simp [typeWord]

theorem onlyReads_keywordSpecifier {mode : SpecifierMode} (bodiless : mode ≠ .declaration)
    (specs : DeclSpecs) (word : Keyword) :
    OnlyReads (keywordSpecifier rules mode specs word) := by
  have outside : decide (mode = .declaration) = false := by simp [bodiless]
  have classes : OnlyReads (classSpecifier rules specs false) :=
    (classSpecifier_includes specs).onlyReads onlyReads_advance
  have enums : OnlyReads (enumSpecifier rules specs false) :=
    (enumSpecifier_includes specs).onlyReads onlyReads_advance
  unfold keywordSpecifier
  split
  · simp
  · refine .ite (by simp) (.ite (by simp) ?_)
    split <;> simp [outside, classes, enums]

@[simp] theorem onlyReads_nameSpecifier (mode : SpecifierMode) (specs : DeclSpecs) :
    OnlyReads (nameSpecifier mode specs) := by
  refine .ite (.pure _) (.bind onlyReads_className? fun _ => .bind onlyReads_unread fun _ => ?_)
  simp

theorem onlyReads_nextSpecifier {mode : SpecifierMode} (bodiless : mode ≠ .declaration)
    (specs : DeclSpecs) : OnlyReads (nextSpecifier rules mode specs) := by
  refine .bind onlyReads_peek fun token => ?_
  split
  · exact onlyReads_keywordSpecifier bodiless specs _
  · simp
  · simp
  · simp
  · simp

theorem onlyReads_specifiers {mode : SpecifierMode} (bodiless : mode ≠ .declaration) :
    OnlyReads (specifiers rules mode) :=
  .iterate (onlyReads_nextSpecifier bodiless) {}

/-! ## Declarators -/

@[simp] theorem onlyReads_memberPointer (tokens : List Token) :
    OnlyReads (memberPointer tokens) := by
  refine .bind onlyReads_unread fun unread => ?_
  split
  · refine .bind onlyReads_mark fun start => ?_
    simp
  · simp

@[simp] theorem onlyReads_pointerOperator (tokens : List Token) :
    OnlyReads (pointerOperator tokens) := by
  refine .bind onlyReads_peek fun token => ?_
  split
  · refine .ite (by simp) (.ite (by simp) (by simp))
  · simp
  · simp
  · simp

@[simp] theorem onlyReads_pointerOperators : OnlyReads pointerOperators := by
  simp [pointerOperators]

@[simp] theorem onlyReads_skipConversion : OnlyReads skipConversion := by
  simp [skipConversion]

theorem operatorName_includes : Includes (expect (.keyword .operatorKw)) operatorName := by
  refine .behind onlyReads_mark fun start => .here fun word => .bind onlyReads_peek fun token => ?_
  have spelled : OnlyReads (do return spell (← since start)) := by simp
  have array : OnlyReads (do
      skip 1
      if (← check (.punct .leftBracket)) && (← checkAhead 1 (.punct .rightBracket)) then skip 2
      return spell (← since start)) :=
    .bind (onlyReads_skip 1) fun _ => .bind (onlyReads_check _) fun _ =>
      .bind (onlyReads_checkAhead _ _) fun _ => .ite (.bind (onlyReads_skip 2) fun _ => spelled)
        spelled
  split
  · exact .bind (onlyReads_skip 1) fun _ => .bind (onlyReads_expect _) fun _ => spelled
  · exact .bind (onlyReads_skip 1) fun _ => .bind (onlyReads_expect _) fun _ => spelled
  · exact array
  · exact array
  · exact .bind (onlyReads_skip 1) fun _ => .bind (onlyReads_eat _) fun _ => spelled
  · exact .bind (.refuse (by simp) _) fun _ => spelled
  · exact .bind (.refuse (by simp) _) fun _ => spelled
  · exact .bind (.refuse (by simp) _) fun _ => spelled
  · exact .ite (.bind (onlyReads_skip 1) fun _ => spelled)
      (.bind onlyReads_skipConversion fun _ => spelled)
  · exact .bind onlyReads_skipConversion fun _ => spelled

@[simp] theorem onlyReads_operatorName : OnlyReads operatorName :=
  operatorName_includes.onlyReads (onlyReads_expect _)

@[simp] theorem onlyReads_segmentQualifies : OnlyReads segmentQualifies := by
  simp [segmentQualifies]

@[simp] theorem onlyReads_declaredSegment (start : Nat) (isGlobal : Bool)
    (qualifier : QualifierSoFar) : OnlyReads (declaredSegment start isGlobal qualifier) := by
  refine .bind onlyReads_peek fun token => ?_
  split
  · refine .bind (onlyReads_skip 1) fun _ => .bind onlyReads_expectIdentifier fun className =>
      .bind (onlyReads_check _) fun _ => ?_
    simp
  · simp
  · refine .bind (onlyReads_skip 1) fun _ => .bind onlyReads_skipClosedArguments fun _ =>
      .bind onlyReads_segmentQualifies fun qualifies => .ite ?_ (.pure _)
    refine .bind (onlyReads_since start) fun text => .bind (onlyReads_skip 1) fun _ => ?_
    simp
  · exact onlyReads_refuseName

@[simp] theorem onlyReads_declaratorId : OnlyReads declaratorId := by
  refine .bind onlyReads_mark fun start => .bind (onlyReads_eat _) fun isGlobal =>
    .bind (onlyReads_since start) fun lead => ?_
  simp

@[simp] theorem onlyReads_parametersAhead : OnlyReads parametersAhead := by
  refine .bind (onlyReads_ahead 1) fun token => ?_
  split
  · simp
  · simp
  · simp
  · simp
  · split <;> simp
  · refine .bind onlyReads_table fun table => .bind onlyReads_lookupScope fun scope => ?_
    split
    · split <;> simp
    · simp
  · simp

theorem onlyReads_typedParameter (reads : rules.Reads) (start : Span) :
    OnlyReads (typedParameter rules start) := by
  refine .bind onlyReads_skipAttributes fun _ =>
    .bind (onlyReads_specifiers (by simp)) fun specs => ?_
  have rest : OnlyReads (do
      let declarator ← rules.declarator .parameter
      let hasDefault ← eat (.punct .equal)
      if hasDefault then skipExpression [.punct .comma, .punct .rightParen]
      return {
        name := declarator.id.map DeclaratorId.name
        type := specs.typeRef declarator
        hasDefault := hasDefault
        isVariadic := declarator.isPack
        start := start
        last := ← previousSpan : ParsedParameter }) := by
    refine .bind (reads.declarator _) fun declarator => .bind (onlyReads_eat _) fun _ => .ite ?_ ?_
    · exact .bind (onlyReads_skipExpression _) fun _ => by simp
    · simp
  refine .ite (.bind onlyReads_peek fun found => ?_) rest
  exact .bind (.refuse (by simp) _) fun _ => rest

theorem onlyReads_nextParameter (reads : rules.Reads) (parameters : List ParsedParameter) :
    OnlyReads (nextParameter rules parameters) := by
  refine .bind onlyReads_peek fun token => .bind (onlyReads_eat _) fun dots =>
    .ite (.pure _) (.bind (onlyReads_typedParameter reads _) fun parameter =>
      .bind (onlyReads_check _) fun _ => ?_)
  simp

theorem onlyReads_parameterList (reads : rules.Reads) : OnlyReads (parameterList rules) := by
  have items : OnlyReads (do
      if ← eat (.punct .rightParen) then
        return []
      else
        let parameters ← iterate (nextParameter rules) []
        let _ ← expect (.punct .rightParen)
        return parameters) := by
    refine .bind (onlyReads_eat _) fun _ => .ite (.pure _) ?_
    exact .bind (.iterate (onlyReads_nextParameter reads) []) fun parameters => by simp
  refine .bind (onlyReads_expect _) fun _ => .bind (onlyReads_check _) fun _ =>
    .bind (onlyReads_checkAhead _ _) fun _ => ?_
  exact .ite (.bind (onlyReads_skip 1) fun _ => items) items

@[simp] theorem onlyReads_typeGroup (declarator : Declarator) :
    OnlyReads (typeGroup declarator) := by
  refine .bind onlyReads_mark fun start => ?_
  simp

theorem onlyReads_declaratorSuffix (reads : rules.Reads) (mode : DeclaratorMode)
    (declarator : Declarator) : OnlyReads (declaratorSuffix rules mode declarator) := by
  refine .bind onlyReads_peek fun token => ?_
  split
  · refine .ite (.pure _) (.ite (.bind onlyReads_parametersAhead fun _ => ?_) (by simp))
    simp [onlyReads_parameterList reads]
  · refine .bind (onlyReads_checkAhead _ _) fun _ => .ite (by simp) (by simp)
  · simp

@[simp] theorem onlyReads_nestedAhead : OnlyReads nestedAhead := by
  refine .bind (onlyReads_check _) fun _ => ?_
  refine .ite (.bind (onlyReads_ahead 1) fun next => ?_) (by simp)
  split <;> simp

theorem onlyReads_nestedDeclarator (reads : rules.Reads) (mode : DeclaratorMode)
    (declarator : Declarator) : OnlyReads (nestedDeclarator rules mode declarator) := by
  refine .bind onlyReads_advance fun opener => .bind (reads.declarator mode) fun inner =>
    .bind (onlyReads_expect _) fun closer => .bind onlyReads_mark fun start =>
      .bind onlyReads_unread fun tokens => ?_
  simp

@[simp] theorem onlyReads_declaratorName (mode : DeclaratorMode) :
    OnlyReads (declaratorName mode) := by
  unfold declaratorName
  split
  · simp
  · refine .bind onlyReads_peek fun token => ?_
    split <;> simp
  · simp

theorem onlyReads_declarator (reads : rules.Reads) (mode : DeclaratorMode) :
    OnlyReads (declarator rules mode) := by
  refine .bind onlyReads_pointerOperators fun tokens => .bind (onlyReads_eat _) fun isPack =>
    .bind onlyReads_nestedAhead fun nested => .ite (onlyReads_nestedDeclarator reads mode _) ?_
  exact .bind (onlyReads_declaratorName mode) fun id => .bind onlyReads_skipAttributes fun _ =>
    .iterate (onlyReads_declaratorSuffix reads mode) _

/-- Rules for any depth of nesting only read where they should. -/
theorem reads_ofDepth (depth : Nat) : (Rules.ofDepth depth).Reads := by
  induction depth with
  | zero => exact ⟨fun _ => .stuck, fun _ => .stuck⟩
  | succ depth reads =>
      exact ⟨fun bodiless => onlyReads_specifiers bodiless, onlyReads_declarator reads⟩

/-! ## Functions and variables -/

@[simp] theorem onlyReads_qualifierScope (id : DeclaratorId) : OnlyReads (qualifierScope id) := by
  unfold qualifierScope
  split <;> simp

theorem onlyReads_trailingType (reads : rules.Reads) : OnlyReads (trailingType rules) := by
  refine .bind (onlyReads_skip 1) fun _ => .bind (reads.specifiers (by simp)) fun specs => ?_
  simp [reads.declarator]

@[simp] theorem onlyReads_functionWord (tail : FunctionTail) (token : Token) :
    OnlyReads (functionWord tail token) := by
  refine .ite (by simp) (.ite (by simp) (.ite (by simp) (by simp)))

theorem onlyReads_functionItem (reads : rules.Reads) (tail : FunctionTail) :
    OnlyReads (functionItem rules tail) := by
  refine .bind onlyReads_peek fun token => ?_
  split <;> simp [onlyReads_trailingType reads]

@[simp] theorem onlyReads_functionMark : OnlyReads functionMark := by
  refine .bind (onlyReads_check _) fun _ => .ite (.bind (onlyReads_ahead 1) fun value => ?_)
    (.pure _)
  have other : OnlyReads (refuse (.badFunctionValue value.kind) value.span :
      ParseM (Option (Specifier × Bool))) := .refuse (by simp) _
  split <;> simp [other]

@[simp] theorem onlyReads_bodyAhead : OnlyReads bodyAhead := by
  refine .bind onlyReads_peek fun token => ?_
  split <;> simp

@[simp] theorem onlyReads_skipBraces : OnlyReads skipBraces := by
  simp [skipBraces]

@[simp] theorem onlyReads_initializerSegment : OnlyReads (initializerSegment ()) := by
  refine .bind onlyReads_expectIdentifier fun _ => .bind onlyReads_jumpClosedArguments fun _ => ?_
  simp

@[simp] theorem onlyReads_constructorInitializer : OnlyReads (constructorInitializer ()) := by
  have group : OnlyReads (do
      skipGroup
      let _ ← eat (.punct .ellipsis)
      if ← eat (.punct .comma) then return Step.again () else return Step.done () :
        ParseM (Step Unit Unit)) := by
    refine .bind onlyReads_skipGroup fun _ => .bind (onlyReads_eat _) fun _ => ?_
    simp
  refine .bind (onlyReads_eat _) fun _ =>
    .bind (.iterate (fun _ => onlyReads_initializerSegment) ()) fun _ =>
      .bind (onlyReads_check _) fun _ => .bind (onlyReads_check _) fun _ => .ite ?_ group
  exact .bind (onlyReads_expect _) fun _ => group

@[simp] theorem onlyReads_exceptionHandler : OnlyReads (exceptionHandler ()) := by
  refine .bind (onlyReads_eat _) fun _ => .ite (.bind (onlyReads_skipGroupIf _) fun _ => ?_)
    (.pure _)
  simp

@[simp] theorem onlyReads_skipBody : OnlyReads skipBody := by
  refine .bind (onlyReads_eat _) fun catches => .bind (onlyReads_eat _) fun _ => ?_
  have rest : OnlyReads (do
      skipBraces
      if catches then iterate exceptionHandler ()) :=
    .bind onlyReads_skipBraces fun _ =>
      .ite (.iterate (fun _ => onlyReads_exceptionHandler) ()) (.pure ())
  exact .ite (.bind (.iterate (fun _ => onlyReads_constructorInitializer) ()) fun _ => rest) rest

@[simp] theorem onlyReads_initializer (declarator : Declarator) :
    OnlyReads (initializer declarator) := by
  refine .ite (.pure _) (.bind (onlyReads_eat _) fun _ => .ite (by simp) ?_)
  simp

@[simp] theorem onlyReads_isDeclarationOnly (specs : DeclSpecs) (id : DeclaratorId)
    (hasInitializer : Bool) : OnlyReads (isDeclarationOnly specs id hasInitializer) := by
  simp [isDeclarationOnly]

/-! ## Templates and namespaces -/

@[simp] theorem onlyReads_parameterName : OnlyReads parameterName := by
  refine .bind (onlyReads_eat _) fun _ => .bind onlyReads_peek fun token => ?_
  simp

@[simp] theorem onlyReads_typeParameter : OnlyReads typeParameter := by
  simp [typeParameter]

theorem templateTemplateParameter_includes : Includes (skip 1) templateTemplateParameter := by
  refine .here fun _ => .bind onlyReads_skipTemplateArguments fun _ =>
    .bind onlyReads_peek fun found => .ite ?_ (.refuse (by simp) _)
  simp

@[simp] theorem onlyReads_templateTemplateParameter : OnlyReads templateTemplateParameter :=
  templateTemplateParameter_includes.onlyReads (onlyReads_skip 1)

theorem onlyReads_valueParameter (reads : rules.Reads) (token : Token) :
    OnlyReads (valueParameter rules token) := by
  refine .bind (onlyReads_specifiers (by simp)) fun specs => .ite ?_ ?_
  · exact .bind (.refuse (by simp) _) fun _ => by simp [onlyReads_declarator reads]
  · simp [onlyReads_declarator reads]

@[simp] theorem onlyReads_dependentTypeAhead : OnlyReads dependentTypeAhead :=
  .looks fun _ => ⟨_, rfl⟩

theorem onlyReads_parameterHead (reads : rules.Reads) : OnlyReads (parameterHead rules) := by
  refine .bind onlyReads_peek fun token => ?_
  split <;> simp [onlyReads_valueParameter reads]

@[simp] theorem onlyReads_constraintOperand : OnlyReads (constraintOperand ()) := by
  have operator : OnlyReads (do
      if ← eat (.punct .ampAmp) then return Step.again ()
      else if ← eat (.punct .pipePipe) then return Step.again ()
      else return Step.done () : ParseM (Step Unit Unit)) := by
    refine .bind (onlyReads_eat _) fun _ => .ite (.pure _) ?_
    simp
  refine .bind onlyReads_peek fun token => .ite ?_ (.ite ?_ ?_)
  · exact .bind onlyReads_skipGroup fun _ => operator
  · exact .bind (onlyReads_skip 1) fun _ => operator
  · exact .bind onlyReads_namePath fun _ => operator

@[simp] theorem onlyReads_skipConstraint : OnlyReads skipConstraint := by
  refine .bind (onlyReads_checkWord _) fun _ => .ite (.bind (onlyReads_skip 1) fun _ => ?_)
    (.pure _)
  exact .iterate (fun _ => onlyReads_constraintOperand) ()

@[simp] theorem onlyReads_namespaceSegment (segments : List (String × Bool)) :
    OnlyReads (namespaceSegment segments) := by
  refine .bind (onlyReads_eat _) fun _ => .ite (.bind (onlyReads_eat _) fun _ => ?_) (.pure _)
  simp

@[simp] theorem onlyReads_namespaceSegments (isInline : Bool) :
    OnlyReads (namespaceSegments isInline) := by
  refine .bind onlyReads_peek fun token => ?_
  simp

@[simp] theorem onlyReads_aliasAhead : OnlyReads aliasAhead :=
  .looks fun _ => ⟨_, rfl⟩

end ParseM

end DeclTree
