import DeclTree.Proofs.DeclarationOutcome
import DeclTree.Proofs.Lookahead

/-!
# Every parse comes to the end of its text

Whatever the text is, a parse reads it to its end without ever getting stuck.
Every loop leaves less to read with each round it goes on, measured so that a
token which may be split in two counts twice.  Stretches that are passed over and
names that are read ahead are found by recursion on the tokens to come; they end
with the text, and no counter in them goes below zero.
-/

namespace DeclTree

open ParseState (Activity)

namespace ParseM

/-! ## Loops -/

/-- Whether a round of a loop does not get stuck and leaves less to read if the loop
goes on. -/
def Shortens {α β : Type} (round : ParseM (Step α β)) (state : ParseState) : Prop :=
  Ends round state (fun outcome next => ∀ value, outcome = .again value →
    next.cursor.weight < state.cursor.weight) fun _ => True

theorem Yields.shortens {α β : Type} {round : ParseM (Step α β)} {state : ParseState}
    {keeps : α → ParseState → Prop} {result : β → ParseState → Prop}
    (yields : Yields round state fun outcome next =>
      outcome.Advances state keeps result next) : Shortens round state := by
  refine Ends.mono yields ?_ (fun _ _ => trivial)
  rintro outcome next ⟨_, advances⟩ value rfl
  exact advances.1

/-- Whether all loops of a parse shorten what is left to read in some state. -/
structure LoopsShorten (rules : Rules) (state : ParseState) : Prop where
  names : ∀ start isGlobal segments, Shortens (nameSegment start isGlobal segments) state
  bases : ∀ found, Shortens (baseClass found) state
  enumerators : ∀ parent scope, state.tree.Has parent →
    Shortens (enumeratorItem parent scope ()) state
  specifiers : ∀ mode specs, Shortens (nextSpecifier rules mode specs) state
  pointers : ∀ tokens, Shortens (pointerOperator tokens) state
  declaredNames : ∀ start isGlobal qualifier,
    Shortens (declaredSegment start isGlobal qualifier) state
  parameters : ∀ found, Shortens (nextParameter rules found) state
  suffixes : ∀ mode declarator, Shortens (declaratorSuffix rules mode declarator) state
  functionTails : ∀ tail, Shortens (functionItem rules tail) state
  initializerNames : Shortens (initializerSegment ()) state
  initializers : Shortens (constructorInitializer ()) state
  handlers : Shortens (exceptionHandler ()) state
  declarators : ∀ specs start, Shortens (declaratorItem rules specs start) state
  namespaces : ∀ segments, Shortens (namespaceSegment segments) state
  templateParameters : ∀ node template, state.tree.Has node →
    Shortens (templateParameterItem rules node template ()) state
  constraints : Shortens (constraintOperand ()) state
  declarations : ∀ closing, Shortens (declarationItem rules closing ()) state

/-- Rules for as many levels of nesting as there is left to read go on only behind
something they have read. -/
theorem loopsShorten_ofDepth {state : ParseState} (sound : state.Sound) {depth : Nat}
    (within : state.cursor.weight ≤ depth) : LoopsShorten (Rules.ofDepth depth) state := by
  have works := works_ofDepth depth
  constructor
  · intro start isGlobal segments
    exact (yields_nameSegment sound start isGlobal segments).shortens
  · intro found
    exact (yields_baseClass sound found).shortens
  · intro parent scope present
    exact (yields_enumeratorItem sound present scope).shortens
  · intro mode specs
    exact (yields_nextSpecifier works sound within mode specs).shortens
  · intro tokens
    exact (yields_pointerOperator sound tokens).shortens
  · intro start isGlobal qualifier
    exact (yields_declaredSegment sound start isGlobal qualifier).shortens
  · intro found
    exact (yields_nextParameter works sound within found).shortens
  · intro mode declarator
    exact (yields_declaratorSuffix works sound within mode declarator).shortens
  · intro tail
    exact (yields_functionItem works sound within tail).shortens
  · exact (yields_initializerSegment sound).shortens
  · exact (yields_constructorInitializer sound).shortens
  · exact (yields_exceptionHandler sound).shortens
  · intro specs start
    exact (yields_declaratorItem works sound within specs start).shortens
  · intro segments
    exact (yields_namespaceSegment sound segments).shortens
  · intro node template present
    exact (yields_templateParameterItem works sound within present template).shortens
  · exact (yields_constraintOperand sound).shortens
  · intro closing
    exact (completes_declarationItem works sound within closing).yields.shortens

end ParseM

/-! ## Tokens to come -/

/-- Whether everything that is passed over lies inside some tokens, and where
something has to be passed over, it is not empty. -/
structure Stretch.StayWithin (tokens : List Token) : Prop where
  group : (Stretch.group tokens).length ≤ tokens.length
  group_pos : tokens ≠ [] → 0 < (Stretch.group tokens).length
  expression : ∀ stops, (Stretch.expression stops tokens).length ≤ tokens.length
  upTo : ∀ stops, (Stretch.upTo stops tokens).length ≤ tokens.length
  suffixes : (Stretch.suffixes tokens).length ≤ tokens.length
  attributes : (Stretch.attributes tokens).length ≤ tokens.length
  recovery : Stretch.recovery tokens ≤ tokens.length
  recovery_pos : ∀ token rest, tokens = token :: rest → token.kind ≠ .eof →
    token.kind ≠ .punct .rightBrace → 0 < Stretch.recovery tokens
  arguments : ∀ depth, (Angle.arguments depth tokens).Inside tokens
  parameterDefault : ∀ depth, (Angle.parameterDefault depth tokens).Inside tokens

theorem Stretch.stayWithin (tokens : List Token) : Stretch.StayWithin tokens where
  group := length_group_le tokens
  group_pos := length_group_pos
  expression stops := length_expression_le stops tokens
  upTo stops := length_upTo_le stops tokens
  suffixes := length_suffixes_le tokens
  attributes := length_attributes_le tokens
  recovery := recovery_le tokens
  recovery_pos token rest starts more inside := by
    rw [starts]
    exact Stretch.recovery_pos more inside
  arguments depth := Angle.inside_arguments depth tokens
  parameterDefault depth := Angle.inside_parameterDefault depth tokens

/-- Whether reading ahead stops at the end of the text: what stands behind it makes
no difference, and jumps to a place found ahead stay in front of it. -/
structure Ahead.StopsAt (final : Token) (tokens : List Token) : Prop where
  arguments : ∀ rest, Angle.close? (tokens ++ final :: rest) = Angle.close? tokens
  constructors : ∀ className rest,
    isConstructor className (tokens ++ final :: rest) = isConstructor className tokens
  memberPointers : ∀ rest, memberPointer? (tokens ++ final :: rest) = memberPointer? tokens
  arguments_le : ∀ length, Angle.close? tokens = some length → length ≤ tokens.length
  memberPointers_le : ∀ length, memberPointer? tokens = some length →
    0 < length ∧ length ≤ tokens.length

theorem Ahead.stopsAt {final : Token} (ends : final.kind = .eof) (tokens : List Token) :
    Ahead.StopsAt final tokens where
  arguments rest := Angle.close?_append_end (by rw [ends]; rfl) tokens rest
  constructors className rest := isConstructor_append_end (by rw [ends]; rfl) className tokens rest
  memberPointers rest := memberPointer?_append_end (by rw [ends]; rfl) tokens rest
  arguments_le _ closed := Angle.close?_le closed
  memberPointers_le _ found := memberPointer?_bounds found

/-- Whether the counters of open groups and lists, as they are started, never go
below zero in some tokens. -/
structure CountersHold (tokens : List Token) : Prop where
  groups : ∀ opener closer, Stretch.groupTail? opener closer 1 tokens =
    some (Stretch.groupTail opener closer 1 tokens)
  arguments : Angle.arguments? 1 tokens = some (Angle.arguments 1 tokens)
  parameterDefault : Angle.parameterDefault? 0 tokens = some (Angle.parameterDefault 0 tokens)

theorem countersHold (tokens : List Token) : CountersHold tokens where
  groups opener closer := Stretch.groupTail?_eq opener closer Nat.one_pos tokens
  arguments := Angle.arguments?_eq Nat.one_pos tokens
  parameterDefault := Angle.parameterDefault?_eq 0 tokens

/-! ## Whole parses -/

namespace ParseState

theorem sound_start (options : ParseOptions) {table : SymbolTable} (reached : table.Reachable)
    (unit : UnitId) (source : String) : (start options table unit source).Sound where
  cursor := sound_startCursor options.dialect source
  table := reached
  tree := Tree.sound_empty unit
  scopes frame member := by
    obtain rfl : frame = startScopes.inner := by
      simpa [start, ofStream, ScopeStack.frames, startScopes] using member
    exact (Tree.sound_empty unit).has_root

/-- The scopes of a unit are those it started with once every scope is left. -/
theorem eq_startScopes {scopes : ScopeStack} (remain : startScopes.Remain scopes) :
    scopes = startScopes := by
  obtain ⟨inner, outer⟩ := scopes
  change List.Forall₂ _ [startScopes.inner] (inner :: outer) at remain
  cases remain with
  | cons head tail =>
      cases tail
      rcases head with rfl | ⟨template, _⟩
      · rfl
      · simp [startScopes] at template

/-- What a parse leaves behind: the end of the text is reached, every scope is left,
and the state is in order. -/
structure Finished (start final : ParseState) : Prop where
  run : ParseM.translationUnit start = .ok () final
  peek : final.cursor.peek.kind = .eof
  unread : final.cursor.unread = []
  scopes : final.scopes = startScopes
  sound : final.Sound
  activity : Activity start final

theorem exists_finished (options : ParseOptions) {table : SymbolTable}
    (reached : table.Reachable) (unit : UnitId) (source : String) :
    ∃ final, Finished (start options table unit source) final := by
  have sound := sound_start options reached unit source
  obtain ⟨_, final, run, activity, ends⟩ := (ParseM.completes_translationUnit sound).exists_ok
  have soundFinal := activity.sound sound
  exact ⟨final, run, ends, soundFinal.cursor.peek_eof_iff.1 ends,
    eq_startScopes activity.scopesRemain, soundFinal, activity⟩

theorem finish_eq {start final : ParseState} (finished : Finished start final) :
    start.finish = final := by
  unfold finish
  rw [finished.run]

end ParseState

/-- The table behind a unit is one that table operations lead to. -/
theorem reachable_parseUnit (options : ParseOptions) {table : SymbolTable}
    (reached : table.Reachable) (unit : UnitId) (source : String) :
    (parseUnit options table unit source).table.Reachable := by
  obtain ⟨final, finished⟩ := ParseState.exists_finished options reached unit source
  simp only [parseUnit, ParseState.parsed, ParseState.finish_eq finished]
  exact finished.sound.table

namespace ParseState

/-- How a parse comes to its end: it finishes, no loop goes round without reading
something, everything passed over and read ahead lies inside the text, the cursor
stays in range, and no counter goes below zero. -/
structure Terminates (start : ParseState) : Prop where
  finished : ∃ final, Finished start final
  loops : ∀ depth (state : ParseState), state.Sound → state.cursor.weight ≤ depth →
    ParseM.LoopsShorten (Rules.ofDepth depth) state
  cursor : ∀ cursor, start.cursor.Moves cursor → cursor.Sound ∧ cursor.InRange ∧
    cursor.weight ≤ start.cursor.weight
  skips : ∀ tokens, Stretch.StayWithin tokens
  ahead : ∀ final : Token, final.kind = .eof → ∀ tokens, Ahead.StopsAt final tokens
  counters : ∀ tokens, CountersHold tokens

/-- Every parse of every source terminates, from any table in use and with any
options. -/
theorem parse_terminates (options : ParseOptions) {table : SymbolTable}
    (reached : table.Reachable) (unit : UnitId) (source : String) :
    (start options table unit source).Terminates where
  finished := exists_finished options reached unit source
  loops _ _ sound within := ParseM.loopsShorten_ofDepth sound within
  cursor cursor moves := by
    have sound := moves.sound (sound_start options reached unit source).cursor
    exact ⟨sound, cursor.inRange, moves.weight_le⟩
  skips := Stretch.stayWithin
  ahead _ ends := Ahead.stopsAt ends
  counters := countersHold

end ParseState

end DeclTree
