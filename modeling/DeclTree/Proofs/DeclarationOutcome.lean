import DeclTree.Proofs.TemplateOutcome

/-!
# Declarations

A declaration that is not refused leaves less to read.  One that is refused is
given up, which leaves less to read as well, so the declarations of a scope come
to its end whatever the text is.  By induction on the depth of nesting, rules for
as many levels as there is left to read never get stuck.
-/

namespace DeclTree

namespace SymbolTable

theorem has_of_isNamespace {table : SymbolTable} {id : SymbolId}
    (found : table.isNamespace id = true) : table.Has id := by
  cases present : table.get? id with
  | none => simp [isNamespace, present] at found
  | some symbol => exact has_of_get? present

theorem has_of_findNamespace? {table : SymbolTable} {scope id : SymbolId} {name : String}
    (found : table.findNamespace? scope name = some id) : table.Has id := by
  unfold findNamespace? at found
  split at found
  · have anonymous := List.find?_some found
    cases present : table.get? id with
    | none => simp [isAnonymousNamespace, present] at anonymous
    | some symbol => exact has_of_get? present
  · exact has_of_isNamespace (List.find?_some found)

/-- A namespace that was opened exists. -/
theorem has_of_openNamespace {table after : SymbolTable} {scope id : SymbolId} {name : String}
    {unit : Option UnitId} (opened : table.openNamespace scope name unit = .ok (id, after)) :
    after.Has id := by
  rcases openNamespace_ok opened with ⟨found, rfl⟩ | declared
  · exact has_of_findNamespace? found
  · obtain ⟨_, attached⟩ := attach_of_declare declared
    obtain ⟨rfl, rfl⟩ := Prod.mk.inj attached
    exact (has_attach _ _ _ _).2 (.inl rfl)

end SymbolTable

namespace ParseM

open ParseState (Activity Pending)

variable {state : ParseState} {rules : Rules} {bound : Nat}

theorem activity_addUsing {target : SymbolId} (present : state.table.Has target)
    (scope : SymbolId) : Activity state (state.withTable (state.table.addUsing scope target)) := by
  have admitted : state.table.Admits (.addUsing scope target) := present
  have keeps : (TableOperation.addUsing scope target).KeepsFrames := trivial
  exact .perform admitted keeps

/-! ## Namespaces -/

/-- A state inside scopes that were entered one in the other, each with a node that
waits to be finished, innermost first. -/
inductive Entered (origin : ParseState) : List NodeId → ParseState → Prop
  | none {next : ParseState} (activity : Activity origin next) : Entered origin [] next
  | inside {nodes : List NodeId} {begun next : ParseState} {parent : NodeId} {kind : NodeKind}
      {start : Span} {frame : ScopeFrame} (outer : Entered origin nodes begun)
      (present : begun.tree.Has parent)
      (framed : frame.node = (begun.addNode parent kind start).1)
      (activity : Activity ((begun.addNode parent kind start).2.enter frame) next) :
      Entered origin ((begun.addNode parent kind start).1 :: nodes) next

theorem Entered.andThen {origin next : ParseState} {nodes : List NodeId}
    (entered : Entered origin nodes state) (activity : Activity state next) :
    Entered origin nodes next := by
  cases entered with
  | none before => exact .none (before.trans activity)
  | inside outer present framed before =>
      exact .inside outer present framed (before.trans activity)

theorem Entered.sound {origin : ParseState} {nodes : List NodeId}
    (entered : Entered origin nodes state) (sound : origin.Sound) : state.Sound := by
  induction entered with
  | none activity => exact activity.sound sound
  | @inside nodes begun next parent kind start frame _ _ framed activity ih =>
      have started := ih.addNode parent kind start
      have here := begun.has_addNode parent kind start
      exact activity.sound (started.enter (framed ▸ here))

theorem openNamespace_ends {origin : ParseState} {nodes : List NodeId}
    (entered : Entered origin nodes state) (sound : state.Sound) (start : Span) (name : String)
    (isInline : Bool) :
    Ends (openNamespace start name isInline) state
      (fun node next => Entered origin (node :: nodes) next ∧ next.cursor = state.cursor)
      (Entered origin nodes) := by
  unfold openNamespace
  refine Ends.bind ((yields_checkNesting start).mono (fun _ _ done => done.2)
    fun _ activity => entered.andThen activity) ?_
  rintro _ here rfl
  simp only [ends_lookupScope, ends_unit]
  apply ends_changeTable entered
  intro symbol table opened
  have inTable := activity_settled (.openNamespace _ name _) trivial trivial rfl opened
  have present := SymbolTable.has_of_openNamespace opened
  have inside {next : ParseState} (activity : Activity here next)
      (same : next.cursor = here.cursor) :
      Ends (do
        let node ← addNode (.namespaceScope ⟨name, isInline, symbol⟩) start
        pushScope ⟨node, symbol, .container, .namespaceScope⟩
        return node) next
        (fun node last => Entered origin (node :: nodes) last ∧ last.cursor = here.cursor)
        (Entered origin nodes) := by
    have soundNext := activity.sound sound
    simp only [ends_addNode soundNext, ends_pushScope]
    exact ⟨.inside (entered.andThen activity) soundNext.has_inner rfl (.refl _), same⟩
  split
  · simp only [ends_table, ends_setTable]
    exact inside (inTable.trans (activity_addUsing present here.scopes.inner.symbol)) rfl
  · exact inside inTable rfl

/-- Namespaces that were entered are left again, innermost first. -/
theorem closeNamespaces_ends {origin : ParseState} {nodes : List NodeId}
    (entered : Entered origin nodes state) :
    Ends (closeNamespaces nodes) state (fun _ next => Activity origin next) fun _ => False := by
  induction nodes generalizing state with
  | nil =>
      cases entered with
      | none activity => exact activity
  | cons node outer ih =>
      cases entered with
      | inside around present _ activity =>
          unfold closeNamespaces
          simp only [ends_popScope, ends_finishNode]
          exact ih (around.andThen (.node present (.scope activity)))

/-- Namespaces are entered without reading anything, or all those entered are left
again. -/
theorem openNamespaces_ends {origin : ParseState} (sound : origin.Sound) {nodes : List NodeId}
    (entered : Entered origin nodes state) (start : Span) (segments : List (String × Bool)) :
    Ends (openNamespaces start nodes segments) state
      (fun opened next => Entered origin opened next ∧ next.cursor = state.cursor)
      (Activity origin) := by
  induction segments generalizing state nodes with
  | nil => exact ⟨entered, rfl⟩
  | cons segment rest ih =>
      obtain ⟨name, isInline⟩ := segment
      unfold openNamespaces
      have soundHere := entered.sound sound
      apply Ends.bind (openNamespace_ends entered soundHere start name isInline).attempt
      intro opened next done
      cases opened with
      | ok node =>
          obtain ⟨inside, same⟩ := done
          apply (ih inside).imp
          rintro nodes last ⟨all, still⟩
          exact ⟨all, still.trans same⟩
      | error error =>
          apply Ends.bind (closeNamespaces_ends done).unrefused
          intro _ _ left
          exact left

theorem yields_namespaceSegment (sound : state.Sound) (segments : List (String × Bool)) :
    Yields (namespaceSegment segments) state fun outcome next =>
      outcome.Advances state (fun _ _ => True) (fun _ _ => True) next := by
  unfold namespaceSegment
  apply (yields_eat sound (by simp)).bind sound
  intro found first follows ⟨read, _⟩
  split
  · rename_i colons
    have less := read colons
    apply (yields_eat follows.sound (by simp)).bind follows.sound
    intro isInline second followsInline _
    apply (yields_expectIdentifier followsInline.sound).bind followsInline.sound
    intro name last followsName _
    have lessLast := (followsInline.trans followsName).weight_le
    exact yields_pure ⟨by omega, trivial⟩
  · exact yields_pure trivial

theorem yields_namespaceSegments (sound : state.Sound) (isInline : Bool) :
    Yields (namespaceSegments isInline) state fun _ _ => True := by
  unfold namespaceSegments
  simp only [ends_peek]
  apply (yields_eat sound (by simp)).bind sound
  intro named first follows _
  split
  · apply yields_iterate follows.sound (fun _ _ => True) trivial
    intro segments next followsNext _
    exact yields_namespaceSegment followsNext.sound segments
  · exact yields_pure trivial

/-- Behind its opening brace a namespace is never refused, so all the namespaces
that were entered are left again. -/
theorem yields_namespaceBody (works : rules.Works bound) (sound : state.Sound)
    (within : state.cursor.weight < bound) (start : Span) (isInline : Bool) :
    Yields (namespaceBody rules start isInline) state fun _ _ => True := by
  unfold namespaceBody
  apply (yields_namespaceSegments sound isInline).bind sound
  intro segments first follows _
  apply (yields_skipAttributes follows.sound).bind follows.sound
  intro _ second followsAttributes _
  simp only [ends_check]
  refine Yields.whenever (fun next => next.cursor.peek.kind = .punct .leftBrace)
    followsAttributes.sound ?_ ?_ ?_
  · intro missing
    exact yields_expect_of_ne (by simpa using missing)
  · intro present
    simpa using present
  · intro third followsBrace opens
    have lessThird := ((follows.trans followsAttributes).trans followsBrace).weight_le
    refine Ends.bind (openNamespaces_ends followsBrace.sound (.none (.refl third)) start
      segments) ?_
    rintro nodes fourth ⟨entered, same⟩
    have soundFourth := entered.sound followsBrace.sound
    apply (completes_expect soundFourth (by simp) (by rw [same, opens])).andThen soundFourth
    intro _ fifth followsOpener less
    rw [same] at less
    apply (works.declarations followsOpener.sound (by omega)).andThen followsOpener.sound
    intro _ sixth followsContent _
    apply (completes_eat followsContent.sound (by simp)).andThen followsContent.sound
    intro _ last followsCloser _
    have inside := entered.andThen
      ((followsOpener.trans followsContent).trans followsCloser).activity
    exact (closeNamespaces_ends inside).unrefused.imp fun _ _ left => ⟨left, trivial⟩

theorem yields_namespaceDeclaration (works : rules.Works bound) (sound : state.Sound)
    (within : state.cursor.weight ≤ bound) (start : Span) (isInline : Bool) :
    Yields (namespaceDeclaration rules start isInline) state fun _ next =>
      next.cursor.weight < state.cursor.weight := by
  unfold namespaceDeclaration
  apply (yields_expect sound (by simp)).bind sound
  intro _ first follows less
  apply (yields_skipAttributes follows.sound).bind follows.sound
  intro _ second followsAttributes _
  have lessSecond : second.cursor.weight < state.cursor.weight := by
    have := followsAttributes.weight_le
    omega
  simp only [ends_check, ends_checkAhead]
  split
  · exact (completes_synchronize followsAttributes.sound).yields.below lessSecond
  · exact (yields_namespaceBody works followsAttributes.sound (by omega) start isInline).below
      lessSecond

/-! ## Linkage, names and exports -/

theorem yields_linkageContent (works : rules.Works bound) (sound : state.Sound)
    (within : state.cursor.weight < bound) :
    Yields (linkageContent rules) state fun _ _ => True := by
  unfold linkageContent
  apply (yields_eat sound (by simp)).bind sound
  intro opened first follows _
  have less := follows.weight_le
  split
  · apply (works.declarations follows.sound (by omega)).yields.bind follows.sound
    intro _ second followsContent _
    exact (yields_eat followsContent.sound (by simp)).returns
  · exact works.declaration follows.sound (by omega)

theorem yields_linkageDeclaration (works : rules.Works bound) (sound : state.Sound)
    (within : state.cursor.weight ≤ bound) (start : Span) :
    Yields (linkageDeclaration rules start) state fun _ next =>
      next.cursor.weight < state.cursor.weight := by
  unfold linkageDeclaration
  apply (yields_expect sound (by simp)).bind sound
  intro _ first follows less
  suffices yields : Yields _ first fun _ _ => True from yields.below less
  apply (yields_expect follows.sound (by simp)).bind follows.sound
  intro literal second followsLiteral _
  have lessSecond := followsLiteral.weight_le
  apply (yields_checkNesting start).bind followsLiteral.sound
  rintro _ here _ rfl
  simp only [ends_lookupScope, ends_addNode followsLiteral.sound, ends_pushScope]
  have soundInside {kind : NodeKind} {frame : ScopeFrame}
      (framed : frame.node = (here.addNode here.scopes.inner.node kind start).1) :
      ((here.addNode here.scopes.inner.node kind start).2.enter frame).Sound :=
    (followsLiteral.sound.addNode _ kind start).enter (framed ▸ here.has_addNode _ kind start)
  refine (yields_linkageContent works (soundInside rfl) (by
    change here.cursor.weight < bound
    omega)).attempt.andThen (soundInside rfl) ?_
  intro result inside followsContent _
  simp only [ends_popScope, ends_finishNode]
  have finished : Activity here (inside.leave.finishNode _ inside.leave.cursor.previousSpan) :=
    .node followsLiteral.sound.has_inner (.scope followsContent.activity)
  cases result with
  | error _ => exact finished
  | ok _ => exact ⟨finished, trivial⟩

theorem yields_resolveNamespace? (sound : state.Sound) (path : NamePath) :
    Yields (resolveNamespace? path) state fun target next => next = state ∧
      ∀ id, target = some id → state.table.Has id := by
  unfold resolveNamespace?
  simp only [ends_resolve?]
  split
  · exact yields_pure ⟨rfl, by simp⟩
  · rename_i target resolved
    have present : state.table.Has target := by
      cases found : state.table.lookupQualified path.segments state.scopes.inner.symbol
          path.isGlobal with
      | error _ => simp [found, Except.toOption] at resolved
      | ok symbol =>
          obtain rfl : symbol = target := by simpa [found, Except.toOption] using resolved
          exact sound.table.consistent.has_of_lookupQualified found
    simp only [ends_table]
    split
    · refine yields_pure ⟨rfl, ?_⟩
      intro id named
      split at named
      · obtain rfl := Option.some.inj named
        exact present
      · simp at named
    · rename_i missing
      simp [SymbolTable.Has, missing] at present

theorem yields_usingDirective (sound : state.Sound) (start : Span) :
    Yields (usingDirective start) state fun _ _ => True := by
  unfold usingDirective
  apply (yields_namePath sound).bind sound
  intro path first follows _
  apply (yields_expect follows.sound (by simp)).attempt.yields.bind follows.sound
  intro terminated second followsTerminator _
  simp only [ends_lookupScope]
  apply (yields_resolveNamespace? followsTerminator.sound path).bind followsTerminator.sound
  rintro target here _ ⟨rfl, present⟩
  have node {next : ParseState} {kind : NodeKind} (activity : Activity here next) :
      Yields (do
        let node ← addNode kind start
        finishNode node
        let _ ← resume terminated
        return ()) next fun _ _ => True := by
    have soundNext := activity.sound followsTerminator.sound
    simp only [ends_addNode soundNext, ends_finishNode]
    have finished {last : Span} : Activity next
        ((next.addNode next.scopes.inner.node kind start).2.finishNode
          (next.addNode next.scopes.inner.node kind start).1 last) :=
      .node soundNext.has_inner (.refl _)
    cases terminated with
    | error _ => exact finished
    | ok _ => exact ⟨finished, trivial⟩
  split
  · rename_i target
    simp only [ends_table, ends_setTable]
    have used := activity_addUsing (present target rfl) here.scopes.inner.symbol
    exact (node used).mono (fun _ _ done => ⟨used.trans done.1, trivial⟩)
      fun _ done => used.trans done
  · exact node (.refl here)

theorem yields_aliasDeclaration (works : rules.Works bound) (sound : state.Sound)
    (within : state.cursor.weight ≤ bound) (start : Span) :
    Yields (aliasDeclaration rules start) state fun _ _ => True := by
  unfold aliasDeclaration
  apply (yields_expectIdentifier sound).bind sound
  intro name first follows _
  apply (yields_skipAttributes follows.sound).bind follows.sound
  intro _ second followsAttributes _
  apply (yields_expect followsAttributes.sound (by simp)).bind followsAttributes.sound
  intro _ third followsEqual _
  have lessThird := ((follows.trans followsAttributes).trans followsEqual).weight_le
  refine (yields_specifiers works followsEqual.sound (by omega) .typeOnly).bind
    followsEqual.sound ?_
  intro specs fourth followsSpecs _
  have lessFourth := followsSpecs.weight_le
  split
  · simp only [ends_peek]
    exact yields_refuse_bind
  · refine (yields_declarator works followsSpecs.sound (by omega) .abstract).bind
      followsSpecs.sound ?_
    intro declarator fifth followsDeclarator _
    apply (yields_declare rfl none name.span).bind followsDeclarator.sound
    intro symbol declared followsDeclared _
    simp only [ends_addNode followsDeclared.sound]
    have soundInside (kind : NodeKind) :=
      followsDeclared.sound.addNode declared.scopes.inner.node kind start
    apply (yields_expect (soundInside _) (by simp)).attempt.andThen (soundInside _)
    intro terminated last followsTerminator _
    simp only [ends_finishNode]
    have finished := ((Pending.start (.refl declared) followsDeclared.sound.has_inner _
      _).andThen followsTerminator.activity).finish last.cursor.previousSpan
    cases terminated with
    | error _ => exact finished
    | ok _ => exact ⟨finished, trivial⟩

theorem yields_aliasAhead : Yields aliasAhead state fun _ next => next = state := by
  unfold aliasAhead
  simp only [ends_ahead, ends_check]
  exact yields_pure rfl

theorem yields_usingDeclaration (works : rules.Works bound) (sound : state.Sound)
    (within : state.cursor.weight ≤ bound) (start : Span) :
    Yields (usingDeclaration rules start) state fun _ next =>
      next.cursor.weight < state.cursor.weight := by
  unfold usingDeclaration
  apply (yields_expect sound (by simp)).bind sound
  intro _ first follows less
  suffices yields : Yields _ first fun _ _ => True from yields.below less
  apply (yields_eat follows.sound (by simp)).bind follows.sound
  intro directive second followsWord _
  have lessSecond := followsWord.weight_le
  split
  · exact yields_usingDirective followsWord.sound start
  · apply yields_aliasAhead.bind followsWord.sound
    rintro named _ _ rfl
    split
    · exact yields_aliasDeclaration works followsWord.sound (by omega) start
    · exact (completes_synchronize followsWord.sound).yields.ignore

theorem yields_exportedDeclarations (works : rules.Works bound) (sound : state.Sound)
    (within : state.cursor.weight ≤ bound) (more : state.cursor.peek.kind ≠ .eof) :
    Yields (exportedDeclarations rules) state fun _ next =>
      next.cursor.weight < state.cursor.weight := by
  unfold exportedDeclarations
  apply (yields_skip_one sound more).bind sound
  intro _ first follows less
  suffices yields : Yields _ first fun _ _ => True from yields.below less
  apply (yields_eat follows.sound (by simp)).bind follows.sound
  intro opened second followsOpener _
  have lessSecond := followsOpener.weight_le
  split
  · refine (works.declarations followsOpener.sound (by omega)).yields.bind
      followsOpener.sound ?_
    intro _ third followsContent _
    exact (yields_expect followsContent.sound (by simp)).returns
  · exact works.declaration followsOpener.sound (by omega)

/-! ## All declarations -/

theorem yields_keywordDeclaration (works : rules.Works bound) (sound : state.Sound)
    (within : state.cursor.weight ≤ bound) (start : Span) {word : Keyword}
    (here : state.cursor.peek.kind = .keyword word) :
    Yields (keywordDeclaration rules start word (state.cursor.ahead 1).kind) state fun _ next =>
      next.cursor.weight < state.cursor.weight := by
  have more : state.cursor.peek.kind ≠ .eof := by simp [here]
  have simple := yields_simpleDeclaration works sound within start
  have passed : Yields synchronize state fun _ next =>
      next.cursor.weight < state.cursor.weight := by
    apply (completes_synchronize sound).yields.imp
    intro _ _ _ less
    exact less more (by simp [here])
  have access : Yields (if (state.cursor.ahead 1).kind = .punct .colon then skip 2
      else simpleDeclaration rules start) state fun _ next =>
        next.cursor.weight < state.cursor.weight := by
    split
    · rename_i colon
      exact yields_skip_two sound (by simp [colon])
    · exact simple
  unfold keywordDeclaration
  split
  · exact yields_namespaceDeclaration works sound within start false
  · split
    · apply (yields_skip_one sound more).bind sound
      intro _ next follows less
      exact (yields_namespaceDeclaration works follows.sound (by omega) start true).below less
    · exact simple
  · split
    · exact yields_linkageDeclaration works sound within start
    · split
      · exact passed
      · exact simple
  · split
    · apply (yields_skip_one sound more).bind sound
      intro _ next follows less
      exact (yields_templateDeclaration works follows.sound (by omega) start true).below less
    · exact yields_exportedDeclarations works sound within more
  · exact yields_templateDeclaration works sound within start false
  · exact yields_usingDeclaration works sound within start
  · exact passed
  · exact passed
  · exact access
  · exact access
  · exact access
  · exact simple

/-- A declaration that is not refused takes something of what is left to read. -/
theorem yields_declaration (works : rules.Works bound) (sound : state.Sound)
    (within : state.cursor.weight ≤ bound) :
    Yields (declaration rules) state fun _ next =>
      next.cursor.weight < state.cursor.weight := by
  unfold declaration
  apply (yields_skipAttributes sound).bind sound
  intro _ first follows _
  have less := follows.weight_le
  have shorter {parse : ParseM Unit} (yields : Yields parse first fun _ next =>
      next.cursor.weight < first.cursor.weight) :
      Yields parse first fun _ next => next.cursor.weight < state.cursor.weight := by
    apply yields.imp
    intro _ _ _ lessFirst
    omega
  have simple := yields_simpleDeclaration works follows.sound (by omega)
    first.cursor.peek.span
  simp only [ends_peek, ends_ahead]
  split
  · rename_i here
    exact shorter (yields_skip_one follows.sound (by simp [here]))
  · rename_i word here
    exact shorter (yields_keywordDeclaration works follows.sound (by omega) _ here)
  · rename_i here
    split
    · refine shorter ((completes_synchronize follows.sound).yields.imp ?_)
      intro _ _ _ lessFirst
      exact lessFirst (by simp [here]) (by simp [here])
    · exact shorter simple
  · exact shorter simple

/-- A declaration of a scope is read or given up, and less is left to read behind
it; at the end of the scope nothing is read. -/
theorem completes_declarationItem (works : rules.Works bound) (sound : state.Sound)
    (within : state.cursor.weight ≤ bound) (closing : Bool) :
    Completes (declarationItem rules closing ()) state fun outcome next =>
      outcome.Advances state (fun _ _ => True)
        (fun _ after => closing = false → after.cursor.peek.kind = .eof) next := by
  unfold declarationItem
  simp only [ends_peek]
  split
  · rename_i final
    split
    · exact ⟨.report _, fun _ => final⟩
    · exact ⟨.refl state, fun _ => final⟩
  · rename_i brace
    split
    · rename_i closes
      exact ⟨.refl state, fun opened => absurd closes (by simp [opened])⟩
    · apply (completes_skip_one sound (by simp [brace])).andThen sound
      intro _ next follows less
      exact ⟨follows.activity.trans (.report _), less, trivial⟩
  · rename_i more inside
    apply (yields_declaration works sound within).attempt.andThen sound
    intro outcome next follows read
    cases outcome with
    | ok _ => exact ⟨follows.activity, read () rfl, trivial⟩
    | error error =>
        apply (completes_report error).andThen follows.sound
        intro _ reported followsReport same
        apply (completes_synchronize followsReport.sound).andThen followsReport.sound
        intro _ last followsRecovery recovered
        have refused := follows.trans followsReport
        have whole := refused.trans followsRecovery
        refine ⟨whole.activity, ?_, trivial⟩
        have lessRefused := refused.weight_le
        have lessLast := followsRecovery.weight_le
        -- What is refused without reading anything is given up at the same token.
        rcases Nat.lt_or_eq_of_le lessRefused with less | equal
        · omega
        · have progress : last.cursor.weight < reported.cursor.weight := by
            rcases refused.activity.moves.peek_of_weight_eq equal with stays | half
            · rw [stays] at recovered
              exact recovered more inside
            · exact recovered (by simp [half]) (by simp [half])
          omega

/-- The declarations of a scope are never refused, and those of a unit reach the end
of the text. -/
theorem completes_declarations (works : rules.Works bound) (sound : state.Sound)
    (within : state.cursor.weight ≤ bound) (closing : Bool) :
    Completes (declarations rules closing) state fun _ next =>
      closing = false → next.cursor.peek.kind = .eof := by
  unfold declarations
  apply iterate_ends sound (fun _ _ => True) trivial
  intro _ next follows _
  have less := follows.weight_le
  exact completes_declarationItem works follows.sound (by omega) closing

/-- Rules for as many levels of nesting as there is left to read never get stuck. -/
theorem works_ofDepth (depth : Nat) : (Rules.ofDepth depth).Works depth := by
  induction depth with
  | zero => constructor <;> intros <;> omega
  | succ depth works =>
      constructor
      · intro mode state sound within
        exact (yields_specifiers works sound (by omega) mode).ignore
      · intro mode state sound within
        exact (yields_declarator works sound (by omega) mode).ignore
      · intro state sound within
        exact (yields_declaration works sound (by omega)).ignore
      · intro span exported state sound within
        exact (yields_templateDeclaration works sound (by omega) span exported).ignore
      · intro closing state sound within
        exact (completes_declarations works sound (by omega) closing).imp
          fun _ _ done => ⟨done.1, trivial⟩

/-- The declarations of a unit are read to the end of the text. -/
theorem completes_translationUnit (sound : state.Sound) :
    Completes translationUnit state fun _ next => next.cursor.peek.kind = .eof := by
  unfold translationUnit
  simp only [ends_get]
  exact (completes_declarations (works_ofDepth state.cursor.weight) sound (Nat.le_refl _)
    false).imp fun _ _ done => ⟨done.1, done.2 rfl⟩

end ParseM

end DeclTree
