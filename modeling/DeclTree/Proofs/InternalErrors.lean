import DeclTree.Proofs.CoherentDeclarations
import DeclTree.Proofs.FactoryBalance

/-!
# Internal errors of a parse

Every unit of a session starts and ends where scopes, nodes and open templates fit together.  What
a parse reports on its own account is therefore of one sort: a declaration behind template
prefixes finds no template open, or templates that would end up inside one another.  It takes a
block of exported declarations that starts inside a template prefix to come to that.
-/

namespace DeclTree

/-! ## Units -/

theorem Tree.kindAt_empty {unit : UnitId} {id : NodeId} {kind : NodeKind}
    (found : (Tree.empty unit).kindAt id = some kind) :
    id = root ∧ kind = .translationUnit unit SymbolTable.root := by
  obtain ⟨index⟩ := id
  cases index with
  | zero => exact ⟨rfl, (Option.some.inj found).symm⟩
  | succ index => simp [kindAt, get?, empty] at found

theorem SymbolTable.orderly_empty : SymbolTable.empty.Orderly := by
  refine ⟨.empty, ?_, ?_, ?_⟩
  · intro id owner scope _
    unfold isNamespace at scope
    cases found : SymbolTable.empty.get? id with
    | none => simp [found] at scope
    | some symbol => simp [found, eq_of_get?_empty found, Symbol.ofRequest] at scope
  · intro template inner wraps
    unfold templated? at wraps
    cases found : SymbolTable.empty.get? template with
    | none => simp [found] at wraps
    | some symbol =>
        simp [found, eq_of_get?_empty found, Symbol.ofRequest, SymbolKind.templateInfo?] at wraps
  · intro factory home served
    simp [homeOf, factory?, empty] at served

/-- At the start of a unit there are no templates around. -/
theorem coherent_start {table : SymbolTable} (orderly : table.Orderly)
    (closed : ∀ factory, table.stackOf factory = []) (unit : UnitId) :
    Coherent (.empty unit) table ParseState.startScopes.frames := by
  have noTemplate (node : NodeId) (declaration : TemplateDecl) :
      (Tree.empty unit).kindAt node ≠ some (.template declaration) := by
    intro found
    cases (Tree.kindAt_empty found).2
  refine ⟨orderly, ⟨?_, ?_, ?_, ?_⟩, ?_, ?_, List.pairwise_singleton _ _, .singleton _, ?_, ?_⟩
  · intro node child member
    obtain ⟨index⟩ := node
    cases index with
    | zero => cases member
    | succ index => simp [Tree.children, Tree.get?, Tree.empty] at member
  · intro node declaration found
    exact absurd found (noTemplate node declaration)
  · intro node declaration _ _ found
    exact absurd found (noTemplate node declaration)
  · intro node declaration _ _ found
    exact absurd found (noTemplate node declaration)
  · intro factory
    rw [closed]
    exact .nil
  · intro frame member
    obtain rfl := List.mem_singleton.1 member
    exact ⟨orderly.reachable.consistent.tree.root_scope.has, by rintro ⟨⟩,
      fun _ => ⟨rfl, _, rfl, rfl⟩, by rintro _ _ ⟨⟩⟩
  · intro factory
    rw [closed]
    exact List.nil_prefix
  · intro node declaration found
    exact absurd found (noTemplate node declaration)

/-- A unit leaves scopes, nodes and templates so that they fit together.  On its own account it
reports only that open templates cannot take in a declaration, and not even that unless a block of
exported declarations starts inside a template prefix. -/
theorem coherent_parseUnit (options : ParseOptions) {table : SymbolTable}
    (orderly : table.Orderly) (closed : ∀ factory, table.stackOf factory = []) (unit : UnitId)
    (source : String) :
    Coherent (parseUnit options table unit source).tree (parseUnit options table unit source).table
        ParseState.startScopes.frames ∧
      ∀ error ∈ (parseUnit options table unit source).errors,
        error.Tame (¬ Heralds (sourceTokens options.dialect source)) := by
  let start := ParseState.start options table unit source
  let strict := ¬ Heralds (sourceTokens options.dialect source)
  obtain ⟨final, finished⟩ := ParseState.exists_finished options orderly.reachable unit source
  have fits : start.Fits strict := by
    refine ⟨(ParseState.sound_start options orderly.reachable unit source).cursor,
      coherent_start orderly closed unit, ?_⟩
    intro error member
    obtain ⟨lexical, _, rfl⟩ := List.mem_map.1 (List.mem_toArray.1 member)
    exact ParseError.tame_of_ne (by simp [ParseError.ofLexError])
  have quiet : start.Quiet strict := by
    intro strictly
    exact ⟨strictly, by rintro _ _ ⟨⟩⟩
  have settles := ParseM.settles_translationUnit fits quiet (by rintro _ _ ⟨⟩)
  unfold ParseM.Settles ParseM.Meets at settles
  rw [finished.run] at settles
  obtain ⟨continues, _⟩ := settles
  have coherent := continues.fits.coherent
  rw [finished.scopes] at coherent
  simp only [parseUnit, ParseState.parsed, ParseState.finish_eq finished]
  refine ⟨?_, ?_⟩
  · exact coherent.amend (.finishRoot final.tree _ _) fun _ => ⟨rfl, rfl, rfl⟩
  · intro error member
    exact continues.fits.tame error (by simpa using member)

namespace Session

/-- Whether the table of a session is in order and no template is open in it. -/
structure Composed (session : Session) : Prop where
  balanced : session.Balanced
  orderly : session.table.Orderly

theorem Composed.parse {session : Session} (composed : session.Composed) (source : String) :
    (session.parse source).2.2.Composed where
  balanced := composed.balanced.parse source
  orderly := (coherent_parseUnit session.options composed.orderly composed.balanced.closed
    ⟨session.units.size⟩ source).1.orderly

theorem Composed.performAll {session : Session} (composed : session.Composed)
    (calls : List SessionCall) : (session.performAll calls).Composed := by
  induction calls generalizing session with
  | nil => exact composed
  | cons call rest ih =>
      apply ih
      cases call with
      | parse source => exact composed.parse source
      | parseStrict source => exact composed.parse source

theorem composed_new (options : ParseOptions) :
    ({ options := options } : Session).Composed where
  balanced := balanced_new options
  orderly := SymbolTable.orderly_empty

theorem options_performAll (session : Session) (calls : List SessionCall) :
    (session.performAll calls).options = session.options := by
  induction calls generalizing session with
  | nil => rfl
  | cons call rest ih =>
      rw [performAll, List.foldl_cons, ← performAll, ih]
      cases call <;> rfl

/-- In every session, an error that a parse reports on its own account says that the open
templates cannot take in a declaration, and is reported only where a block of exported
declarations starts inside a template prefix. -/
theorem internal_errors_nest (options : ParseOptions) (calls : List SessionCall)
    (source : String) :
    ∀ error ∈ ((({ options := options } : Session).performAll calls).parse source).2.1,
      error.kind = .internalError →
        error.NestingFault ∧ Heralds (sourceTokens options.dialect source) := by
  intro error reported internal
  have composed := (composed_new options).performAll calls
  have tame := (coherent_parseUnit _ composed.orderly composed.balanced.closed _ source).2 error
    reported internal
  rw [options_performAll] at tame
  exact ⟨tame.2, not_not.1 tame.1⟩

/-- Behind the prefix the template is around the namespace that its declaration has to go into.
What is refused leaves no template open for the next declaration. -/
theorem internal_errors_nest_exported :
    (({} : Session).parse
      "template<class T> export { namespace N {} void N::f(); void N::g(); }").2.1.map
        (fun error => (error.kind, error.message)) =
          [(.internalError, "'f' cannot be nested inside itself"),
            (.internalError, "template factory stack is empty")] ∧
      ∀ error ∈ (({} : Session).parse
        "template<class T> export { namespace N {} void N::f(); void N::g(); }").2.1,
          error.NestingFault ∧ Heralds (sourceTokens .cpp
            "template<class T> export { namespace N {} void N::f(); void N::g(); }") := by
  have reported : (({} : Session).parse
      "template<class T> export { namespace N {} void N::f(); void N::g(); }").2.1.map
        (fun error => (error.kind, error.message)) =
          [(.internalError, "'f' cannot be nested inside itself"),
            (.internalError, "template factory stack is empty")] := by
    decide +kernel
  refine ⟨reported, fun error member => internal_errors_nest {} [] _ error member ?_⟩
  have listed : (error.kind, error.message) ∈
      [(ParseErrorKind.internalError, "'f' cannot be nested inside itself"),
        (ParseErrorKind.internalError, "template factory stack is empty")] := by
    rw [← reported]
    exact List.mem_map_of_mem member
  rcases List.mem_cons.1 listed with same | rest
  · exact congrArg Prod.fst same
  · exact congrArg Prod.fst (List.mem_singleton.1 rest)

end Session

end DeclTree
