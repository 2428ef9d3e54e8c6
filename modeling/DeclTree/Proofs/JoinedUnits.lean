import DeclTree.Proofs.BalancedDeclarations
import DeclTree.Proofs.IgnoredDeclarations
import DeclTree.Proofs.MirroredDeclarations
import DeclTree.Proofs.NodeLines

/-!
# Joined units

Declarations at the top of a unit do not know of one another but through the symbol table.  So a
source behind another one is parsed as if the other one had been a unit before: the first source
is read as without a sequel, and the second one as on its own, displaced.  What is left to do is to
put both halves together, with the lexical errors of the second source, which a joined parse knows
from its start.
-/

namespace DeclTree

/-! ## The translation unit of a parse -/

namespace ParseState

namespace Activity

variable {state next : ParseState} {unit : UnitId}

theorem isOf (activity : Activity state next) (isOf : state.tree.IsOf unit) :
    next.tree.IsOf unit := by
  induction activity with
  | trans _ _ first second => exact second (first isOf)
  | amend node change => exact isOf.updateTemplate node change
  | node _ _ inside => exact (inside (isOf.add _ _ _)).finish _ _
  | scope _ inside => exact inside isOf
  | template _ _ inside => exact inside isOf
  | _ => exact isOf

theorem depthLimit (activity : Activity state next) : next.depthLimit = state.depthLimit := by
  induction activity with
  | trans _ _ first second => exact second.trans first
  | node _ _ inside => exact inside
  | scope _ inside => exact inside
  | template _ _ inside => exact inside
  | _ => rfl

end Activity

end ParseState

/-! ## The end of a parse -/

namespace ParseState

/-- Whether a parse that came to the end of its source did so behind what stands in front. -/
structure EndsBehind (front : Front) (own joined : ParseState) : Prop where
  unread : joined.cursor.unread = []
  final : joined.cursor.final = front.displacement.move own.cursor.final
  errors : ∃ further, own.errors.toList = front.own ++ further ∧
    joined.errors.toList = front.reported ++ front.displacement.move further
  tree : Tree.Joins front.displacement front.tree own.tree joined.tree
  table : joined.table = own.table.relabel front.displacement front.settled

theorem Joins.endsBehind {front : Front} {own joined : ParseState} (joins : own.Joins front joined)
    (spent : own.cursor.unread = []) : own.EndsBehind front joined where
  unread := by
    rw [joins.cursor.unread, spent]
    rfl
  final := joins.cursor.final
  errors := joins.errors
  tree := joins.tree
  table := joins.table

end ParseState

namespace ParseM

/-- The declarations of a unit are read in as many rounds as there may be. -/
theorem translationUnit_eq (state : ParseState) : translationUnit state =
    loop (declarationItem (Rules.ofDepth state.cursor.weight) false) (state.cursor.weight + 1) ()
      state := rfl

theorem loop_declarationItem_spent (rules : Rules) {state : ParseState}
    (ends : state.cursor.peek.kind = .eof) (bound : Nat) :
    loop (declarationItem rules false) (bound + 1) () state = .ok () state := by
  have round : declarationItem rules false () state = .ok (.done ()) state := by
    rw [declarationItem, bind_peek, ends]
    rfl
  change EStateM.bind (declarationItem rules false ()) _ state = _
  rw [EStateM.bind, round]
  rfl

/-- A unit behind what stands in front, where the rules go deep enough and enough rounds are
left. -/
theorem exists_translationUnit_joins {front : Front} {own joined final : ParseState}
    (joins : own.Joins front joined) (run : translationUnit own = .ok () final) {depth bound : Nat}
    (deep : own.cursor.weight ≤ depth) (enough : own.cursor.weight < bound) :
    ∃ last, loop (declarationItem (Rules.ofDepth depth) false) bound () joined = .ok () last ∧
      final.Joins front last := by
  have round (value : Unit) : MirrorsAs front false false (Step.map id id)
      (declarationItem (Rules.ofDepth own.cursor.weight) false value)
      (declarationItem (Rules.ofDepth depth) false value) :=
    mirrors_declarationItem (Rules.mirror_ofDepth front deep) false value
  have goes := MirrorsAs.loop round enough () own joined joins nofun
  rw [translationUnit_eq] at run
  unfold Meets at goes
  rw [run] at goes
  obtain ⟨⟨last, same, still⟩, _⟩ := goes
  exact ⟨last, same, still⟩

/-- A unit behind what stands in front, which may be empty: then there is no token by which the
cursors could be compared. -/
theorem exists_translationUnit_endsBehind {front : Front} {own joined final : ParseState}
    (sound : own.cursor.Sound) (empty : own.cursor.unread = [] → own.EndsBehind front joined)
    (joins : own.cursor.unread ≠ [] → own.Joins front joined)
    (run : translationUnit own = .ok () final) (spent : final.cursor.unread = [])
    {depth bound : Nat} (deep : own.cursor.weight ≤ depth) (enough : own.cursor.weight < bound) :
    ∃ last, loop (declarationItem (Rules.ofDepth depth) false) bound () joined = .ok () last ∧
      final.EndsBehind front last := by
  by_cases none : own.cursor.unread = []
  · have ends := empty none
    have stays : own = final := by
      rw [translationUnit_eq, loop_declarationItem_spent _ (sound.peek_eof_iff.2 none)] at run
      exact (EStateM.Result.ok.inj run).2
    have atEnd : joined.cursor.peek.kind = .eof := by
      unfold Cursor.peek Cursor.ahead
      rw [ends.unread]
      exact (congrArg Token.kind ends.final).trans sound.final
    obtain ⟨rest, rfl⟩ : ∃ fewer, bound = fewer + 1 := ⟨bound - 1, by omega⟩
    exact ⟨joined, loop_declarationItem_spent _ atEnd rest, stays ▸ ends⟩
  · obtain ⟨last, same, still⟩ := exists_translationUnit_joins (joins none) run deep enough
    exact ⟨last, same, still.endsBehind spent⟩

/-- A unit in front of a sequel. -/
theorem translationUnit_followed {start final : ParseState} {sequel : Sequel}
    (run : translationUnit start = .ok () final) (approaches : start.cursor.Approaches sequel)
    (free : ¬ final.Spoiled sequel) {depth more : Nat} (deep : start.cursor.weight ≤ depth)
    (enough : start.cursor.weight < more) :
    ∃ rest, more ≤ rest + start.cursor.weight ∧
      loop (declarationItem (Rules.ofDepth depth) false) more () (start.followedBy sequel) =
        loop (declarationItem (Rules.ofDepth depth) false) rest () (final.followedBy sequel) := by
  have goes := leads_declarations_followed (Rules.ignore_ofDepth sequel deep)
    (Nat.zero_le start.tree.size) (show start.cursor.weight + 1 ≤ more from enough)
  rw [translationUnit_eq] at run
  unfold Leads Meets at goes
  rw [run] at goes
  obtain ⟨_, rest, left, same⟩ := (goes.2 approaches).resolve_left free
  exact ⟨rest, by omega, same⟩

end ParseM

/-! ## What a source stands behind -/

namespace ParseState

/-- What a parse leaves in front of another source. -/
def asFront (state : ParseState) (displacement : Displacement) (own : List ParseError) : Front where
  displacement := displacement
  tokens := state.cursor.consumed
  tree := state.tree
  settled := state.table.hasOrigin
  own := own
  reported := state.errors.toList

section Joining

variable {options : ParseOptions} {table : SymbolTable} {unit : UnitId} {front behind : String}
  {next final : ParseState} {sequel : Sequel} {displacement : Displacement}

/-- In front of a second source a parse goes through both of them. -/
theorem exists_endsBehind (first : Finished (start options table unit front) next)
    (second : Finished (start options next.table unit behind) final)
    (approaches : (start options table unit front).cursor.Approaches sequel)
    (free : ¬ next.Spoiled sequel)
    (tokens : sequel.tokens = displacement.move (sourceTokens options.dialect behind))
    (ends : sequel.final =
      displacement.move (start options next.table unit behind).cursor.final)
    (nodes : displacement.nodes + 1 = next.tree.size) :
    ∃ last, ParseM.translationUnit ((start options table unit front).followedBy sequel) =
        .ok () last ∧
      final.EndsBehind (next.asFront displacement
        (start options next.table unit behind).errors.toList) last := by
  let own := start options next.table unit behind
  have weight : ((start options table unit front).followedBy sequel).cursor.weight =
      (start options table unit front).cursor.weight + own.cursor.weight := by
    refine (Cursor.totalWeight_append _ _).trans (congrArg (_ + ·) ?_)
    rw [tokens, Displacement.totalWeight_move]
    rfl
  have tree : Tree.Joins displacement next.tree own.tree (next.followedBy sequel).tree :=
    (first.activity.isOf (Tree.isOf_empty unit)).joins_empty nodes
  have errors : ∃ further, own.errors.toList = own.errors.toList ++ further ∧
      (next.followedBy sequel).errors.toList =
        next.errors.toList ++ displacement.move further :=
    ⟨[], (List.append_nil _).symm, (List.append_nil _).symm⟩
  have unread : (next.followedBy sequel).cursor.unread = displacement.move own.cursor.unread := by
    change next.cursor.unread ++ sequel.tokens = _
    rw [first.unread, tokens]
    rfl
  have relabelled : (next.followedBy sequel).table =
      own.table.relabel displacement next.table.hasOrigin :=
    (SymbolTable.relabel_hasOrigin displacement next.table).symm
  obtain ⟨rest, left, same⟩ := ParseM.translationUnit_followed first.run approaches free
    (Nat.le_add_right _ own.cursor.weight) (Nat.lt_succ_of_le (Nat.le_add_right _ _))
  rw [ParseM.translationUnit_eq, weight, same]
  refine ParseM.exists_translationUnit_endsBehind
    (sound_startCursor options.dialect behind) (fun none => ?_) (fun more => ?_) second.run
      second.unread (Nat.le_add_left _ _) (show own.cursor.weight < rest by omega)
  · exact {
      unread := by
        rw [unread, none]
        rfl
      final := ends
      errors := errors
      tree := tree
      table := relabelled }
  · exact {
      cursor := {
        consumed := rfl
        unread := unread
        final := ends
        nonempty := .inr more }
      errors := errors
      tree := tree
      table := relabelled
      settled := SymbolTable.hasOrigins_hasOrigin next.table
      scopes := first.scopes.trans rfl
      depthLimit := first.activity.depthLimit }

end Joining

end ParseState

/-! ## Joined streams of tokens -/

/-- Whether a stream has the tokens and errors of one and, instead of its end, those of another one,
displaced. -/
structure TokenStream.Joins (displacement : Displacement) (front behind joined : TokenStream) :
    Prop where
  tokens : joined.tokens = front.tokens.dropLast ++ displacement.move behind.tokens
  errors : joined.errors = front.errors ++ displacement.move behind.errors

theorem Displacement.filter_move {keeps : Token → Bool} (displacement : Displacement)
    (same : ∀ token, keeps (displacement.move token) = keeps token) (tokens : List Token) :
    (displacement.move tokens).filter keeps = displacement.move (tokens.filter keeps) := by
  have composed : keeps ∘ displacement.move = keeps := funext same
  exact List.filter_map.trans (congrArg (fun keeps => List.map displacement.move
    (tokens.filter keeps)) composed)

/-- The cursor in front of a joined stream. -/
theorem TokenStream.Joins.startCursor_eq {displacement : Displacement}
    {front behind joined : TokenStream} (joins : Joins displacement front behind joined)
    {last final : Token} (lastFront : front.tokens.getLast? = some last)
    (ends : last.kind = .eof) (lastBehind : behind.tokens.getLast? = some final)
    (endsBehind : final.kind = .eof) :
    ParseState.startCursor joined = .ofTokens
      ((ParseState.startCursor front).unread ++
        displacement.move (ParseState.startCursor behind).unread)
      (displacement.move (ParseState.startCursor behind).final) := by
  obtain ⟨inner, tokens⟩ := List.getLast?_eq_some_iff.1 lastFront
  obtain ⟨others, more⟩ := List.getLast?_eq_some_iff.1 lastBehind
  have moved : displacement.move behind.tokens =
      displacement.move others ++ [displacement.move final] := by
    rw [more]
    exact List.map_append
  have endsMoved : (displacement.move final).kind = .eof := endsBehind
  have whole :
      joined.tokens = inner ++ (displacement.move others ++ [displacement.move final]) := by
    rw [joins.tokens, tokens, List.dropLast_concat, moved]
  simp [ParseState.startCursor, Cursor.ofTokens, whole, tokens, more, ends, endsBehind, endsMoved,
    Displacement.filter_move, Displacement.kind_move]

/-! ## Errors from before -/

namespace ParseState

/-- What stands in front of a source on its own where there are errors from before. -/
def onlyReported (unit : UnitId) (own reported : List ParseError) : Front where
  displacement := .zero
  tokens := []
  tree := .empty unit
  settled _ := false
  own := own
  reported := reported

/-- Errors from before are carried along. -/
theorem exists_reported {state final : ParseState} {unit : UnitId} (isOf : state.tree.IsOf unit)
    (more : state.cursor.unread ≠ []) (run : ParseM.translationUnit state = .ok () final)
    (reported : List ParseError) :
    ∃ last, ParseM.translationUnit { state with errors := reported.toArray } = .ok () last ∧
      final.Joins (onlyReported unit state.errors.toList reported) last := by
  have joins : state.Joins (onlyReported unit state.errors.toList reported)
      { state with errors := reported.toArray } := {
    cursor := {
      consumed := ((List.append_nil _).trans (Displacement.zero_move_tokens _)).symm
      unread := (Displacement.zero_move_tokens _).symm
      final := rfl
      nonempty := .inr more }
    errors := ⟨[], (List.append_nil _).symm, (List.append_nil _).symm⟩
    tree := isOf.joins_zero
    table := (SymbolTable.relabel_zero _ _).symm
    settled := nofun
    scopes := (Displacement.zero_move_scopes _).symm
    depthLimit := rfl }
  exact ParseM.exists_translationUnit_joins joins run (Nat.le_refl _) (Nat.lt_succ_self _)

/-- The end of a parse behind another source and errors from before. -/
theorem EndsBehind.reported {front : Front} {own middle last : ParseState} {unit : UnitId}
    {reported : List ParseError} (ends : own.EndsBehind front middle) (clean : front.reported = [])
    (joins : middle.Joins (onlyReported unit [] reported) last) :
    own.EndsBehind { front with reported := reported } last where
  unread := by
    rw [joins.cursor.unread, ends.unread]
    rfl
  final := joins.cursor.final.trans ends.final
  errors := by
    obtain ⟨further, found, moved⟩ := ends.errors
    obtain ⟨more, same, behind⟩ := joins.errors
    obtain rfl : more = front.displacement.move further := by
      rw [clean] at moved
      exact same.symm.trans moved
    refine ⟨further, found, behind.trans ?_⟩
    exact congrArg (reported ++ ·) (Displacement.zero_move_errors _)
  tree := ends.tree.behind joins.tree rfl
  table := (joins.table.trans (SymbolTable.relabel_zero _ _)).trans ends.table

theorem Activity.errors_ne_empty {state next : ParseState} (activity : Activity state next)
    (reported : state.errors ≠ #[]) : next.errors ≠ #[] := by
  induction activity with
  | trans _ _ first second => exact second (first reported)
  | report error => simp
  | node _ _ inside => exact inside reported
  | scope _ inside => exact inside reported
  | template _ _ inside => exact inside reported
  | _ => exact reported

end ParseState

/-! ## Units of joined sources -/

theorem Tree.Joins.finishRoot {displacement : Displacement} {front own joined : Tree}
    (joins : Joins displacement front own joined) (fronts owns wholes : Nat × Nat) :
    Joins displacement (front.finishRoot fronts.1 fronts.2) (own.finishRoot owns.1 owns.2)
      (joined.finishRoot wholes.1 wholes.2) where
  unit := joins.unit
  size := by
    unfold Tree.finishRoot
    rw [size_update, size_update]
    exact joins.size
  kept id inner early := by
    unfold Tree.finishRoot
    rw [get?_update, get?_update, if_neg (Ne.symm inner), if_neg (Ne.symm inner)]
    exact joins.kept id inner early
  inner id inner := by
    unfold Tree.finishRoot
    rw [get?_update, get?_update, if_neg (Ne.symm inner),
      if_neg (Ne.symm (Displacement.move_ne_root _ inner))]
    exact joins.inner id inner
  root := by
    obtain ⟨first, unit, found, there, shared⟩ := joins.root
    unfold Tree.finishRoot
    rw [get?_update, get?_update, if_pos rfl, if_pos rfl, found, there]
    refine ⟨_, _, rfl, rfl, shared.kind, shared.plain, shared.parent, ?_⟩
    exact shared.children.trans (congrArg (· ++ displacement.move first.children)
      (children_finishRoot front fronts.1 fronts.2 Tree.root).symm)

/-- The end of a source lies on a line. -/
theorem ParseState.one_le_line_final (dialect : Dialect) (source : String) :
    1 ≤ (startCursor (.ofSource dialect source)).final.span.line := by
  obtain ⟨token, last, kind⟩ := TokenStream.getLast?_ofReader dialect (.ofSource source)
  obtain ⟨inner, tokens⟩ := List.getLast?_eq_some_iff.1 last
  have final : (startCursor (.ofSource dialect source)).final = token := by
    simp [startCursor, Cursor.ofTokens, TokenStream.ofSource, tokens, kind]
  have valid : token ∈ (TokenStream.ofSource dialect source).valid := by
    simp [TokenStream.valid, TokenStream.ofSource, tokens, kind]
  obtain ⟨_, _, _, line⟩ := (Token.placed_of_valid valid).onLine
  rw [final, line]
  exact Nat.le_add_right 1 _

/-- Whether a unit is one of joined sources, where the units of these sources are given, the second
one parsed behind the first one, and the lexical errors of the second source. -/
structure ParsedUnit.Joins (displacement : Displacement) (lexical : List LexError)
    (first second joined : ParsedUnit) : Prop where
  table : joined.table = second.table.relabel displacement first.table.hasOrigin
  errors : ∃ found, second.errors = lexical.map .ofLexError ++ found ∧
    joined.errors = (displacement.move lexical).map .ofLexError ++ displacement.move found
  tree : Tree.Joins displacement first.tree second.tree joined.tree
  range : ∀ own whole, second.tree.get? Tree.root = some own →
    joined.tree.get? Tree.root = some whole → whole.range =
      { displacement.move own.range with startOffset := 0, startLine := 1 }

/-- How far a source is displaced behind another one and a newline, and behind the nodes of that
one, the translation unit apart. -/
def Displacement.behind (front : String) (tree : Tree) : Displacement where
  bytes := (front ++ "\n").utf8ByteSize
  lines := (front ++ "\n").toList.count '\n'
  nodes := tree.size - 1

/-- Whether a source may stand in front of another one: its delimiters are properly nested and its
last token ends a declaration, with which the other source does not go on. -/
structure Precedes (front behind : List Token) (token : Token) : Prop where
  nested : closesGroups [] front = true
  last : front.getLast? = some token
  closes : token.kind.endsDeclaration = true
  apart : ∀ first ∈ behind.head?,
    first.kind ≠ .punct .semicolon ∧ first.kind ≠ .keyword .catchKw

namespace ParseState

variable {options : ParseOptions} {table : SymbolTable} {unit : UnitId}
  {front behind whole : String} {next final last : ParseState} {displacement : Displacement}
  {token : Token}

def sequelOf (displacement : Displacement) (dialect : Dialect) {front : List Token}
    {behind : String} {token : Token}
    (precedes : Precedes front (sourceTokens dialect behind) token) : Sequel where
  last := token
  tokens := displacement.move (sourceTokens dialect behind)
  final := displacement.move (startCursor (.ofSource dialect behind)).final
  closes := precedes.closes
  apart other head := by
    change other ∈ (List.map displacement.move (sourceTokens dialect behind)).head? at head
    rw [List.head?_map] at head
    obtain ⟨own, first, rfl⟩ := Option.map_eq_some_iff.1 head
    exact precedes.apart own first
  ends := (sound_startCursor dialect behind).final

/-- The state in front of two joined sources, the first of which is free of lexical errors. -/
theorem start_eq_followedBy
    (joins : TokenStream.Joins displacement (.ofSource options.dialect front)
      (.ofSource options.dialect behind) (.ofSource options.dialect whole))
    (precedes : Precedes (sourceTokens options.dialect front)
      (sourceTokens options.dialect behind) token)
    (unreported : (start options table unit front).errors = #[]) :
    start options table unit whole =
      { (start options table unit front).followedBy
          (sequelOf displacement options.dialect precedes) with
        errors := ((displacement.move (TokenStream.ofSource options.dialect behind).errors).map
          ParseError.ofLexError).toArray } := by
  have noLexical : (TokenStream.ofSource options.dialect front).errors = [] :=
    List.map_eq_nil_iff.1 (congrArg Array.toList unreported)
  have errors : (TokenStream.ofSource options.dialect whole).errors =
      displacement.move (TokenStream.ofSource options.dialect behind).errors := by
    rw [joins.errors, noLexical]
    rfl
  have cursor : startCursor (.ofSource options.dialect whole) =
      ((start options table unit front).followedBy
        (sequelOf displacement options.dialect precedes)).cursor := by
    obtain ⟨_, lastFront, endFront⟩ := TokenStream.getLast?_ofReader options.dialect
      (.ofSource front)
    obtain ⟨_, lastBehind, endBehind⟩ := TokenStream.getLast?_ofReader options.dialect
      (.ofSource behind)
    exact joins.startCursor_eq lastFront endFront lastBehind endBehind
  exact congrArg₂ (fun cursor (errors : List LexError) =>
    ParseState.mk cursor (errors.map ParseError.ofLexError).toArray (.empty unit) table startScopes
      options.maxNestingDepth) cursor errors

/-- The whole of two joined sources comes to its end as the second one does behind the first. -/
theorem exists_joined (first : Finished (start options table unit front) next)
    (second : Finished (start options next.table unit behind) final)
    (joins : TokenStream.Joins displacement (.ofSource options.dialect front)
      (.ofSource options.dialect behind) (.ofSource options.dialect whole))
    (precedes : Precedes (sourceTokens options.dialect front)
      (sourceTokens options.dialect behind) token)
    (clean : next.errors = #[])
    (free : ¬ next.Spoiled (sequelOf displacement options.dialect precedes))
    (nodes : displacement.nodes + 1 = next.tree.size) :
    ∃ last, ParseM.translationUnit (start options table unit whole) = .ok () last ∧
      final.EndsBehind { next.asFront displacement
          (start options next.table unit behind).errors.toList with
        reported := (displacement.move (TokenStream.ofSource options.dialect behind).errors).map
          .ofLexError } last := by
  let sequel := sequelOf displacement options.dialect precedes
  have unreported : (start options table unit front).errors = #[] :=
    Decidable.byContradiction fun reported => first.activity.errors_ne_empty reported clean
  have approaches : (start options table unit front).cursor.Approaches sequel := {
    sound := sound_startCursor options.dialect front
    nested := ⟨[], precedes.nested⟩
    last := precedes.last }
  have more : ((start options table unit front).followedBy sequel).cursor.unread ≠ [] := by
    intro spent
    have nothing : sourceTokens options.dialect front = [] := (List.append_eq_nil_iff.1 spent).1
    have last := precedes.last
    rw [nothing] at last
    cases last
  have isOf : ((start options table unit front).followedBy sequel).tree.IsOf unit :=
    Tree.isOf_empty unit
  have empty : ((start options table unit front).followedBy sequel).errors.toList = [] :=
    congrArg Array.toList unreported
  obtain ⟨middle, run, ends⟩ := exists_endsBehind first second approaches free rfl rfl nodes
  obtain ⟨last, joined, carried⟩ := exists_reported isOf more run
    ((displacement.move (TokenStream.ofSource options.dialect behind).errors).map .ofLexError)
  rw [empty] at carried
  rw [start_eq_followedBy joins precedes unreported]
  exact ⟨last, joined, ends.reported (congrArg Array.toList clean) carried⟩

end ParseState

/-! ## Parsing joined sources -/

theorem Cursor.Moves.final_eq {cursor next : Cursor} (moves : cursor.Moves next) :
    next.final = cursor.final := by
  induction moves with
  | refl => rfl
  | skip _ _ ih => exact ih
  | split _ _ ih =>
      unfold Cursor.splitShift
      split <;> exact ih

namespace ParseState

variable {options : ParseOptions} {table : SymbolTable} {unit : UnitId} {next : ParseState}

/-- No class or enum reaches the end of a source if none does in the tree of its unit. -/
theorem not_spoiled {sequel : Sequel} {offset line : Nat} (clean : next.errors = #[])
    (isOf : next.tree.IsOf unit)
    (complete : ∀ node ∈ (next.tree.finishRoot offset line).nodes, node.kind.isTag = true →
      node.range.endOffset < sequel.last.span.stop) : ¬ next.Spoiled sequel := by
  rintro (reported | ⟨id, range, found, -, late⟩)
  · exact reported clean
  · obtain ⟨node, there, same⟩ := Option.map_eq_some_iff.1 found
    obtain ⟨tag, rfl⟩ := Prod.mk.inj same
    have inner : Tree.root ≠ id := by
      rintro rfl
      obtain ⟨_, first, kind, _⟩ := isOf.root
      obtain rfl := Option.some.inj (there.symm.trans first)
      rw [kind] at tag
      cases tag
    have kept : (next.tree.finishRoot offset line).get? id = some node := by
      rw [Tree.finishRoot, Tree.get?_update, if_neg inner]
      exact there
    exact absurd late (Nat.not_le_of_lt (complete node (Array.mem_of_getElem? kept) tag))

/-- The end of a source that a parse comes to. -/
theorem Finished.peek_eq {start final : ParseState} (finished : Finished start final) :
    final.cursor.peek = start.cursor.final := by
  unfold Cursor.peek Cursor.ahead
  rw [finished.unread]
  exact finished.activity.moves.final_eq

/-- There is one node more in front of a source than those by which its own are displaced. -/
theorem Finished.nodes_behind {source : String}
    (finished : Finished (start options table unit source) next) :
    (Displacement.behind source (parseUnit options table unit source).tree).nodes + 1 =
      next.tree.size := by
  obtain ⟨_, found, _⟩ := (finished.activity.isOf (Tree.isOf_empty unit)).root
  have present : Tree.root.index < next.tree.size := (Array.getElem?_eq_some_iff.1 found).choose
  have sizes : (parseUnit options table unit source).tree.size = next.tree.size := by
    simp only [parseUnit, parsed, finish_eq finished, Tree.finishRoot, Tree.size_update]
  simp only [Displacement.behind, sizes]
  exact Nat.sub_add_cancel present

end ParseState

/-- A source behind another one, on lines of its own, is parsed as in a unit that is parsed next:
the symbol table is the same apart from the places of new origins, the errors are those of the
second source, and the nodes are those of the first source and then those of the second one, with
one translation unit around both.  For this the tokens of both sources have to be read as they are
on their own, and the first source has to be free of errors and properly nested, to end a
declaration with which the second one does not go on, and to have no class or enum that comes to its
end: a declaration may go on behind one. -/
theorem parseUnit_joined (options : ParseOptions) {table : SymbolTable}
    (reached : table.Reachable) (unit : UnitId) {front behind : String} {token : Token}
    (joins : TokenStream.Joins (.behind front (parseUnit options table unit front).tree)
      (.ofSource options.dialect front) (.ofSource options.dialect behind)
      (.ofSource options.dialect (front ++ "\n" ++ behind)))
    (clean : (parseUnit options table unit front).errors = [])
    (precedes : Precedes (sourceTokens options.dialect front)
      (sourceTokens options.dialect behind) token)
    (complete : ∀ node ∈ (parseUnit options table unit front).tree.nodes,
      node.kind.isTag = true → node.range.endOffset < token.span.stop) :
    ParsedUnit.Joins (.behind front (parseUnit options table unit front).tree)
      (TokenStream.ofSource options.dialect behind).errors (parseUnit options table unit front)
      (parseUnit options (parseUnit options table unit front).table unit behind)
      (parseUnit options table unit (front ++ "\n" ++ behind)) := by
  obtain ⟨next, first⟩ := ParseState.exists_finished options reached unit front
  obtain ⟨final, second⟩ :=
    ParseState.exists_finished options first.sound.table unit behind
  have isOf := first.activity.isOf (Tree.isOf_empty unit)
  have size := first.nodes_behind
  generalize Displacement.behind front (parseUnit options table unit front).tree = displacement
    at joins size ⊢
  simp only [parseUnit, ParseState.parsed, ParseState.finish_eq first] at clean complete ⊢
  have unreported : next.errors = #[] := Array.toList_eq_nil_iff.1 clean
  obtain ⟨last, run, ends⟩ := ParseState.exists_joined first second joins precedes unreported
    (ParseState.not_spoiled unreported isOf complete) size
  have stops : (ParseState.start options table unit (front ++ "\n" ++ behind)).finish = last := by
    unfold ParseState.finish
    rw [run]
  have peek : last.cursor.peek = displacement.move
      (ParseState.start options next.table unit behind).cursor.final := by
    unfold Cursor.peek Cursor.ahead
    rw [ends.unread]
    exact ends.final.trans (congrArg displacement.move second.activity.moves.final_eq)
  rw [ParseState.finish_eq second, stops, second.peek_eq, peek]
  have line : 1 ≤ (ParseState.start options next.table unit behind).cursor.final.span.line :=
    ParseState.one_le_line_final options.dialect behind
  exact {
    table := ends.table
    errors := ends.errors
    tree := ends.tree.finishRoot (_, _) (_, _) (_, _)
    range := by
      intro own whole found there
      rw [Tree.range_finishRoot found, Tree.range_finishRoot there]
      simp only [Displacement.move, Displaceable.displaced, SourceRange.mk.injEq, true_and,
        and_true]
      omega }

def namespaceText : String :=
  "namespace N \x7b class C \x7b C(); \x7d; \x7d"

/-- The same namespace opened again, with an invalid character, and a declaration without a name. -/
def reopenedText : String :=
  "namespace N \x7b C @ c; \x7d\nint;"

/-- In a second unit, a namespace that is opened once and then again. -/
theorem parseUnit_joined_reopened :
    (parseSource "namespace N \x7b\x7d").table.Reachable ∧
      (parseUnit {} (parseSource "namespace N \x7b\x7d").table ⟨1⟩ namespaceText).errors = [] ∧
      ParsedUnit.Joins
        (.behind namespaceText
          (parseUnit {} (parseSource "namespace N \x7b\x7d").table ⟨1⟩ namespaceText).tree)
        (TokenStream.ofSource .cpp reopenedText).errors
        (parseUnit {} (parseSource "namespace N \x7b\x7d").table ⟨1⟩ namespaceText)
        (parseUnit {}
          (parseUnit {} (parseSource "namespace N \x7b\x7d").table ⟨1⟩ namespaceText).table ⟨1⟩
          reopenedText)
        (parseUnit {} (parseSource "namespace N \x7b\x7d").table ⟨1⟩
          (namespaceText ++ "\n" ++ reopenedText)) := by
  have reached : (parseSource "namespace N \x7b\x7d").table.Reachable :=
    reachable_parseUnit {} .empty ⟨0⟩ _
  have joins : TokenStream.Joins
      (.behind namespaceText
        (parseUnit {} (parseSource "namespace N \x7b\x7d").table ⟨1⟩ namespaceText).tree)
      (.ofSource .cpp namespaceText) (.ofSource .cpp reopenedText)
      (.ofSource .cpp (namespaceText ++ "\n" ++ reopenedText)) :=
    ⟨by decide +kernel, by decide +kernel⟩
  have clean : (parseUnit {} (parseSource "namespace N \x7b\x7d").table ⟨1⟩ namespaceText).errors =
      [] := by
    decide +kernel
  have precedes : Precedes (sourceTokens .cpp namespaceText) (sourceTokens .cpp reopenedText)
      ⟨.punct .rightBrace, "\x7d", ⟨32, 1, 33, 1⟩⟩ := {
    nested := by decide +kernel
    last := by decide +kernel
    closes := by decide
    apart := by decide +kernel }
  exact ⟨reached, clean, parseUnit_joined {} reached ⟨1⟩ joins clean precedes (by decide +kernel)⟩

end DeclTree
