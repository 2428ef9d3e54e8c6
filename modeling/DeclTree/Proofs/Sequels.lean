import DeclTree.Proofs.CreationOrder
import DeclTree.Proofs.FollowedStretches

/-!
# Text behind a source

Text behind a source that ends like a declaration, a sequel, does not change what is made of the
source, as long as the parse does not look beyond its end.  A parse is compared with the same one
in front of the sequel: up to the end of the source both go through the same states, apart from
what is left to read.  Two things excuse a parse from this: a reported error, and a class or enum
that ends with the last token, behind which the declaration that it is part of may go on.
-/

namespace DeclTree

/-- Text behind a source: its tokens and the end of the whole text, and the last token of the
source, which ends a declaration that the sequel does not go on with. -/
structure Sequel where
  last : Token
  tokens : List Token
  final : Token
  closes : last.kind.endsDeclaration = true
  apart : ∀ token ∈ tokens.head?,
    token.kind ≠ .punct .semicolon ∧ token.kind ≠ .keyword .catchKw
  ends : final.kind = .eof

namespace Cursor

variable {cursor : Cursor} {sequel : Sequel}

/-- The cursor in front of the same tokens and a sequel. -/
def followedBy (cursor : Cursor) (sequel : Sequel) : Cursor :=
  { cursor with unread := cursor.unread ++ sequel.tokens, final := sequel.final }

theorem ahead_followedBy {distance : Nat} (inside : distance < cursor.unread.length) :
    (cursor.followedBy sequel).ahead distance = cursor.ahead distance := by
  simp [ahead, followedBy, inside, List.getElem?_append_left]

theorem peek_followedBy (more : cursor.unread ≠ []) :
    (cursor.followedBy sequel).peek = cursor.peek :=
  ahead_followedBy (List.length_pos_iff.2 more)

/-- At the end of the text the sequel is ahead. -/
theorem peek_followedBy_of_spent (spent : cursor.unread = []) :
    (cursor.followedBy sequel).peek.kind ≠ .keyword .catchKw := by
  cases tokens : sequel.tokens with
  | nil => simp [peek, ahead, followedBy, spent, tokens, sequel.ends]
  | cons token rest =>
      have apart := sequel.apart token (by simp [tokens])
      simpa [peek, ahead, followedBy, spent, tokens] using apart.2

theorem skip_followedBy {count : Nat} (within : count ≤ cursor.unread.length) :
    (cursor.followedBy sequel).skip count = (cursor.skip count).followedBy sequel := by
  simp only [skip, followedBy, List.take_append_of_le_length within,
    List.drop_append_of_le_length within]

theorem splitShift_followedBy (more : cursor.unread ≠ []) :
    (cursor.followedBy sequel).splitShift = cursor.splitShift.followedBy sequel := by
  obtain ⟨token, rest, unread⟩ := List.exists_cons_of_ne_nil more
  simp [splitShift, followedBy, unread]

theorem weight_followedBy : cursor.weight ≤ (cursor.followedBy sequel).weight := by
  simp only [weight, followedBy, totalWeight_append]
  omega

/-- Whether a cursor is on its way through properly nested tokens to the last one in front of a
sequel. -/
structure Approaches (cursor : Cursor) (sequel : Sequel) : Prop where
  sound : cursor.Sound
  nested : ClosesGroups cursor.unread
  last : (cursor.consumed.reverse ++ cursor.unread).getLast? = some sequel.last

namespace Approaches

theorem ended (approaches : cursor.Approaches sequel) : Ended cursor.unread := by
  intro token last
  have whole := approaches.last
  rw [List.getLast?_append, last] at whole
  cases whole
  exact sequel.closes

/-- The last token in front of the sequel is read last. -/
theorem head?_consumed (approaches : cursor.Approaches sequel) (spent : cursor.unread = []) :
    cursor.consumed.head? = some sequel.last := by
  have whole := approaches.last
  rw [spent, List.append_nil, List.getLast?_reverse] at whole
  exact whole

theorem previousSpan_of_spent (approaches : cursor.Approaches sequel)
    (spent : cursor.unread = []) : cursor.previousSpan = sequel.last.span := by
  obtain ⟨rest, consumed⟩ := List.head?_eq_some_iff.1 (approaches.head?_consumed spent)
  simp [previousSpan, consumed]

theorem previousSpan_followedBy (approaches : cursor.Approaches sequel) :
    (cursor.followedBy sequel).previousSpan = cursor.previousSpan := by
  cases consumed : cursor.consumed with
  | cons token rest => simp [previousSpan, followedBy, consumed]
  | nil =>
      have more : cursor.unread ≠ [] := fun spent => by
        simpa [consumed] using approaches.head?_consumed spent
      have peek : (cursor.followedBy sequel).peek = cursor.peek := peek_followedBy more
      simp only [previousSpan, consumed, followedBy] at peek ⊢
      rw [peek]

/-- Behind a token that ends no declaration there are others. -/
theorem one_lt_length (approaches : cursor.Approaches sequel) (more : cursor.unread ≠ [])
    (inner : cursor.peek.kind.endsDeclaration = false) : 1 < cursor.unread.length := by
  obtain ⟨token, rest, unread⟩ := List.exists_cons_of_ne_nil more
  have ended := approaches.ended
  rw [unread] at ended ⊢
  have behind := ended.rest_ne_nil (by simpa [peek, ahead, unread] using inner)
  have := List.length_pos_iff.2 behind
  simp only [List.length_cons]
  omega

theorem two_lt_length (approaches : cursor.Approaches sequel) (more : 1 < cursor.unread.length)
    (inner : (cursor.ahead 1).kind.endsDeclaration = false) : 2 < cursor.unread.length := by
  cases unread : cursor.unread with
  | nil => simp [unread] at more
  | cons first rest =>
      cases rest with
      | nil => simp [unread] at more
      | cons token rest =>
          have ended := approaches.ended
          rw [unread] at ended
          have behind := ended.tail.rest_ne_nil (by simpa [ahead, unread] using inner)
          have := List.length_pos_iff.2 behind
          simp only [List.length_cons]
          omega

theorem skip (approaches : cursor.Approaches sequel) (count : Nat) :
    (cursor.skip count).Approaches sequel where
  sound := approaches.sound.skip count
  nested := approaches.nested.drop count
  last := by
    have whole := approaches.last
    simp only [Cursor.skip, List.reverse_append, List.reverse_reverse, List.append_assoc,
      List.take_append_drop]
    exact whole

theorem splitShift (approaches : cursor.Approaches sequel)
    (closes : cursor.peek.kind = .punct .greaterGreater) :
    cursor.splitShift.Approaches sequel := by
  have sound := approaches.sound.splitShift
  cases unread : cursor.unread with
  | nil =>
      have same : cursor.splitShift = cursor := by simp [Cursor.splitShift, unread]
      rwa [same]
  | cons token rest =>
      have kind : token.kind = .punct .greaterGreater := by
        simpa [peek, ahead, unread] using closes
      have ended := approaches.ended
      have nested := approaches.nested
      have last := approaches.last
      rw [unread] at ended nested last
      have behind := ended.rest_ne_nil (by rw [kind]; rfl)
      refine ⟨sound, ?_, ?_⟩
      · obtain ⟨stack, nested⟩ := nested.tail
        refine ⟨stack, ?_⟩
        simp only [Cursor.splitShift, unread, shiftHalves]
        exact nested
      · simp only [Cursor.splitShift, unread, List.getLast?_append, shiftHalves] at last ⊢
        rw [List.getLast?_eq_some_getLast behind]
        rw [List.getLast?_cons, List.getLast?_eq_some_getLast behind] at last
        simpa using last

theorem moves {next : Cursor} (approaches : cursor.Approaches sequel)
    (moves : cursor.Moves next) : next.Approaches sequel := by
  induction moves with
  | refl => exact approaches
  | skip _ _ ih => exact ih.skip _
  | split _ closes ih => exact ih.splitShift closes

end Approaches

/-- At the end of a text nothing more is read. -/
theorem Moves.spent {next : Cursor} (moves : cursor.Moves next) (spent : cursor.unread = []) :
    next.unread = [] := by
  induction moves with
  | refl => exact spent
  | skip _ _ ih => simp [Cursor.skip, ih]
  | split _ _ ih => simp [Cursor.splitShift, ih]

end Cursor

/-! ## What nodes cover -/

namespace Tree

variable {tree : Tree} {id : NodeId}

/-- Whether a node is a class or enum, and what it covers. -/
def bounds? (tree : Tree) (id : NodeId) : Option (Bool × SourceRange) :=
  (tree.get? id).map fun node => (node.kind.isTag, node.range)

theorem bounds?_add_old (kind : NodeKind) (parent : NodeId) (start : Span)
    (old : id.index < tree.size) : (tree.add kind parent start).2.bounds? id = tree.bounds? id := by
  unfold bounds?
  rw [get?_add, if_neg (Nat.ne_of_lt old), Option.map_map]
  congr 1
  funext node
  simp only [Function.comp_apply]
  split <;> rfl

theorem bounds?_add_new (kind : NodeKind) (parent : NodeId) (start : Span) :
    (tree.add kind parent start).2.bounds? ⟨tree.size⟩ =
      some (kind.isTag, ({} : SourceRange).setStart start.offset start.line) := by
  unfold bounds?
  rw [get?_add, if_pos rfl, Option.map_some, Option.map_some]
  split <;> rfl

theorem bounds?_updateTemplate (node : NodeId) (change : TemplateDecl → TemplateDecl) :
    (tree.updateTemplate node change).bounds? id = tree.bounds? id := by
  unfold bounds? updateTemplate
  rw [get?_update]
  split
  · rw [Option.map_map]
    congr 1
    funext node
    simp only [Function.comp_apply]
    split
    · rename_i declaration kind
      simp only [kind]
      rfl
    · rfl
  · rfl

theorem bounds?_finish_other {node : NodeId} (last : Span) (other : node ≠ id) :
    (tree.finish node last).bounds? id = tree.bounds? id := by
  unfold bounds? finish
  rw [get?_update, if_neg other]

theorem bounds?_finish_sealed {node : NodeId} (last : Span) {bounds : Bool × SourceRange}
    (found : tree.bounds? id = some bounds) (finished : bounds.2.sealed = true) :
    (tree.finish node last).bounds? id = some bounds := by
  by_cases same : node = id
  · subst same
    unfold bounds? finish at *
    rw [get?_update, if_pos rfl]
    cases present : tree.get? node with
    | none => simp [present] at found
    | some found' =>
        rw [present] at found
        obtain rfl := Option.some.inj found
        have whole : found'.range.sealed = true := finished
        simp [whole]
  · rw [bounds?_finish_other last same, found]

theorem bounds?_finish_open {tag : Bool} {range : SourceRange} (last : Span)
    (found : tree.bounds? id = some (tag, range)) (begun : range.sealed = false) :
    (tree.finish id last).bounds? id =
      some (tag, (range.setEnd last.stop last.line).finalize) := by
  unfold bounds? finish at *
  rw [get?_update, if_pos rfl]
  cases present : tree.get? id with
  | none => simp [present] at found
  | some node =>
      rw [present] at found
      have same : (node.kind.isTag, node.range) = (tag, range) := Option.some.inj found
      obtain ⟨rfl, rfl⟩ := Prod.mk.injEq .. ▸ same
      simp [begun]

end Tree

namespace ParseState

variable {state next : ParseState} {sequel : Sequel} {old : Nat}

/-- The state in front of the same tokens and a sequel. -/
def followedBy (state : ParseState) (sequel : Sequel) : ParseState :=
  { state with cursor := state.cursor.followedBy sequel }

/-- What no parse takes back: it moves on, errors stay, nodes stay, and nodes keep what they
cover if they are finished or among the first of them. -/
structure GoesOn (old : Nat) (state next : ParseState) : Prop where
  moves : state.cursor.Moves next.cursor
  errors : state.errors ≠ #[] → next.errors ≠ #[]
  size_le : state.tree.size ≤ next.tree.size
  old : ∀ id : NodeId, id.index < old → next.tree.bounds? id = state.tree.bounds? id
  finished : ∀ id bounds, state.tree.bounds? id = some bounds → bounds.2.sealed = true →
    next.tree.bounds? id = some bounds

namespace GoesOn

theorem refl (old : Nat) (state : ParseState) : state.GoesOn old state :=
  ⟨.refl _, id, Nat.le_refl _, fun _ _ => rfl, fun _ _ found _ => found⟩

theorem trans {middle : ParseState} (first : state.GoesOn old middle)
    (second : middle.GoesOn old next) : state.GoesOn old next where
  moves := first.moves.trans second.moves
  errors := second.errors ∘ first.errors
  size_le := Nat.le_trans first.size_le second.size_le
  old id among := (second.old id among).trans (first.old id among)
  finished id bounds found sealed :=
    second.finished id bounds (first.finished id bounds found sealed) sealed

theorem weaken {fewer : Nat} (goesOn : state.GoesOn old next) (le : fewer ≤ old) :
    state.GoesOn fewer next :=
  { goesOn with old := fun id among => goesOn.old id (Nat.lt_of_lt_of_le among le) }

theorem of_reads (reads : state.Reads next) : state.GoesOn old next := by
  obtain ⟨moves, same⟩ := reads
  rw [same]
  exact ⟨moves, id, Nat.le_refl _, fun _ _ => rfl, fun _ _ found _ => found⟩

/-- Only the table or the scopes are changed. -/
theorem of_eq (cursor : next.cursor = state.cursor) (errors : next.errors = state.errors)
    (tree : next.tree = state.tree) : state.GoesOn old next where
  moves := cursor ▸ .refl _
  errors := errors ▸ id
  size_le := tree ▸ Nat.le_refl _
  old _ _ := by rw [tree]
  finished _ _ found _ := by rw [tree, found]

theorem report (error : ParseError) :
    state.GoesOn old { state with errors := state.errors.push error } :=
  ⟨.refl _, fun _ => by simp, Nat.le_refl _, fun _ _ => rfl, fun _ _ found _ => found⟩

theorem addNode (large : old ≤ state.tree.size) (kind : NodeKind) (parent : NodeId)
    (start : Span) (table : SymbolTable) :
    state.GoesOn old { state with
      tree := (state.tree.add kind parent start).2
      table := table } where
  moves := .refl _
  errors := id
  size_le := by simp
  old id among := Tree.bounds?_add_old _ _ _ (Nat.lt_of_lt_of_le among large)
  finished id bounds found _ := by
    have present : id.index < state.tree.size := by
      unfold Tree.bounds? at found
      obtain ⟨node, there, _⟩ := Option.map_eq_some_iff.1 found
      exact (Array.getElem?_eq_some_iff.1 there).1
    rw [← found]
    exact Tree.bounds?_add_old _ _ _ present

theorem finishNode {node : NodeId} (new : old ≤ node.index) (last : Span) :
    state.GoesOn old { state with tree := state.tree.finish node last } where
  moves := .refl _
  errors := id
  size_le := by simp [Tree.finish, Tree.update, Tree.size]
  old id among := Tree.bounds?_finish_other last fun same => by
    subst same
    exact Nat.not_lt_of_le new among
  finished _ _ found sealed := Tree.bounds?_finish_sealed last found sealed

theorem updateTemplate (node : NodeId) (change : TemplateDecl → TemplateDecl) :
    state.GoesOn old { state with tree := state.tree.updateTemplate node change } where
  moves := .refl _
  errors := id
  size_le := by simp [Tree.updateTemplate, Tree.update, Tree.size]
  old _ _ := Tree.bounds?_updateTemplate _ _
  finished _ _ found _ := (Tree.bounds?_updateTemplate _ _).trans found

end GoesOn

/-- What excuses a parse from going on as if there were no sequel: an error, or a class or enum
that ends with the last token in front of the sequel. -/
def Spoiled (state : ParseState) (sequel : Sequel) : Prop :=
  state.errors ≠ #[] ∨ ∃ id range, state.tree.bounds? id = some (true, range) ∧
    range.sealed = true ∧ sequel.last.span.stop ≤ range.endOffset

theorem Spoiled.goesOn (spoiled : state.Spoiled sequel) (goesOn : state.GoesOn old next) :
    next.Spoiled sequel := by
  refine spoiled.imp goesOn.errors ?_
  rintro ⟨id, range, found, sealed, late⟩
  exact ⟨id, range, goesOn.finished id _ found sealed, sealed, late⟩

/-- A class or enum that is finished behind the last token in front of the sequel. -/
theorem spoiled_finish {node : NodeId} {range : SourceRange}
    (found : state.tree.bounds? node = some (true, range)) (begun : range.sealed = false)
    (approaches : state.cursor.Approaches sequel) (spent : state.cursor.unread = []) :
    ParseState.Spoiled
      { state with tree := state.tree.finish node state.cursor.previousSpan } sequel := by
  refine .inr ⟨node, _, Tree.bounds?_finish_open _ found begun, rfl, ?_⟩
  rw [approaches.previousSpan_of_spent spent]
  exact Nat.le_max_left _ _

end ParseState

end DeclTree
