import DeclTree.Proofs.DisplacedStretches
import DeclTree.Proofs.JoinedTrees
import DeclTree.Proofs.PartialOutcome
import DeclTree.Proofs.RelabelledTable

/-!
# Parses behind another source

A parse of a source is compared with one of the same source behind another.  The second state has
what was made of the other source in front, and behind it the same as the first one, displaced.  A
parse whose outcome is the same in both states, apart from that, is mirrored.

Only the span of the last token read can tell the two states apart, and only before anything has
been read.  So it is kept track of whether a parse has begun.
-/

namespace DeclTree

/-- What a source stands behind: how far it is displaced, the tokens, latest first, and the tree
in front of it, the symbols with an origin from before, and the errors from before, for the source
on its own and behind the other one. -/
structure Front where
  displacement : Displacement
  tokens : List Token
  tree : Tree
  settled : SymbolId → Bool
  own : List ParseError
  reported : List ParseError

/-- Whether a cursor stands at the same place of a source behind other tokens. -/
structure Cursor.Joins (front : Front) (own joined : Cursor) : Prop where
  consumed : joined.consumed = front.displacement.move own.consumed ++ front.tokens
  unread : joined.unread = front.displacement.move own.unread
  final : joined.final = front.displacement.move own.final
  nonempty : own.consumed ≠ [] ∨ own.unread ≠ []

theorem Displacement.totalWeight_move (displacement : Displacement) (tokens : List Token) :
    Cursor.totalWeight (displacement.move tokens) = Cursor.totalWeight tokens := by
  induction tokens with
  | nil => rfl
  | cons token rest ih => exact congrArg (Cursor.tokenWeight token + ·) ih

namespace Cursor.Joins

variable {front : Front} {own joined : Cursor}

theorem weight (joins : own.Joins front joined) : joined.weight = own.weight := by
  unfold Cursor.weight
  rw [joins.unread, Displacement.totalWeight_move]

theorem ahead (joins : own.Joins front joined) (distance : Nat) :
    joined.ahead distance = front.displacement.move (own.ahead distance) := by
  unfold Cursor.ahead
  rw [joins.unread, joins.final, List.getD_eq_getElem?_getD, List.getD_eq_getElem?_getD]
  change ((List.map front.displacement.move own.unread)[distance]?).getD _ = _
  rw [List.getElem?_map]
  cases own.unread[distance]? <;> rfl

theorem mark (joins : own.Joins front joined) :
    joined.mark = own.mark + front.tokens.length := by
  unfold Cursor.mark
  rw [joins.consumed, List.length_append, Displacement.length_move]

theorem since (joins : own.Joins front joined) (mark : Nat) :
    joined.since (mark + front.tokens.length) = front.displacement.move (own.since mark) := by
  have short : own.mark - mark ≤ (front.displacement.move own.consumed).length := by
    rw [Displacement.length_move]
    exact Nat.sub_le _ _
  unfold Cursor.since
  rw [joins.mark, Nat.add_sub_add_right, joins.consumed, List.take_append_of_le_length short]
  exact (congrArg List.reverse List.map_take.symm).trans List.map_reverse.symm

theorem previousSpan (joins : own.Joins front joined) (begun : own.consumed ≠ []) :
    joined.previousSpan = front.displacement.move own.previousSpan := by
  unfold Cursor.previousSpan
  rw [joins.consumed]
  cases read : own.consumed with
  | nil => exact absurd read begun
  | cons token rest => rfl

theorem skip (joins : own.Joins front joined) (count : Nat) :
    (own.skip count).Joins front (joined.skip count) where
  consumed := by
    have read : (joined.unread.take count).reverse =
        front.displacement.move (own.unread.take count).reverse := by
      rw [joins.unread]
      exact (congrArg List.reverse List.map_take.symm).trans List.map_reverse.symm
    unfold Cursor.skip
    simp only
    rw [read, joins.consumed, ← List.append_assoc]
    exact congrArg (· ++ front.tokens) List.map_append.symm
  unread := by
    unfold Cursor.skip
    simp only
    rw [joins.unread, Displacement.move_drop]
  final := joins.final
  nonempty := by
    unfold Cursor.skip
    simp only
    cases count with
    | zero => simpa using joins.nonempty
    | succ count =>
        rcases joins.nonempty with read | more
        · exact .inl (by simp [read])
        · exact .inl (by simp [more])

theorem splitShift (joins : own.Joins front joined) :
    own.splitShift.Joins front joined.splitShift := by
  have halves (token : Token) : shiftHalves (front.displacement.move token) =
      front.displacement.move (shiftHalves token) := by
    simp only [shiftHalves, Displacement.move, Displaceable.displaced, List.map_cons, List.map_nil]
    rw [Nat.add_right_comm]
  unfold Cursor.splitShift
  rw [joins.unread]
  cases unread : own.unread with
  | nil => exact joins
  | cons token rest =>
      exact {
        consumed := joins.consumed
        unread := by
          change shiftHalves (front.displacement.move token) ++ front.displacement.move rest = _
          rw [halves]
          exact List.map_append.symm
        final := joins.final
        nonempty := .inr (by simp [shiftHalves]) }

end Cursor.Joins

namespace ParseState

/-- Whether a state is the same as another one behind what stands in front. -/
structure Joins (front : Front) (own joined : ParseState) : Prop where
  cursor : own.cursor.Joins front joined.cursor
  errors : ∃ further, own.errors.toList = front.own ++ further ∧
    joined.errors.toList = front.reported ++ front.displacement.move further
  tree : Tree.Joins front.displacement front.tree own.tree joined.tree
  table : joined.table = own.table.relabel front.displacement front.settled
  settled : own.table.HasOrigins front.settled
  scopes : joined.scopes = front.displacement.move own.scopes
  depthLimit : joined.depthLimit = own.depthLimit

/-- Whether a token has been read. -/
def Begun (state : ParseState) : Prop :=
  state.cursor.consumed ≠ []

end ParseState

namespace ParseM

variable {α β γ δ : Type} {front : Front} {start middle stop : Bool}

theorem bind_get {rest : ParseState → ParseM α} (state : ParseState) :
    (get >>= rest) state = rest state state := rfl

theorem bind_peek {rest : Token → ParseM α} (state : ParseState) :
    (peek >>= rest) state = rest state.cursor.peek state := rfl

theorem bind_table {rest : SymbolTable → ParseM α} (state : ParseState) :
    (table >>= rest) state = rest state.table state := rfl

/-- Whether a parse that starts where tokens have been read, if `start` says so, has the same
outcome behind what stands in front, with its value seen from there, and has read tokens behind
it, if `stop` says so. -/
def MirrorsAs (front : Front) (start stop : Bool) (image : α → β) (parse : ParseM α)
    (mirrored : ParseM β) : Prop :=
  ∀ own joined, own.Joins front joined → (start = true → own.Begun) →
    Meets parse own
      (fun value next => (∃ last, mirrored joined = .ok (image value) last ∧
        next.Joins front last) ∧ (own.Begun ∨ stop = true → next.Begun))
      (fun error next => (∃ last,
        mirrored joined = .error (.refused (front.displacement.move error)) last ∧
          next.Joins front last) ∧ (own.Begun → next.Begun))

/-- Whether a parse has the same outcome behind what stands in front, displaced. -/
abbrev Mirrors [Displaceable α] (front : Front) (start stop : Bool) (parse mirrored : ParseM α) :
    Prop :=
  MirrorsAs front start stop front.displacement.move parse mirrored

/-- A step of a loop as it is seen by a mirrored one. -/
def Step.map {α β γ δ : Type} (image : α → γ) (further : β → δ) : Step α β → Step γ δ
  | .again value => .again (image value)
  | .done value => .done (further value)

/-! ## Combining parses -/

namespace MirrorsAs

theorem bind {image : α → γ} {further : β → δ} {first : ParseM α} {mirroredFirst : ParseM γ}
    {rest : α → ParseM β} {mirroredRest : γ → ParseM δ}
    (one : MirrorsAs front start middle image first mirroredFirst)
    (two : ∀ value, MirrorsAs front middle stop further (rest value) (mirroredRest (image value))) :
    MirrorsAs front start stop further (first >>= rest) (mirroredFirst >>= mirroredRest) := by
  intro own joined joins begun
  have goes := one own joined joins begun
  unfold Meets at goes
  change Meets (EStateM.bind first rest) own _ _
  unfold Meets EStateM.bind
  cases run : first own with
  | ok value next =>
      rw [run] at goes
      obtain ⟨⟨last, same, still⟩, kept⟩ := goes
      have continues :
          (mirroredFirst >>= mirroredRest) joined = mirroredRest (image value) last := by
        change EStateM.bind mirroredFirst mirroredRest joined = _
        rw [EStateM.bind, same]
      have behind := two value next last still fun known => kept (.inr known)
      rw [continues]
      exact behind.mono (fun _ _ reached => ⟨reached.1, fun known => reached.2
        (known.imp_left fun read => kept (.inl read))⟩)
        fun _ _ reached => ⟨reached.1, fun read => reached.2 (kept (.inl read))⟩
  | error halt next =>
      rw [run] at goes
      cases halt with
      | stuck => trivial
      | refused error =>
          obtain ⟨⟨last, same, still⟩, kept⟩ := goes
          refine ⟨⟨last, ?_, still⟩, kept⟩
          change EStateM.bind mirroredFirst mirroredRest joined = _
          rw [EStateM.bind, same]

theorem pure {image : α → β} {value : α} {mirrored : β} (same : mirrored = image value) :
    MirrorsAs front start start image (pure value) (pure mirrored) :=
  fun _ joined joins begun => ⟨⟨joined, same ▸ rfl, joins⟩, fun known => known.elim id begun⟩

theorem ite {image : α → β} {condition : Prop} [Decidable condition]
    {first second : ParseM α} {mirroredFirst mirroredSecond : ParseM β}
    (one : condition → MirrorsAs front start stop image first mirroredFirst)
    (two : ¬ condition → MirrorsAs front start stop image second mirroredSecond) :
    MirrorsAs front start stop image (if condition then first else second)
      (if condition then mirroredFirst else mirroredSecond) := by
  split
  · rename_i holds
    exact one holds
  · rename_i fails
    exact two fails

/-- What is mirrored from the start on is mirrored behind some tokens. -/
theorem later {image : α → β} {parse : ParseM α} {mirrored : ParseM β}
    (mirrors : MirrorsAs front start middle image parse mirrored) :
    MirrorsAs front true stop image parse mirrored :=
  fun own joined joins begun => (mirrors own joined joins fun _ => begun rfl).mono
    (fun _ _ reached => ⟨reached.1, fun _ => reached.2 (.inl (begun rfl))⟩)
    fun _ _ reached => reached

/-- What reads a token has begun, and need not be told so. -/
theorem begins {image : α → β} {parse : ParseM α} {mirrored : ParseM β}
    (mirrors : MirrorsAs front false true image parse mirrored) :
    MirrorsAs front start stop image parse mirrored :=
  fun own joined joins _ => (mirrors own joined joins nofun).mono
    (fun _ _ reached => ⟨reached.1, fun _ => reached.2 (.inr rfl)⟩) fun _ _ reached => reached

/-- What follows a token that is read. -/
theorem behind {image : α → γ} {further : β → δ} {first : ParseM α} {mirroredFirst : ParseM γ}
    {rest : α → ParseM β} {mirroredRest : γ → ParseM δ}
    (one : MirrorsAs front false true image first mirroredFirst)
    (two : ∀ value, MirrorsAs front true true further (rest value) (mirroredRest (image value))) :
    MirrorsAs front start stop further (first >>= rest) (mirroredFirst >>= mirroredRest) :=
  (one.bind two).begins

/-- A parse that only looks at its state. -/
theorem looks {image : α → β} {look : ParseState → α} {mirroredLook : ParseState → β}
    (same : ∀ own joined, own.Joins front joined → mirroredLook joined = image (look own)) :
    MirrorsAs front start start image (do return look (← get)) (do return mirroredLook (← get)) :=
  fun own joined joins begun =>
    ⟨⟨joined, congrArg (EStateM.Result.ok · joined) (same own joined joins), joins⟩,
      fun known => known.elim id begun⟩

/-- A parse that changes its state without reading. -/
theorem modify {change mirroredChange : ParseState → ParseState}
    (keeps : ∀ own joined, own.Joins front joined →
      (change own).Joins front (mirroredChange joined))
    (still : ∀ own, (change own).cursor = own.cursor := by intro _; rfl) :
    Mirrors front start start (modify change) (modify mirroredChange) := by
  intro own joined joins begun
  have same : own.Begun → (change own).Begun := fun read => by
    unfold ParseState.Begun
    rw [still]
    exact read
  exact ⟨⟨_, rfl, keeps own joined joins⟩, fun known => same (known.elim id begun)⟩

theorem refuse {image : α → β} (complaint : Complaint) (span : Span) :
    MirrorsAs front start stop image (refuse complaint span)
      (refuse complaint (front.displacement.move span)) :=
  fun _ joined joins _ => ⟨⟨joined, rfl, joins⟩, id⟩

/-- Nothing follows a refusal. -/
theorem refuses {image : α → β} (complaint : Complaint) (span : Span) {rest : γ → ParseM α}
    {mirrored : γ → ParseM β} :
    MirrorsAs front start stop image (ParseM.refuse complaint span >>= rest)
      (ParseM.refuse complaint (front.displacement.move span) >>= mirrored) :=
  fun _ joined joins _ => ⟨⟨joined, rfl, joins⟩, id⟩

theorem stuck {image : α → β} {mirrored : ParseM β} :
    MirrorsAs front start stop image (throw .stuck) mirrored :=
  fun _ _ _ _ => trivial

theorem attempt [Displaceable α] {parse mirrored : ParseM α}
    (mirrors : Mirrors front start start parse mirrored) :
    Mirrors front start start (attempt parse) (attempt mirrored) := by
  intro own joined joins begun
  have goes := mirrors own joined joins begun
  unfold Meets at goes
  unfold Meets ParseM.attempt
  cases run : parse own with
  | ok value next =>
      rw [run] at goes
      obtain ⟨⟨last, same, still⟩, kept⟩ := goes
      exact ⟨⟨last, by rw [same]; rfl, still⟩, fun known => kept (.inl (known.elim id begun))⟩
  | error halt next =>
      rw [run] at goes
      cases halt with
      | stuck => trivial
      | refused error =>
          obtain ⟨⟨last, same, still⟩, kept⟩ := goes
          exact ⟨⟨last, by rw [same]; rfl, still⟩, fun known => kept (known.elim id begun)⟩

theorem resume [Displaceable α] (outcome : Except ParseError α) :
    Mirrors front start start (resume outcome) (resume (front.displacement.move outcome)) := by
  cases outcome with
  | ok value => exact .pure rfl
  | error error => exact fun _ joined joins _ => ⟨⟨joined, rfl, joins⟩, id⟩

/-- What has been read is gone on with. -/
theorem goesOn [Displaceable α] {parse further : ParseM α}
    (mirrors : Mirrors front start start parse further) :
    MirrorsAs front start start (Step.map front.displacement.move front.displacement.move)
      (do return .again (← parse) : ParseM (Step α α)) (do return .again (← further)) :=
  mirrors.bind fun _ => .pure rfl

section Loops

variable {image : α → γ} {further : β → δ} {step : α → ParseM (Step α β)}
  {mirrored : γ → ParseM (Step γ δ)} {bound more : Nat}

/-- A loop with at least as many rounds, the first of which may start before anything has been
read. -/
theorem rounds
    (round : ∀ value, MirrorsAs front start stop (Step.map image further) (step value)
      (mirrored (image value)))
    (again : ∀ value, MirrorsAs front stop stop (Step.map image further) (step value)
      (mirrored (image value)))
    (le : bound ≤ more) (value : α) :
    MirrorsAs front start stop further (loop step bound value)
      (loop mirrored more (image value)) := by
  induction bound generalizing more value start with
  | zero => exact .stuck
  | succ bound ih =>
      obtain ⟨more, rfl⟩ : ∃ rest, more = rest + 1 := ⟨more - 1, by omega⟩
      refine (round value).bind fun outcome => ?_
      cases outcome with
      | done result => exact .pure rfl
      | again next => exact ih again (Nat.le_of_succ_le_succ le) next

theorem loop
    (round : ∀ value, MirrorsAs front start start (Step.map image further) (step value)
      (mirrored (image value)))
    (le : bound ≤ more) (value : α) :
    MirrorsAs front start start further (loop step bound value)
      (ParseM.loop mirrored more (image value)) :=
  rounds round round le value

theorem iterate
    (round : ∀ value, MirrorsAs front start start (Step.map image further) (step value)
      (mirrored (image value))) (value : α) :
    MirrorsAs front start start further (iterate step value) (iterate mirrored (image value)) := by
  intro own joined joins begun
  have weight : own.cursor.weight ≤ joined.cursor.weight := Nat.le_of_eq joins.cursor.weight.symm
  exact loop round (Nat.succ_le_succ weight) value own joined joins begun

/-- A loop every round of which reads something. -/
theorem iterateBegins
    (round : ∀ value, MirrorsAs front start true (Step.map image further) (step value)
      (mirrored (image value))) (value : α) :
    MirrorsAs front start true further (ParseM.iterate step value)
      (ParseM.iterate mirrored (image value)) := by
  intro own joined joins begun
  have weight : own.cursor.weight ≤ joined.cursor.weight := Nat.le_of_eq joins.cursor.weight.symm
  exact rounds round (fun value => (round value).later) (Nat.succ_le_succ weight) value own joined
    joins begun

end Loops

end MirrorsAs

end ParseM

end DeclTree
