import DeclTree.Proofs.Activity
import DeclTree.Proofs.StretchBounds

/-!
# How a parse ends

A parse yields a value or is refused, and in both cases everything it did is an
activity on the state it started from.  It never gets stuck.  The rules here say
how this carries over from the parts of a parse to the whole, and what a loop
needs for it: that every round leaves less to read.
-/

namespace DeclTree

namespace ParseM

open ParseState (Activity)

/-- How a parse ends: with a value and a state that are accepted, or refused in a
state that is allowed for.  It does not get stuck. -/
def Ends {α : Type} (parse : ParseM α) (state : ParseState)
    (accept : α → ParseState → Prop) (refusal : ParseState → Prop) : Prop :=
  match parse state with
  | .ok value next => accept value next
  | .error (.refused _) next => refusal next
  | .error .stuck _ => False

/-- A parse that does nothing but activities, whether it is refused or yields a
value, which then has some property together with the state behind it. -/
abbrev Yields {α : Type} (parse : ParseM α) (state : ParseState)
    (result : α → ParseState → Prop) : Prop :=
  Ends parse state (fun value next => Activity state next ∧ result value next) (Activity state)

/-- A parse that does nothing but activities and is never refused. -/
abbrev Completes {α : Type} (parse : ParseM α) (state : ParseState)
    (result : α → ParseState → Prop) : Prop :=
  Ends parse state (fun value next => Activity state next ∧ result value next) fun _ => False

/-- A state behind some activity on a sound one. -/
structure Follows (state next : ParseState) : Prop where
  activity : Activity state next
  sound : next.Sound
  weight_le : next.cursor.weight ≤ state.cursor.weight

theorem Follows.of_activity {state next : ParseState} (sound : state.Sound)
    (activity : Activity state next) : Follows state next :=
  ⟨activity, activity.sound sound, activity.weight_le⟩

theorem Follows.trans {first second third : ParseState} (left : Follows first second)
    (right : Follows second third) : Follows first third :=
  ⟨left.activity.trans right.activity, right.sound, Nat.le_trans right.weight_le left.weight_le⟩

section Rules

variable {α β γ : Type} {state : ParseState}

theorem Ends.bind {first : ParseM α} {rest : α → ParseM β} {middle : α → ParseState → Prop}
    {accept : β → ParseState → Prop} {refusal : ParseState → Prop}
    (ends : Ends first state middle refusal)
    (continued : ∀ value next, middle value next → Ends (rest value) next accept refusal) :
    Ends (first >>= rest) state accept refusal := by
  unfold Ends at ends
  change Ends (EStateM.bind first rest) state accept refusal
  unfold Ends EStateM.bind
  split at ends
  · rename_i value next run
    rw [run]
    exact continued value next ends
  · rename_i error next run
    rw [run]
    exact ends
  · exact ends.elim

theorem Ends.mono {parse : ParseM α} {accept accept' : α → ParseState → Prop}
    {refusal refusal' : ParseState → Prop} (ends : Ends parse state accept refusal)
    (accepts : ∀ value next, accept value next → accept' value next)
    (refuses : ∀ next, refusal next → refusal' next) : Ends parse state accept' refusal' := by
  unfold Ends at ends ⊢
  split at ends
  · exact accepts _ _ ends
  · exact refuses _ ends
  · exact ends.elim

theorem Ends.imp {parse : ParseM α} {accept accept' : α → ParseState → Prop}
    {refusal : ParseState → Prop} (ends : Ends parse state accept refusal)
    (accepts : ∀ value next, accept value next → accept' value next) :
    Ends parse state accept' refusal :=
  ends.mono accepts fun _ refused => refused

/-- A parse that is never refused may be refused in any state. -/
theorem Ends.unrefused {parse : ParseM α} {accept : α → ParseState → Prop}
    {refusal : ParseState → Prop} (ends : Ends parse state accept fun _ => False) :
    Ends parse state accept refusal :=
  ends.mono (fun _ _ accepted => accepted) fun _ refused => refused.elim

/-- What follows a part of a parse starts behind an activity. -/
theorem Yields.andThen {first : ParseM α} {rest : α → ParseM β}
    {middle : α → ParseState → Prop} {accept : β → ParseState → Prop}
    {refusal : ParseState → Prop} (yields : Yields first state middle) (sound : state.Sound)
    (refuses : ∀ next, Follows state next → refusal next)
    (continued : ∀ value next, Follows state next → middle value next →
      Ends (rest value) next accept refusal) :
    Ends (first >>= rest) state accept refusal := by
  refine Ends.bind (yields.mono (fun _ _ done => done) ?_) ?_
  · intro next activity
    exact refuses next (.of_activity sound activity)
  · intro value next done
    exact continued value next (.of_activity sound done.1) done.2

theorem Yields.bind {first : ParseM α} {rest : α → ParseM β} {middle : α → ParseState → Prop}
    {result : β → ParseState → Prop} (yields : Yields first state middle) (sound : state.Sound)
    (continued : ∀ value next, Follows state next → middle value next →
      Yields (rest value) next result) : Yields (first >>= rest) state result := by
  apply yields.andThen sound (fun _ follows => follows.activity)
  intro value next follows middle
  exact (continued value next follows middle).mono
    (fun _ _ done => ⟨follows.activity.trans done.1, done.2⟩)
    (fun _ done => follows.activity.trans done)

/-- A part of a parse that is left out under some condition. -/
theorem Yields.whenever {condition : Prop} [Decidable condition] {first : ParseM α}
    {rest : ParseM β} {result : β → ParseState → Prop} (middle : ParseState → Prop)
    (sound : state.Sound) (yields : condition → Yields first state fun _ next => middle next)
    (otherwise : ¬ condition → middle state)
    (continued : ∀ next, Follows state next → middle next → Yields rest next result) :
    Yields (if condition then first >>= fun _ => rest else rest) state result := by
  split
  · rename_i holds
    apply (yields holds).bind sound
    intro _ next follows
    exact continued next follows
  · rename_i fails
    exact continued state (.of_activity sound (.refl state)) (otherwise fails)

theorem Yields.optionally {condition : Prop} [Decidable condition] {first : ParseM α}
    {rest : ParseM β} {result : β → ParseState → Prop} (sound : state.Sound)
    (yields : condition → Yields first state fun _ _ => True)
    (continued : ∀ next, Follows state next → Yields rest next result) :
    Yields (if condition then first >>= fun _ => rest else rest) state result :=
  Yields.whenever (fun _ => True) sound yields (fun _ => trivial)
    fun next follows _ => continued next follows

theorem Yields.imp {parse : ParseM α} {result result' : α → ParseState → Prop}
    (yields : Yields parse state result)
    (implies : ∀ value next, Activity state next → result value next → result' value next) :
    Yields parse state result' :=
  Ends.mono yields (fun value next done => ⟨done.1, implies value next done.1 done.2⟩)
    fun _ activity => activity

theorem Yields.ignore {parse : ParseM α} {result : α → ParseState → Prop}
    (yields : Yields parse state result) : Yields parse state fun _ _ => True :=
  yields.imp fun _ _ _ _ => trivial

/-- What is left to read behind a parse is less than any limit it started below. -/
theorem Yields.below {parse : ParseM α} {result : α → ParseState → Prop} {limit : Nat}
    (yields : Yields parse state result) (less : state.cursor.weight < limit) :
    Yields parse state fun _ next => next.cursor.weight < limit := by
  apply yields.imp
  intro _ _ activity _
  exact Nat.lt_of_le_of_lt activity.weight_le less

theorem yields_pure {value : α} {result : α → ParseState → Prop} (holds : result value state) :
    Yields (pure value) state result :=
  ⟨.refl state, holds⟩

/-- A parse with its value changed at the end. -/
theorem Yields.map {parse : ParseM α} {change : α → β} {middle : α → ParseState → Prop}
    {result : β → ParseState → Prop} (yields : Yields parse state middle)
    (holds : ∀ value next, middle value next → result (change value) next) :
    Yields (parse >>= fun value => pure (change value)) state result := by
  apply Ends.bind yields
  rintro value next ⟨activity, done⟩
  exact ⟨activity, holds value next done⟩

theorem Yields.returns {parse : ParseM α} {change : α → β} {result : α → ParseState → Prop}
    (yields : Yields parse state result) :
    Yields (parse >>= fun value => pure (change value)) state fun _ _ => True :=
  yields.map fun _ _ _ => trivial

theorem yields_refuse {complaint : Complaint} {span : Span} {result : α → ParseState → Prop} :
    Yields (refuse complaint span) state result :=
  .refl state

theorem yields_refuse_bind {complaint : Complaint} {span : Span} {rest : α → ParseM β}
    {result : β → ParseState → Prop} :
    Yields (refuse complaint span >>= rest) state result :=
  .refl state

theorem Completes.yields {parse : ParseM α} {result : α → ParseState → Prop}
    (completes : Completes parse state result) : Yields parse state result :=
  completes.unrefused

/-- A parse that completes has a value. -/
theorem Completes.exists_ok {parse : ParseM α} {result : α → ParseState → Prop}
    (completes : Completes parse state result) :
    ∃ value next, parse state = .ok value next ∧ Activity state next ∧ result value next := by
  unfold Completes Ends at completes
  split at completes
  · rename_i value next run
    exact ⟨value, next, run, completes⟩
  · exact completes.elim
  · exact completes.elim

theorem Completes.andThen {first : ParseM α} {rest : α → ParseM β}
    {middle : α → ParseState → Prop} {accept : β → ParseState → Prop}
    {refusal : ParseState → Prop} (completes : Completes first state middle)
    (sound : state.Sound)
    (continued : ∀ value next, Follows state next → middle value next →
      Ends (rest value) next accept refusal) :
    Ends (first >>= rest) state accept refusal := by
  apply Ends.bind completes.unrefused
  intro value next done
  exact continued value next (.of_activity sound done.1) done.2

theorem completes_pure {value : α} {result : α → ParseState → Prop}
    (holds : result value state) : Completes (pure value) state result :=
  ⟨.refl state, holds⟩

/-- What a parse that is taken up again leaves behind, whether it was refused or
not. -/
def Outcome (accept : α → ParseState → Prop) (refusal : ParseState → Prop) :
    Except ParseError α → ParseState → Prop
  | .ok value, next => accept value next
  | .error _, next => refusal next

/-- A parse that is taken up again is never refused. -/
theorem Ends.attempt {parse : ParseM α} {accept : α → ParseState → Prop}
    {refusal refusal' : ParseState → Prop} (ends : Ends parse state accept refusal) :
    Ends (attempt parse) state (Outcome accept refusal) refusal' := by
  unfold Ends at ends
  unfold Ends ParseM.attempt
  cases run : parse state with
  | ok value next =>
      rw [run] at ends
      exact ends
  | error stop next =>
      rw [run] at ends
      cases stop with
      | refused error => exact ends
      | stuck => exact ends.elim

theorem Yields.attempt {parse : ParseM α} {result : α → ParseState → Prop}
    (yields : Yields parse state result) :
    Completes (attempt parse) state fun outcome next => ∀ value, outcome = .ok value →
      result value next := by
  apply (Ends.attempt yields).imp
  intro outcome next done
  cases outcome with
  | error _ => exact ⟨done, by simp⟩
  | ok value =>
      refine ⟨done.1, ?_⟩
      rintro _ ⟨⟩
      exact done.2

/-! ## Loops -/

/-- A round of a loop goes on with less to read and keeps what holds of its value,
or is done with a result. -/
def Step.Advances (before : ParseState) (keeps : α → ParseState → Prop)
    (result : β → ParseState → Prop) (next : ParseState) : Step α β → Prop
  | .again value => next.cursor.weight < before.cursor.weight ∧ keeps value next
  | .done value => result value next

/-- A round that goes on with what was read. -/
theorem Yields.again {before : ParseState} {parse : ParseM α} {following : α → β}
    {result : γ → ParseState → Prop}
    (yields : Yields parse state fun _ next => next.cursor.weight < before.cursor.weight) :
    Yields (parse >>= fun value => pure (Step.again (following value))) state
      fun outcome next => outcome.Advances before (fun _ _ => True) result next :=
  yields.map fun _ _ less => ⟨less, trivial⟩

/-- A loop with more rounds to go than there is left to read comes to its end. -/
theorem loop_ends {step : α → ParseM (Step α β)} {keeps : α → ParseState → Prop}
    {result : β → ParseState → Prop} {refusal : ParseState → Prop}
    (round : ∀ value next, Follows state next → keeps value next →
      Ends (step value) next (fun outcome after => Activity next after ∧
        outcome.Advances next keeps result after) refusal)
    {bound : Nat} {value : α} {current : ParseState} (follows : Follows state current)
    (enough : current.cursor.weight < bound) (kept : keeps value current) :
    Ends (loop step bound value) current
      (fun final after => Activity state after ∧ result final after) refusal := by
  induction bound generalizing value current with
  | zero => omega
  | succ bound ih =>
      unfold loop
      apply (round value current follows kept).bind
      rintro outcome next ⟨activity, advances⟩
      have moved := follows.trans (.of_activity follows.sound activity)
      cases outcome with
      | done final => exact ⟨moved.activity, advances⟩
      | again following =>
          obtain ⟨less, still⟩ := advances
          exact ih moved (by omega) still

theorem iterate_ends {step : α → ParseM (Step α β)} {start : α} (sound : state.Sound)
    (keeps : α → ParseState → Prop) {result : β → ParseState → Prop}
    {refusal : ParseState → Prop} (kept : keeps start state)
    (round : ∀ value next, Follows state next → keeps value next →
      Ends (step value) next (fun outcome after => Activity next after ∧
        outcome.Advances next keeps result after) refusal) :
    Ends (iterate step start) state
      (fun final after => Activity state after ∧ result final after) refusal :=
  loop_ends round (.of_activity sound (.refl state)) (Nat.lt_succ_self _) kept

theorem yields_iterate {step : α → ParseM (Step α β)} {start : α} (sound : state.Sound)
    (keeps : α → ParseState → Prop) {result : β → ParseState → Prop} (kept : keeps start state)
    (round : ∀ value next, Follows state next → keeps value next →
      Yields (step value) next fun outcome after => outcome.Advances next keeps result after) :
    Yields (iterate step start) state result := by
  apply iterate_ends sound keeps kept
  intro value next follows still
  exact (round value next follows still).mono (fun _ _ done => done)
    fun _ activity => follows.activity.trans activity

end Rules

/-! ## Looking at the state -/

section Readers

variable {β : Type} {state : ParseState} {accept : β → ParseState → Prop}
  {refusal : ParseState → Prop}

@[simp] theorem ends_get {rest : ParseState → ParseM β} :
    Ends (get >>= rest) state accept refusal ↔ Ends (rest state) state accept refusal :=
  Iff.rfl

@[simp] theorem ends_peek {rest : Token → ParseM β} :
    Ends (peek >>= rest) state accept refusal ↔
      Ends (rest state.cursor.peek) state accept refusal :=
  Iff.rfl

@[simp] theorem ends_ahead {distance : Nat} {rest : Token → ParseM β} :
    Ends (ahead distance >>= rest) state accept refusal ↔
      Ends (rest (state.cursor.ahead distance)) state accept refusal :=
  Iff.rfl

@[simp] theorem ends_check {kind : TokenKind} {rest : Bool → ParseM β} :
    Ends (check kind >>= rest) state accept refusal ↔
      Ends (rest (state.cursor.peek.kind == kind)) state accept refusal :=
  Iff.rfl

@[simp] theorem ends_checkAhead {distance : Nat} {kind : TokenKind} {rest : Bool → ParseM β} :
    Ends (checkAhead distance kind >>= rest) state accept refusal ↔
      Ends (rest ((state.cursor.ahead distance).kind == kind)) state accept refusal :=
  Iff.rfl

@[simp] theorem ends_checkWord {word : String} {rest : Bool → ParseM β} :
    Ends (checkWord word >>= rest) state accept refusal ↔
      Ends (rest (state.cursor.peek.kind == .identifier && state.cursor.peek.lexeme == word))
        state accept refusal :=
  Iff.rfl

@[simp] theorem ends_unread {rest : List Token → ParseM β} :
    Ends (unread >>= rest) state accept refusal ↔
      Ends (rest state.cursor.unread) state accept refusal :=
  Iff.rfl

@[simp] theorem ends_mark {rest : Nat → ParseM β} :
    Ends (mark >>= rest) state accept refusal ↔
      Ends (rest state.cursor.mark) state accept refusal :=
  Iff.rfl

@[simp] theorem ends_since {mark : Nat} {rest : List Token → ParseM β} :
    Ends (since mark >>= rest) state accept refusal ↔
      Ends (rest (state.cursor.since mark)) state accept refusal :=
  Iff.rfl

@[simp] theorem ends_previousSpan {rest : Span → ParseM β} :
    Ends (previousSpan >>= rest) state accept refusal ↔
      Ends (rest state.cursor.previousSpan) state accept refusal :=
  Iff.rfl

@[simp] theorem ends_frame {rest : ScopeFrame → ParseM β} :
    Ends (frame >>= rest) state accept refusal ↔
      Ends (rest state.scopes.inner) state accept refusal :=
  Iff.rfl

@[simp] theorem ends_lookupScope {rest : SymbolId → ParseM β} :
    Ends (lookupScope >>= rest) state accept refusal ↔
      Ends (rest state.scopes.inner.symbol) state accept refusal :=
  Iff.rfl

@[simp] theorem ends_unit {rest : UnitId → ParseM β} :
    Ends (unit >>= rest) state accept refusal ↔
      Ends (rest state.tree.unit) state accept refusal :=
  Iff.rfl

@[simp] theorem ends_table {rest : SymbolTable → ParseM β} :
    Ends (table >>= rest) state accept refusal ↔ Ends (rest state.table) state accept refusal :=
  Iff.rfl

@[simp] theorem ends_className? {rest : Option String → ParseM β} :
    Ends (className? >>= rest) state accept refusal ↔
      Ends (rest state.scopes.className?) state accept refusal :=
  Iff.rfl

end Readers

end ParseM

end DeclTree
