import DeclTree.Proofs.CursorMoves

/-!
# What a parse leads to

Whether a parse gets stuck is one question, what it does if it does not is another.
The rules here are for the second one: a parse that yields a value leads to an
accepted state, and one that is refused to a state that is allowed for.  Most of a
parse only reads; it moves the cursor and leaves everything else as it is.
-/

namespace DeclTree

namespace ParseState

def Reads (state next : ParseState) : Prop :=
  state.cursor.Moves next.cursor ∧ next = { state with cursor := next.cursor }

theorem Reads.refl (state : ParseState) : state.Reads state :=
  ⟨.refl _, rfl⟩

theorem Reads.trans {first second third : ParseState} (left : first.Reads second)
    (right : second.Reads third) : first.Reads third := by
  refine ⟨left.1.trans right.1, ?_⟩
  rw [right.2, left.2]

theorem Reads.sound {state next : ParseState} (reads : state.Reads next)
    (sound : state.cursor.Sound) : next.cursor.Sound :=
  reads.1.sound sound

theorem Reads.weight_le {state next : ParseState} (reads : state.Reads next) :
    next.cursor.weight ≤ state.cursor.weight :=
  reads.1.weight_le

def next (state : ParseState) : ParseState :=
  { state with cursor := state.cursor.skip 1 }

theorem reads_next (state : ParseState) : state.Reads state.next :=
  ⟨.skip (.refl _) (.inr rfl), rfl⟩

theorem weight_next {state : ParseState} (sound : state.cursor.Sound)
    (more : state.cursor.peek.kind ≠ .eof) :
    state.next.cursor.weight < state.cursor.weight :=
  Cursor.weight_skip_lt _ Nat.one_pos fun unread => more (sound.peek_eof_iff.2 unread)

/-- The last token behind the next one is that one. -/
theorem previousSpan_next {state : ParseState} (sound : state.cursor.Sound)
    (more : state.cursor.peek.kind ≠ .eof) :
    state.next.cursor.previousSpan = state.cursor.peek.span := by
  have unread : state.cursor.unread ≠ [] := fun unread => more (sound.peek_eof_iff.2 unread)
  obtain ⟨token, rest, tokens⟩ := List.exists_cons_of_ne_nil unread
  simp [next, Cursor.previousSpan, Cursor.skip, Cursor.peek, Cursor.ahead, tokens]

end ParseState

namespace ParseM

theorem bind_of_ok {α β : Type} {first : ParseM α} {rest : α → ParseM β} {value : α}
    {state next : ParseState} (run : first state = .ok value next) :
    (first >>= rest) state = rest value next := by
  change EStateM.bind first rest state = _
  rw [EStateM.bind, run]

theorem bind_of_error {α β : Type} {first : ParseM α} {rest : α → ParseM β} {stop : Halt}
    {state next : ParseState} (run : first state = .error stop next) :
    (first >>= rest) state = .error stop next := by
  change EStateM.bind first rest state = _
  rw [EStateM.bind, run]

/-- What a parse meets: a value and a state that are accepted, or a refusal that is allowed
for in its state.  A parse that gets stuck meets anything. -/
def Meets {α : Type} (parse : ParseM α) (state : ParseState)
    (accept : α → ParseState → Prop) (refusal : ParseError → ParseState → Prop) : Prop :=
  match parse state with
  | .ok value next => accept value next
  | .error (.refused error) next => refusal error next
  | .error .stuck _ => True

/-- What a parse leads to, whatever the error with which it is refused. -/
def Leads {α : Type} (parse : ParseM α) (state : ParseState)
    (accept : α → ParseState → Prop) (refusal : ParseState → Prop) : Prop :=
  Meets parse state accept fun _ => refusal

/-- A round of a loop keeps what holds of the value it goes on with, or is done. -/
def Step.Keeps {α β : Type} (keeps : α → ParseState → Prop) (result : β → ParseState → Prop)
    (next : ParseState) : Step α β → Prop
  | .again value => keeps value next
  | .done value => result value next

section Meeting

variable {α β : Type} {state : ParseState}

theorem Meets.bind {first : ParseM α} {rest : α → ParseM β} {middle : α → ParseState → Prop}
    {accept : β → ParseState → Prop} {refusal : ParseError → ParseState → Prop}
    (meets : Meets first state middle refusal)
    (continued : ∀ value next, middle value next → Meets (rest value) next accept refusal) :
    Meets (first >>= rest) state accept refusal := by
  unfold Meets at meets ⊢
  cases run : first state with
  | ok value next =>
      rw [run] at meets
      rw [bind_of_ok run]
      exact continued value next meets
  | error stop next =>
      rw [run] at meets
      rw [bind_of_error run]
      cases stop with
      | refused error => exact meets
      | stuck => trivial

theorem Meets.mono {parse : ParseM α} {accept accept' : α → ParseState → Prop}
    {refusal refusal' : ParseError → ParseState → Prop}
    (meets : Meets parse state accept refusal)
    (accepts : ∀ value next, accept value next → accept' value next)
    (refuses : ∀ error next, refusal error next → refusal' error next) :
    Meets parse state accept' refusal' := by
  unfold Meets at meets ⊢
  split at meets
  · exact accepts _ _ meets
  · exact refuses _ _ meets
  · trivial

theorem Meets.and {parse : ParseM α} {accept accept' : α → ParseState → Prop}
    {refusal refusal' : ParseError → ParseState → Prop}
    (left : Meets parse state accept refusal) (right : Meets parse state accept' refusal') :
    Meets parse state (fun value next => accept value next ∧ accept' value next)
      fun error next => refusal error next ∧ refusal' error next := by
  unfold Meets at *
  split at left
  · rename_i value next run
    rw [run] at right
    exact ⟨left, right⟩
  · rename_i error next run
    rw [run] at right
    exact ⟨left, right⟩
  · trivial

/-- A parse that is taken up again is never refused. -/
theorem Meets.attempt {parse : ParseM α} {accept : α → ParseState → Prop}
    {refusal refusal' : ParseError → ParseState → Prop}
    (meets : Meets parse state accept refusal) :
    Meets (attempt parse) state (fun outcome next =>
      (∀ value, outcome = .ok value → accept value next) ∧
        (∀ error, outcome = .error error → refusal error next)) refusal' := by
  unfold Meets at meets
  unfold Meets ParseM.attempt
  cases run : parse state with
  | ok value next =>
      rw [run] at meets
      refine ⟨?_, by simp⟩
      rintro _ ⟨⟩
      exact meets
  | error stop next =>
      rw [run] at meets
      cases stop with
      | refused error =>
          refine ⟨by simp, ?_⟩
          rintro _ ⟨⟩
          exact meets
      | stuck => trivial

theorem meets_loop {step : α → ParseM (Step α β)} {keeps : α → ParseState → Prop}
    {result : β → ParseState → Prop} {refusal : ParseError → ParseState → Prop}
    (round : ∀ value next, keeps value next →
      Meets (step value) next (fun outcome after => outcome.Keeps keeps result after) refusal)
    {bound : Nat} {value : α} (kept : keeps value state) :
    Meets (loop step bound value) state result refusal := by
  induction bound generalizing value state with
  | zero => trivial
  | succ bound ih =>
      unfold loop
      apply (round value state kept).bind
      intro outcome next still
      cases outcome with
      | done final => exact still
      | again following => exact ih still

theorem meets_iterate {step : α → ParseM (Step α β)} {start : α}
    (keeps : α → ParseState → Prop) {result : β → ParseState → Prop}
    {refusal : ParseError → ParseState → Prop} (kept : keeps start state)
    (round : ∀ value next, keeps value next →
      Meets (step value) next (fun outcome after => outcome.Keeps keeps result after) refusal) :
    Meets (iterate step start) state result refusal :=
  meets_loop round kept

theorem meets_of_ok {first : ParseM α} {value : α} {next : ParseState}
    (run : first state = .ok value next) {rest : α → ParseM β} {accept : β → ParseState → Prop}
    {refusal : ParseError → ParseState → Prop} :
    Meets (first >>= rest) state accept refusal ↔ Meets (rest value) next accept refusal := by
  rw [Meets, Meets, bind_of_ok run]

end Meeting

section Rules

variable {α β : Type} {state : ParseState}

theorem Leads.bind {first : ParseM α} {rest : α → ParseM β} {middle : α → ParseState → Prop}
    {accept : β → ParseState → Prop} {refusal : ParseState → Prop}
    (leads : Leads first state middle refusal)
    (continued : ∀ value next, middle value next → Leads (rest value) next accept refusal) :
    Leads (first >>= rest) state accept refusal :=
  Meets.bind leads continued

theorem Leads.mono {parse : ParseM α} {accept accept' : α → ParseState → Prop}
    {refusal refusal' : ParseState → Prop} (leads : Leads parse state accept refusal)
    (accepts : ∀ value next, accept value next → accept' value next)
    (refuses : ∀ next, refusal next → refusal' next) : Leads parse state accept' refusal' :=
  Meets.mono leads accepts fun _ => refuses

theorem Leads.imp {parse : ParseM α} {accept accept' : α → ParseState → Prop}
    {refusal : ParseState → Prop} (leads : Leads parse state accept refusal)
    (accepts : ∀ value next, accept value next → accept' value next) :
    Leads parse state accept' refusal :=
  leads.mono accepts fun _ refused => refused

theorem Leads.and {parse : ParseM α} {accept accept' : α → ParseState → Prop}
    {refusal refusal' : ParseState → Prop} (left : Leads parse state accept refusal)
    (right : Leads parse state accept' refusal') :
    Leads parse state (fun value next => accept value next ∧ accept' value next)
      fun next => refusal next ∧ refusal' next :=
  Meets.and left right

/-- A parse that is taken up again is never refused. -/
theorem Leads.attempt {parse : ParseM α} {accept : α → ParseState → Prop}
    {refusal refusal' : ParseState → Prop} (leads : Leads parse state accept refusal) :
    Leads (attempt parse) state (fun outcome next =>
      (∀ value, outcome = .ok value → accept value next) ∧
        (∀ error, outcome = .error error → refusal next)) refusal' :=
  Meets.attempt leads

theorem leads_loop {step : α → ParseM (Step α β)} {keeps : α → ParseState → Prop}
    {result : β → ParseState → Prop} {refusal : ParseState → Prop}
    (round : ∀ value next, keeps value next →
      Leads (step value) next (fun outcome after => outcome.Keeps keeps result after) refusal)
    {bound : Nat} {value : α} (kept : keeps value state) :
    Leads (loop step bound value) state result refusal :=
  meets_loop round kept

theorem leads_iterate {step : α → ParseM (Step α β)} {start : α}
    (keeps : α → ParseState → Prop) {result : β → ParseState → Prop}
    {refusal : ParseState → Prop} (kept : keeps start state)
    (round : ∀ value next, keeps value next →
      Leads (step value) next (fun outcome after => outcome.Keeps keeps result after) refusal) :
    Leads (iterate step start) state result refusal :=
  leads_loop round kept

/-- Nothing has to be known of a part whose outcome does not matter, as behind an error that is
passed on later. -/
theorem leads_behind {first : ParseM α} {rest : α → ParseM β} {accept : β → ParseState → Prop}
    (following : ∀ value next, Leads (rest value) next accept fun _ => True) :
    Leads (first >>= rest) state accept fun _ => True := by
  have anything : Leads first state (fun _ _ => True) fun _ => True := by
    unfold Leads Meets
    split <;> trivial
  exact anything.bind fun value next _ => following value next

end Rules

/-! ## Looking at the state -/

section Readers

variable {β : Type} {state : ParseState} {accept : β → ParseState → Prop}
  {refusal : ParseState → Prop}

@[simp] theorem leads_get {rest : ParseState → ParseM β} :
    Leads (get >>= rest) state accept refusal ↔ Leads (rest state) state accept refusal :=
  Iff.rfl

@[simp] theorem leads_peek {rest : Token → ParseM β} :
    Leads (peek >>= rest) state accept refusal ↔
      Leads (rest state.cursor.peek) state accept refusal :=
  Iff.rfl

@[simp] theorem leads_ahead {distance : Nat} {rest : Token → ParseM β} :
    Leads (ahead distance >>= rest) state accept refusal ↔
      Leads (rest (state.cursor.ahead distance)) state accept refusal :=
  Iff.rfl

@[simp] theorem leads_check {kind : TokenKind} {rest : Bool → ParseM β} :
    Leads (check kind >>= rest) state accept refusal ↔
      Leads (rest (state.cursor.peek.kind == kind)) state accept refusal :=
  Iff.rfl

@[simp] theorem leads_checkAhead {distance : Nat} {kind : TokenKind} {rest : Bool → ParseM β} :
    Leads (checkAhead distance kind >>= rest) state accept refusal ↔
      Leads (rest ((state.cursor.ahead distance).kind == kind)) state accept refusal :=
  Iff.rfl

@[simp] theorem leads_unread {rest : List Token → ParseM β} :
    Leads (unread >>= rest) state accept refusal ↔
      Leads (rest state.cursor.unread) state accept refusal :=
  Iff.rfl

@[simp] theorem leads_mark {rest : Nat → ParseM β} :
    Leads (mark >>= rest) state accept refusal ↔
      Leads (rest state.cursor.mark) state accept refusal :=
  Iff.rfl

@[simp] theorem leads_className? {rest : Option String → ParseM β} :
    Leads (className? >>= rest) state accept refusal ↔
      Leads (rest state.scopes.className?) state accept refusal :=
  Iff.rfl

@[simp] theorem leads_checkWord {word : String} {rest : Bool → ParseM β} :
    Leads (checkWord word >>= rest) state accept refusal ↔
      Leads (rest (state.cursor.peek.kind == .identifier && state.cursor.peek.lexeme == word))
        state accept refusal :=
  Iff.rfl

@[simp] theorem leads_frame {rest : ScopeFrame → ParseM β} :
    Leads (frame >>= rest) state accept refusal ↔
      Leads (rest state.scopes.inner) state accept refusal :=
  Iff.rfl

@[simp] theorem leads_lookupScope {rest : SymbolId → ParseM β} :
    Leads (lookupScope >>= rest) state accept refusal ↔
      Leads (rest state.scopes.inner.symbol) state accept refusal :=
  Iff.rfl

@[simp] theorem leads_unit {rest : UnitId → ParseM β} :
    Leads (unit >>= rest) state accept refusal ↔
      Leads (rest state.tree.unit) state accept refusal :=
  Iff.rfl

@[simp] theorem leads_table {rest : SymbolTable → ParseM β} :
    Leads (table >>= rest) state accept refusal ↔ Leads (rest state.table) state accept refusal :=
  Iff.rfl

end Readers

/-! ## Reading one token -/

section Tokens

variable {α β : Type} {state : ParseState} {accept : β → ParseState → Prop}
  {refusal : ParseState → Prop}

theorem leads_of_ok {first : ParseM α} {value : α} {next : ParseState}
    (run : first state = .ok value next) {rest : α → ParseM β} :
    Leads (first >>= rest) state accept refusal ↔ Leads (rest value) next accept refusal :=
  meets_of_ok run

theorem skip_within {count : Nat} (within : count ≤ state.cursor.unread.length ∨ count = 1) :
    skip count state = .ok () { state with cursor := state.cursor.skip count } := by
  change (if _ then _ else _ : ParseM Unit) state = _
  rw [if_pos within]
  rfl

theorem skip_beyond {count : Nat} (beyond : ¬ (count ≤ state.cursor.unread.length ∨ count = 1)) :
    skip count state = .error .stuck state := by
  change (if _ then _ else _ : ParseM Unit) state = _
  rw [if_neg beyond]
  rfl

theorem leads_skip (count : Nat) (state : ParseState) {refusal : ParseState → Prop} :
    Leads (skip count) state (fun _ next => state.Reads next ∧
      next = { state with cursor := state.cursor.skip count }) refusal := by
  unfold Leads Meets
  by_cases within : count ≤ state.cursor.unread.length ∨ count = 1
  · rw [skip_within within]
    exact ⟨⟨.skip (.refl _) within, rfl⟩, rfl⟩
  · rw [skip_beyond within]
    trivial

/-- A stretch that is passed over without a refusal has no group that is left open. -/
theorem leads_pass (stretch : Stretch) (state : ParseState) :
    Leads (pass stretch) state (fun _ next => stretch.unclosed = none ∧
      next = { state with cursor := state.cursor.skip stretch.length }) fun _ => True := by
  refine (leads_skip stretch.length state).bind fun _ next skipped => ?_
  split
  · trivial
  · rename_i whole
    exact ⟨whole, skipped.2⟩

theorem skip_one (state : ParseState) : skip 1 state = .ok () state.next :=
  skip_within (.inr rfl)

theorem advance_eq (state : ParseState) : advance state = .ok state.cursor.peek state.next := by
  change EStateM.bind (skip 1) _ state = _
  rw [EStateM.bind, skip_one]
  rfl

theorem leads_advance {rest : Token → ParseM β} :
    Leads (advance >>= rest) state accept refusal ↔
      Leads (rest state.cursor.peek) state.next accept refusal :=
  leads_of_ok (advance_eq state)

theorem eat_of_eq {kind : TokenKind} (found : state.cursor.peek.kind = kind) :
    eat kind state = .ok true state.next := by
  change (if state.cursor.peek.kind == kind then _ else _ : ParseM Bool) state = _
  rw [if_pos (by simpa using found)]
  change EStateM.bind (skip 1) _ state = _
  rw [EStateM.bind, skip_one]
  rfl

theorem eat_of_ne {kind : TokenKind} (other : state.cursor.peek.kind ≠ kind) :
    eat kind state = .ok false state := by
  change (if state.cursor.peek.kind == kind then _ else _ : ParseM Bool) state = _
  rw [if_neg (by simpa using other)]
  rfl

theorem leads_eat {kind : TokenKind} {rest : Bool → ParseM β}
    (found : state.cursor.peek.kind = kind → Leads (rest true) state.next accept refusal)
    (missing : state.cursor.peek.kind ≠ kind → Leads (rest false) state accept refusal) :
    Leads (eat kind >>= rest) state accept refusal := by
  by_cases same : state.cursor.peek.kind = kind
  · exact (leads_of_ok (eat_of_eq same)).2 (found same)
  · exact (leads_of_ok (eat_of_ne same)).2 (missing same)

/-- A choice by the next token, which is read. -/
theorem leads_ifEat {kind : TokenKind} {first second : ParseM β}
    (found : state.cursor.peek.kind = kind → Leads first state.next accept refusal)
    (missing : state.cursor.peek.kind ≠ kind → Leads second state accept refusal) :
    Leads (do if ← eat kind then first else second) state accept refusal :=
  leads_eat found missing

/-- A choice by the next token, which is not read. -/
theorem leads_ifCheck {kind : TokenKind} {first second : ParseM β}
    (found : state.cursor.peek.kind = kind → Leads first state accept refusal)
    (missing : state.cursor.peek.kind ≠ kind → Leads second state accept refusal) :
    Leads (do if ← check kind then first else second) state accept refusal := by
  rw [leads_check]
  split
  · rename_i same
    exact found (beq_iff_eq.1 same)
  · rename_i other
    exact missing (by simpa using other)

theorem expect_of_eq {kind : TokenKind} (found : state.cursor.peek.kind = kind) :
    expect kind state = .ok state.cursor.peek state.next := by
  change (if state.cursor.peek.kind = kind then advance else _ : ParseM Token) state = _
  rw [if_pos found, advance_eq]

theorem leads_expect {kind : TokenKind} {rest : Token → ParseM β}
    (found : state.cursor.peek.kind = kind →
      Leads (rest state.cursor.peek) state.next accept refusal)
    (missing : state.cursor.peek.kind ≠ kind → refusal state) :
    Leads (expect kind >>= rest) state accept refusal := by
  by_cases same : state.cursor.peek.kind = kind
  · exact (leads_of_ok (expect_of_eq same)).2 (found same)
  · have stops : Leads (expect kind) state (fun _ _ => False) refusal := by
      change Leads (if state.cursor.peek.kind = kind then advance else _ : ParseM Token) state _ _
      rw [if_neg same]
      split
      · exact missing same
      · exact missing same
    exact stops.bind fun _ _ absurd => absurd.elim

/-- Whether a condition that a parse looks for tells of a kind of token that is next. -/
def TellsOf (kind : TokenKind) (parse : ParseM Bool) : Prop :=
  ∀ state, Leads parse state
    (fun found next => next = state ∧ (found = true → state.cursor.peek.kind = kind)) fun _ => True

theorem tellsOf_check (kind : TokenKind) : TellsOf kind (check kind) :=
  fun _ => ⟨rfl, eq_of_beq⟩

theorem tellsOf_checkWord (word : String) : TellsOf .identifier (checkWord word) :=
  fun _ => ⟨rfl, fun found => eq_of_beq (Bool.and_eq_true_iff.1 found).1⟩

theorem tellsOf_nameContinues : TellsOf (.punct .colonColon) nameContinues := by
  refine fun state => leads_ifCheck (fun found => ?_) fun _ => ⟨rfl, by simp⟩
  exact ⟨rfl, fun _ => found⟩

theorem TellsOf.choose {kind : TokenKind} {parse : ParseM Bool} {first second : ParseM β}
    (tells : TellsOf kind parse)
    (found : state.cursor.peek.kind = kind → Leads first state accept fun _ => True)
    (missing : Leads second state accept fun _ => True) :
    Leads (do if ← parse then first else second) state accept fun _ => True := by
  refine (tells state).bind ?_
  rintro outcome _ ⟨rfl, known⟩
  split
  · rename_i yes
    exact found (known yes)
  · exact missing

end Tokens

/-! ## Reading -/

/-- The state behind a parse, however it ends. -/
def last {α : Type} (parse : ParseM α) (state : ParseState) : ParseState :=
  match parse state with
  | .ok _ next => next
  | .error _ next => next

/-- Whether a parse does nothing but read, however it ends, and is refused on account of
the source only. -/
structure OnlyReads {α : Type} (parse : ParseM α) : Prop where
  reads : ∀ state : ParseState, state.Reads (last parse state)
  ordinary : ∀ state error next, parse state = .error (.refused error) next →
    error.kind ≠ .internalError

/-- Only what the table or the tree refuses may be an error of the parse itself. -/
@[simp] theorem kind_ne_internalError {complaint : Complaint}
    (table : ∀ error, complaint ≠ .symbol error) (tree : ∀ error, complaint ≠ .tree error) :
    complaint.kind ≠ .internalError := by
  cases complaint with
  | symbol error => exact absurd rfl (table error)
  | tree error => exact absurd rfl (tree error)
  | _ => simp [Complaint.kind]

namespace OnlyReads

variable {α β : Type}

theorem leads {parse : ParseM α} (reads : OnlyReads parse) (state : ParseState) :
    Leads parse state (fun _ => state.Reads) state.Reads := by
  have reached := reads.reads state
  unfold last at reached
  unfold Leads Meets
  split <;> simp_all

/-- A parse that yields what it sees. -/
theorem looks {parse : ParseM α} (sees : ∀ state, ∃ value, parse state = .ok value state) :
    OnlyReads parse where
  reads state := by
    obtain ⟨value, run⟩ := sees state
    rw [last, run]
    exact .refl state
  ordinary state error next run := by
    obtain ⟨value, other⟩ := sees state
    cases other.symm.trans run

/-- A parse that yields something or gets stuck. -/
theorem moves {parse : ParseM α} (outcome : ∀ state, (∃ value next, parse state = .ok value next ∧
      state.Reads next) ∨ parse state = .error .stuck state) : OnlyReads parse where
  reads state := by
    rcases outcome state with ⟨value, next, run, read⟩ | run
    · rw [last, run]
      exact read
    · rw [last, run]
      exact .refl state
  ordinary state error next run := by
    rcases outcome state with ⟨value, other, yields, _⟩ | sticks
    · cases yields.symm.trans run
    · cases sticks.symm.trans run

@[simp] theorem pure (value : α) : OnlyReads (Pure.pure value : ParseM α) :=
  .looks fun _ => ⟨value, rfl⟩

@[simp] theorem stuck : OnlyReads (MonadExcept.throw .stuck : ParseM α) :=
  .moves fun _ => .inr rfl

@[simp] theorem refuse {complaint : Complaint} (ordinary : complaint.kind ≠ .internalError)
    (span : Span) : OnlyReads (ParseM.refuse complaint span : ParseM α) where
  reads state := .refl state
  ordinary _ _ _ run := by
    cases run
    exact ordinary

@[simp] theorem get : OnlyReads (MonadState.get : ParseM ParseState) :=
  .looks fun state => ⟨state, rfl⟩

theorem bind {first : ParseM α} {rest : α → ParseM β} (reads : OnlyReads first)
    (following : ∀ value, OnlyReads (rest value)) : OnlyReads (first >>= rest) := by
  have stops {state next : ParseState} {stop : Halt} (run : first state = .error stop next) :
      (first >>= rest) state = .error stop next := by
    change EStateM.bind first rest state = _
    rw [EStateM.bind, run]
  have continues {state next : ParseState} {value : α} (run : first state = .ok value next) :
      (first >>= rest) state = rest value next := by
    change EStateM.bind first rest state = _
    rw [EStateM.bind, run]
  constructor
  · intro state
    have before := reads.reads state
    unfold last at before
    cases run : first state with
    | error stop next =>
        rw [run] at before
        rw [last, stops run]
        exact before
    | ok value next =>
        rw [run] at before
        have after := (following value).reads next
        rw [last, continues run]
        exact before.trans after
  · intro state error next refused
    cases run : first state with
    | error stop last =>
        rw [stops run] at refused
        cases refused
        exact reads.ordinary state error next run
    | ok value last =>
        rw [continues run] at refused
        exact (following value).ordinary last error next refused

theorem map {parse : ParseM α} (reads : OnlyReads parse) (change : α → β) :
    OnlyReads (change <$> parse) := by
  rw [map_eq_pure_bind]
  exact reads.bind fun value => .pure (change value)

theorem loop {step : α → ParseM (Step α β)} (round : ∀ value, OnlyReads (step value))
    (bound : Nat) (start : α) : OnlyReads (ParseM.loop step bound start) := by
  induction bound generalizing start with
  | zero => exact .stuck
  | succ bound ih =>
      unfold ParseM.loop
      refine (round start).bind fun outcome => ?_
      cases outcome with
      | done final => exact .pure final
      | again next => exact ih next

theorem iterate {step : α → ParseM (Step α β)} (round : ∀ value, OnlyReads (step value))
    (start : α) : OnlyReads (ParseM.iterate step start) :=
  OnlyReads.get.bind fun _ => loop round _ start

theorem ite {condition : Prop} [Decidable condition] {first second : ParseM α}
    (left : OnlyReads first) (right : OnlyReads second) :
    OnlyReads (if condition then first else second) := by
  split
  · exact left
  · exact right

end OnlyReads

attribute [simp] OnlyReads.bind OnlyReads.map OnlyReads.iterate OnlyReads.ite

end ParseM

end DeclTree
