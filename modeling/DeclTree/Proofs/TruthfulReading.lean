import DeclTree.Proofs.PartialOutcome
import DeclTree.Proofs.Provenance
import DeclTree.Proofs.StretchBounds

/-!
# Parses that take all from their tokens

An error of a parse points at a token, at the name of something or at a delimiter that is
never closed.  All of these come from the tokens around the cursor, and so does a span or a text
that is passed on from one rule of the grammar to another.  Here are the rules by which a parse is
seen to point at such places and to keep such texts only, and what is read by looking at tokens.
-/

namespace DeclTree

/-! ## Open delimiters -/

namespace Stretch

/-- Whether the delimiter that a stretch leaves open, if there is one, is among some tokens. -/
def OpensIn (tokens : List Token) (stretch : Stretch) : Prop :=
  ∀ opener ∈ stretch.unclosed, opener ∈ tokens

variable {tokens : List Token} {stretch : Stretch}

theorem opensIn_closed {length : Nat} : OpensIn tokens { length := length } := by
  simp [OpensIn]

theorem OpensIn.drop {count : Nat} (opens : stretch.OpensIn (tokens.drop count)) :
    stretch.OpensIn tokens :=
  fun opener member => List.mem_of_mem_drop (opens opener member)

theorem OpensIn.cons {token : Token} (opens : stretch.OpensIn tokens) :
    stretch.OpensIn (token :: tokens) :=
  fun opener member => List.mem_cons_of_mem _ (opens opener member)

theorem OpensIn.shift {count : Nat} (opens : stretch.OpensIn tokens) :
    (stretch.shift count).OpensIn tokens :=
  opens

theorem OpensIn.andThen {continuation : Unit → Stretch} (opens : stretch.OpensIn tokens)
    (further : (continuation ()).OpensIn tokens) :
    (stretch.andThen continuation).OpensIn tokens := by
  unfold Stretch.andThen
  split
  · exact opens
  · exact further.shift

theorem opensIn_group (tokens : List Token) : (group tokens).OpensIn tokens := by
  cases tokens with
  | nil => exact opensIn_closed
  | cons token rest =>
      simp only [group]
      split
      · exact opensIn_closed
      · intro opener member
        have same : token = opener := by
          simpa using (Option.ite_none_left_eq_some.1 member).2
        simp [same]

theorem opensIn_expression (stops : List TokenKind) (tokens : List Token) :
    (expression stops tokens).OpensIn tokens := by
  fun_induction expression stops tokens with
  | case1 => exact opensIn_closed
  | case2 => exact opensIn_closed
  | case3 token rest _ _ inner ih => exact (opensIn_group _).andThen ih.drop
  | case4 token rest _ _ _ arguments ih => exact ih.drop.cons.shift
  | case5 token rest _ _ _ ih => exact ih.cons.shift

theorem opensIn_upTo (stops : List TokenKind) (tokens : List Token) :
    (upTo stops tokens).OpensIn tokens := by
  fun_induction upTo stops tokens with
  | case1 => exact opensIn_closed
  | case2 => exact opensIn_closed
  | case3 token rest _ inner ih => exact (opensIn_group _).andThen ih.drop

theorem opensIn_suffixes (tokens : List Token) : (suffixes tokens).OpensIn tokens := by
  fun_induction suffixes tokens with
  | case1 => exact opensIn_closed
  | case2 token rest _ inner ih => exact (opensIn_group _).andThen ih.drop
  | case3 => exact opensIn_closed

theorem opensIn_attributes (tokens : List Token) : (attributes tokens).OpensIn tokens := by
  fun_induction attributes tokens with
  | case1 => exact opensIn_closed
  | case2 token rest _ inner ih => exact (opensIn_group _).andThen ih.drop
  | case3 token rest _ _ inner ih =>
      have first : inner.OpensIn rest := by
        unfold inner
        split
        · exact opensIn_group rest
        · exact opensIn_closed
      exact (first.andThen ih.drop).cons.shift
  | case4 => exact opensIn_closed

end Stretch

namespace Angle

/-- Whether the delimiter that a list of template arguments leaves open, if there is one, is
among some tokens. -/
def Reach.OpensIn (tokens : List Token) (reach : Reach) : Prop :=
  ∀ opener, reach.ending = .unclosedGroup opener → opener ∈ tokens

variable {tokens : List Token} {reach : Reach}

theorem Reach.OpensIn.drop {count length : Nat} (opens : reach.OpensIn (tokens.drop count)) :
    (reach.shift length).OpensIn tokens :=
  fun opener unclosed => List.mem_of_mem_drop (opens opener unclosed)

theorem Reach.OpensIn.cons {token : Token} {length : Nat} (opens : reach.OpensIn tokens) :
    (reach.shift length).OpensIn (token :: tokens) :=
  fun opener unclosed => List.mem_cons_of_mem _ (opens opener unclosed)

theorem opensIn_of_ne {length : Nat} {ending : Ending}
    (other : ∀ opener, ending ≠ .unclosedGroup opener) :
    (⟨length, ending⟩ : Reach).OpensIn tokens :=
  fun opener unclosed => absurd unclosed (other opener)

theorem opensIn_unclosed {opener : Token} {length : Nat}
    (unclosed : (Stretch.group tokens).unclosed = some opener) :
    (⟨length, .unclosedGroup opener⟩ : Reach).OpensIn tokens := by
  rintro _ ⟨⟩
  exact Stretch.opensIn_group tokens opener unclosed

theorem opensIn_arguments (depth : Nat) (tokens : List Token) :
    (arguments depth tokens).OpensIn tokens := by
  fun_induction arguments depth tokens with
  | case1 | case3 | case5 | case6 | case14 | case15 | case16 | case17 =>
      exact opensIn_of_ne (by simp)
  | case8 _ _ _ _ _ _ unclosed | case10 _ _ _ _ _ _ unclosed | case12 _ _ _ _ _ _ unclosed =>
      exact opensIn_unclosed unclosed
  | case2 _ _ _ _ ih => exact ih.cons
  | case4 _ _ _ _ _ ih => exact ih.cons
  | case7 _ _ _ _ _ _ ih => exact ih.cons
  | case9 _ _ _ _ _ _ ih | case11 _ _ _ _ _ _ ih | case13 _ _ _ _ _ _ ih => exact ih.drop
  | case18 _ _ _ _ _ _ _ _ _ _ _ _ _ ih => exact ih.cons

theorem opensIn_parameterDefault (depth : Nat) (tokens : List Token) :
    (parameterDefault depth tokens).OpensIn tokens := by
  fun_induction parameterDefault depth tokens with
  | case1 | case2 | case5 | case7 | case8 | case14 | case15 | case16 | case17 =>
      exact opensIn_of_ne (by simp)
  | case10 _ _ _ _ _ _ unclosed | case12 _ _ _ _ _ _ unclosed => exact opensIn_unclosed unclosed
  | case4 _ _ _ _ ih => exact ih.cons
  | case3 _ _ _ _ _ ih | case6 _ _ _ _ _ ih => exact ih.cons
  | case9 _ _ _ _ _ _ ih => exact ih.cons
  | case11 _ _ _ _ _ _ ih | case13 _ _ _ _ _ _ ih => exact ih.drop
  | case18 _ _ _ _ _ _ _ _ _ _ _ _ _ ih => exact ih.cons

end Angle

/-! ## Rules -/

/-- Whether all that a state holds comes from its tokens: those around the cursor are known, and so
are the spans of the errors met so far and the texts of the nodes. -/
structure ParseState.From (origin : Origin) (state : ParseState) : Prop where
  cursor : state.cursor.From origin
  errors : ∀ error ∈ state.errors, origin.span error.span
  tree : state.tree.From origin

/-- Whether an error that stops a parse comes from the tokens. -/
def Halt.From (origin : Origin) : Halt → Prop
  | .refused error => origin.span error.span
  | .stuck => True

/-- Whether a name is made of tokens that are read. -/
structure NamePath.From (origin : Origin) (path : NamePath) : Prop where
  tokens : origin.ReadsAll path.tokens
  span : origin.span path.span

namespace ParseM

/-- Whether a parse of a state takes all that it reports and keeps, and what it stops with, from
the tokens, and yields a value of which something holds. -/
def TellsAt (origin : Origin) (state : ParseState) {α : Type} (parse : ParseM α)
    (good : α → Prop) : Prop :=
  match parse state with
  | .ok value next => good value ∧ next.From origin
  | .error stop next => stop.From origin ∧ next.From origin

/-- Whether a parse does so wherever it starts. -/
def Tells (origin : Origin) {α : Type} (parse : ParseM α) (good : α → Prop) : Prop :=
  ∀ state : ParseState, state.From origin → TellsAt origin state parse good

/-- Whether a parse takes all from the tokens, whatever it yields. -/
def Truthful (origin : Origin) {α : Type} (parse : ParseM α) : Prop :=
  Tells origin parse fun _ => True

/-- What holds of the value that a loop goes on with, or of its result. -/
def Step.Holds {α β : Type} (keeps : α → Prop) (good : β → Prop) : Step α β → Prop
  | .again value => keeps value
  | .done value => good value

/-- What holds of the value of a parse that is taken up again, where an error that was caught
comes from the tokens. -/
def Caught (origin : Origin) {α : Type} (good : α → Prop) : Except ParseError α → Prop
  | .ok value => good value
  | .error error => origin.span error.span

variable {origin : Origin} {state : ParseState} {α β : Type}

section Telling

variable {good : α → Prop}

theorem TellsAt.bind {first : ParseM β} {rest : β → ParseM α} {middle : β → Prop}
    (tells : TellsAt origin state first middle)
    (following : ∀ value, middle value → Tells origin (rest value) good) :
    TellsAt origin state (first >>= rest) good := by
  unfold TellsAt at tells ⊢
  cases run : first state with
  | ok value next =>
      rw [run] at tells
      rw [bind_of_ok run]
      exact following value tells.1 next tells.2
  | error stop next =>
      rw [run] at tells
      rw [bind_of_error run]
      exact tells

/-- Behind a part whose value is of no account. -/
theorem TellsAt.behind {first : ParseM β} {rest : β → ParseM α} (truthful : Truthful origin first)
    (here : state.From origin) (following : ∀ value, Tells origin (rest value) good) :
    TellsAt origin state (first >>= rest) good :=
  (truthful state here).bind fun value _ => following value

theorem TellsAt.pure {value : α} (known : good value) (here : state.From origin) :
    TellsAt origin state (pure value : ParseM α) good :=
  ⟨known, here⟩

/-- Behind a part that only looks, the state is still the same. -/
theorem TellsAt.sees {first : ParseM β} {rest : β → ParseM α} {value : β}
    (looks : first state = .ok value state) (following : TellsAt origin state (rest value) good) :
    TellsAt origin state (first >>= rest) good := by
  rw [TellsAt, bind_of_ok looks]
  exact following

theorem TellsAt.imp {parse : ParseM α} {weaker : α → Prop}
    (tells : TellsAt origin state parse good) (implies : ∀ value, good value → weaker value) :
    TellsAt origin state parse weaker := by
  unfold TellsAt at tells ⊢
  split at tells
  · exact ⟨implies _ tells.1, tells.2⟩
  · exact tells

theorem Tells.imp {parse : ParseM α} {weaker : α → Prop} (tells : Tells origin parse good)
    (implies : ∀ value, good value → weaker value) : Tells origin parse weaker :=
  fun state known => (tells state known).imp implies

theorem Tells.truthful {parse : ParseM α} (tells : Tells origin parse good) :
    Truthful origin parse :=
  tells.imp fun _ _ => trivial

@[simp] theorem tells_true {parse : ParseM α} :
    Tells origin parse (fun _ => True) ↔ Truthful origin parse :=
  Iff.rfl

theorem Tells.bind {first : ParseM β} {rest : β → ParseM α} {middle : β → Prop}
    (tells : Tells origin first middle)
    (following : ∀ value, middle value → Tells origin (rest value) good) :
    Tells origin (first >>= rest) good :=
  fun state known => (tells state known).bind following

theorem Tells.behind {first : ParseM β} {rest : β → ParseM α} (truthful : Truthful origin first)
    (following : ∀ value, Tells origin (rest value) good) : Tells origin (first >>= rest) good :=
  fun _ here => .behind truthful here following

theorem Tells.pure {value : α} (known : good value) : Tells origin (pure value : ParseM α) good :=
  fun _ here => .pure known here

theorem Tells.refuse {complaint : Complaint} {span : Span} (place : origin.span span) :
    Tells origin (ParseM.refuse complaint span : ParseM α) good :=
  fun _ known => ⟨place, known⟩

theorem Tells.stuck : Tells origin (throw .stuck : ParseM α) good :=
  fun _ known => ⟨trivial, known⟩

theorem TellsAt.ite {condition : Prop} [Decidable condition] {first second : ParseM α}
    (left : TellsAt origin state first good) (right : TellsAt origin state second good) :
    TellsAt origin state (if condition then first else second) good := by
  split
  · exact left
  · exact right

theorem Tells.ite {condition : Prop} [Decidable condition] {first second : ParseM α}
    (left : Tells origin first good) (right : Tells origin second good) :
    Tells origin (if condition then first else second) good :=
  fun state known => .ite (left state known) (right state known)

/-- A parse that yields what it sees. -/
theorem Tells.looks {parse : ParseM α} (see : ParseState → α)
    (sees : ∀ state, parse state = .ok (see state) state)
    (good_see : ∀ state, state.From origin → good (see state)) : Tells origin parse good := by
  intro state known
  unfold TellsAt
  rw [sees]
  exact ⟨good_see state known, known⟩

theorem Tells.attempt {parse : ParseM α} (tells : Tells origin parse good) :
    Tells origin (attempt parse) (Caught origin good) := by
  intro state known
  have told := tells state known
  unfold TellsAt ParseM.attempt at *
  cases run : parse state with
  | ok value next =>
      rw [run] at told
      exact told
  | error stop next =>
      rw [run] at told
      cases stop with
      | refused error => exact told
      | stuck => exact told

theorem Tells.resume {outcome : Except ParseError α} (caught : Caught origin good outcome) :
    Tells origin (resume outcome) good := by
  cases outcome with
  | ok value => exact .pure caught
  | error error => exact fun _ known => ⟨caught, known⟩

theorem Tells.loop {step : β → ParseM (Step β α)} {keeps : β → Prop}
    (round : ∀ value, keeps value → Tells origin (step value) (Step.Holds keeps good))
    (bound : Nat) {start : β} (kept : keeps start) : Tells origin (loop step bound start) good := by
  induction bound generalizing start with
  | zero => exact .stuck
  | succ bound ih =>
      refine (round start kept).bind fun outcome holds => ?_
      cases outcome with
      | done result => exact .pure holds
      | again following => exact ih holds

theorem Tells.iterate {step : β → ParseM (Step β α)} {start : β} (keeps : β → Prop)
    (kept : keeps start)
    (round : ∀ value, keeps value → Tells origin (step value) (Step.Holds keeps good)) :
    Tells origin (iterate step start) good :=
  fun state => Tells.loop round (state.cursor.weight + 1) kept state

end Telling

namespace Truthful

/-- A parse that yields what it sees. -/
theorem looks {parse : ParseM α} (sees : ∀ state, ∃ value, parse state = .ok value state) :
    Truthful origin parse := by
  intro state known
  obtain ⟨value, run⟩ := sees state
  unfold TellsAt
  rw [run]
  exact ⟨trivial, known⟩

theorem changes {change : ParseState → ParseState}
    (kept : ∀ state, state.From origin → (change state).From origin) :
    Truthful origin (modify change : ParseM Unit) :=
  fun state known => ⟨trivial, kept state known⟩

@[simp] theorem pure (value : α) : Truthful origin (Pure.pure value : ParseM α) :=
  Tells.pure trivial

@[simp] theorem stuck : Truthful origin (throw .stuck : ParseM α) :=
  Tells.stuck

@[simp] theorem behind {first : ParseM α} {rest : α → ParseM β}
    (truthful : Truthful origin first) (following : ∀ value, Truthful origin (rest value)) :
    Truthful origin (first >>= rest) :=
  Tells.behind truthful following

@[simp] theorem map {parse : ParseM α} (truthful : Truthful origin parse) (change : α → β) :
    Truthful origin (change <$> parse) := by
  rw [map_eq_pure_bind]
  exact truthful.behind fun value => .pure (change value)

@[simp] theorem ite {condition : Prop} [Decidable condition] {first second : ParseM α}
    (left : Truthful origin first) (right : Truthful origin second) :
    Truthful origin (if condition then first else second) :=
  Tells.ite left right

@[simp] theorem iterate {step : α → ParseM (Step α β)}
    (round : ∀ value, Truthful origin (step value)) (start : α) :
    Truthful origin (iterate step start) := by
  refine Tells.iterate (fun _ => True) trivial fun value _ => (round value).imp ?_
  rintro (_ | _) _
  · trivial
  · trivial

end Truthful

/-! ## Tokens -/

theorem tells_get : Tells origin get (·.From origin) :=
  fun _ known => ⟨known, known⟩

theorem truthful_set (known : state.From origin) : Truthful origin (set state : ParseM Unit) :=
  fun _ _ => ⟨trivial, known⟩

theorem tells_ahead (distance : Nat) : Tells origin (ahead distance) origin.token :=
  .looks (fun state => state.cursor.ahead distance) (fun _ => rfl)
    fun _ known => known.cursor.ahead distance

theorem tells_peek : Tells origin peek origin.token :=
  tells_ahead 0

theorem tells_unread : Tells origin unread origin.ReadsAll :=
  .looks (fun state => state.cursor.unread) (fun _ => rfl) fun _ known => known.cursor.unread

theorem tells_since (start : Nat) : Tells origin (since start) origin.ReadsAll :=
  .looks (fun state => state.cursor.since start) (fun _ => rfl)
    fun _ known => known.cursor.since start

theorem tells_previousSpan : Tells origin previousSpan origin.span :=
  .looks (fun state => state.cursor.previousSpan) (fun _ => rfl)
    fun _ known => known.cursor.previousSpan

@[simp] theorem truthful_ahead (distance : Nat) : Truthful origin (ahead distance) :=
  (tells_ahead distance).truthful

@[simp] theorem truthful_peek : Truthful origin peek :=
  tells_peek.truthful

@[simp] theorem truthful_unread : Truthful origin unread :=
  tells_unread.truthful

@[simp] theorem truthful_since (start : Nat) : Truthful origin (since start) :=
  (tells_since start).truthful

@[simp] theorem truthful_previousSpan : Truthful origin previousSpan :=
  tells_previousSpan.truthful

@[simp] theorem truthful_check (kind : TokenKind) : Truthful origin (check kind) :=
  .looks fun _ => ⟨_, rfl⟩

@[simp] theorem truthful_checkAhead (distance : Nat) (kind : TokenKind) :
    Truthful origin (checkAhead distance kind) :=
  .looks fun _ => ⟨_, rfl⟩

@[simp] theorem truthful_checkWord (word : String) : Truthful origin (checkWord word) :=
  .looks fun _ => ⟨_, rfl⟩

@[simp] theorem truthful_mark : Truthful origin mark :=
  .looks fun _ => ⟨_, rfl⟩

@[simp] theorem truthful_skip (count : Nat) : Truthful origin (skip count) :=
  tells_get.bind fun _ known =>
    .ite (truthful_set ⟨known.cursor.skip count, known.errors, known.tree⟩) .stuck

@[simp] theorem truthful_splitShift : Truthful origin splitShift := by
  refine tells_get.bind fun state known => ?_
  split
  · rename_i closes
    exact truthful_set ⟨known.cursor.splitShift closes, known.errors, known.tree⟩
  · exact .stuck

theorem tells_advance : Tells origin advance origin.token :=
  tells_peek.bind fun _ known => .behind (truthful_skip 1) fun _ => .pure known

@[simp] theorem truthful_advance : Truthful origin advance :=
  tells_advance.truthful

/-- What is read is the token that was ahead. -/
theorem tellsAt_advance (known : state.From origin) :
    TellsAt origin state advance (· = state.cursor.peek) := by
  have moved : Tells origin (do skip 1; return state.cursor.peek) (· = state.cursor.peek) :=
    .behind (truthful_skip 1) fun _ => .pure rfl
  exact .sees rfl (moved state known)

/-- A token that is seen not to be the end of the text is read. -/
theorem reads_advance (known : state.From origin) (more : state.cursor.peek.kind ≠ .eof) :
    TellsAt origin state advance origin.Reads :=
  (tellsAt_advance known).imp fun _ same => same ▸ ⟨known.cursor.ahead 0, more⟩

theorem tellsAt_eat (known : state.From origin) (kind : TokenKind) :
    TellsAt origin state (eat kind) fun eaten => eaten = true → state.cursor.peek.kind = kind := by
  refine .sees rfl ?_
  split
  · rename_i same
    exact (Tells.behind (truthful_skip 1) fun _ => .pure fun _ => by simpa using same) state known
  · exact Tells.pure (by simp) state known

@[simp] theorem truthful_eat (kind : TokenKind) : Truthful origin (eat kind) :=
  fun _ known => (tellsAt_eat known kind).imp fun _ _ => trivial

theorem tells_expect (kind : TokenKind) :
    Tells origin (expect kind) fun token => origin.token token ∧ token.kind = kind := by
  intro state known
  have here : origin.token state.cursor.peek := known.cursor.ahead 0
  refine .sees rfl ?_
  split
  · rename_i same
    exact (tellsAt_advance known).imp fun _ read => read ▸ ⟨here, same⟩
  · exact Tells.ite (.refuse (origin.place here)) (.refuse (origin.place here)) state known

@[simp] theorem truthful_expect (kind : TokenKind) : Truthful origin (expect kind) :=
  (tells_expect kind).truthful

theorem tells_refuseName {good : α → Prop} : Tells origin (refuseName : ParseM α) good :=
  tells_peek.bind fun _ known => .refuse (origin.place known)

theorem tells_expectIdentifier :
    Tells origin expectIdentifier fun token => origin.token token ∧ token.kind = .identifier := by
  intro state known
  refine .sees rfl ?_
  split
  · rename_i same
    exact (tellsAt_advance known).imp fun _ read =>
      read ▸ ⟨known.cursor.ahead 0, by simpa using same⟩
  · exact tells_refuseName state known

@[simp] theorem truthful_expectIdentifier : Truthful origin expectIdentifier :=
  tells_expectIdentifier.truthful

/-! ## Stretches -/

theorem truthful_pass {stretch : Stretch} {tokens : List Token} (opens : stretch.OpensIn tokens)
    (known : origin.ReadsAll tokens) : Truthful origin (pass stretch) := by
  refine .behind (truthful_skip _) fun _ => ?_
  split
  · rename_i opener unclosed
    exact Tells.refuse (origin.place (known opener (opens opener unclosed)).1)
  · simp

@[simp] theorem truthful_skipGroup : Truthful origin skipGroup :=
  tells_unread.bind fun tokens => truthful_pass (Stretch.opensIn_group tokens)

@[simp] theorem truthful_skipGroupIf (opener : Punct) : Truthful origin (skipGroupIf opener) := by
  simp [skipGroupIf]

@[simp] theorem truthful_skipExpression (stops : List TokenKind) :
    Truthful origin (skipExpression stops) :=
  tells_unread.bind fun tokens => truthful_pass (Stretch.opensIn_expression stops tokens)

@[simp] theorem truthful_skipAttributes : Truthful origin skipAttributes :=
  tells_unread.bind fun tokens => truthful_pass (Stretch.opensIn_attributes tokens)

@[simp] theorem truthful_synchronize : Truthful origin synchronize := by
  simp [synchronize]

theorem truthful_passAngle {reach : Angle.Reach} {tokens : List Token} {missing : ParseM Unit}
    (opens : reach.OpensIn tokens) (known : origin.ReadsAll tokens)
    (otherwise : Truthful origin missing) : Truthful origin (passAngle reach missing) := by
  refine .behind (truthful_skip _) fun _ => ?_
  split
  · simp
  · simp
  · exact otherwise
  · rename_i opener unclosed
    exact Tells.refuse (origin.place (known opener (opens opener unclosed)).1)

@[simp] theorem truthful_skipTemplateArguments : Truthful origin skipTemplateArguments :=
  (tells_expect _).bind fun _ opener => tells_unread.bind fun tokens known =>
    truthful_passAngle (Angle.opensIn_arguments 1 tokens) known
      (Tells.refuse (origin.place opener.1))

@[simp] theorem truthful_skipClosedArguments : Truthful origin skipClosedArguments := by
  refine .behind truthful_unread fun tokens => ?_
  simp

@[simp] theorem truthful_jumpClosedArguments : Truthful origin jumpClosedArguments := by
  simp [jumpClosedArguments]

@[simp] theorem truthful_skipParameterDefault : Truthful origin skipParameterDefault :=
  tells_unread.bind fun tokens known =>
    truthful_passAngle (Angle.opensIn_parameterDefault 0 tokens) known
      (tells_peek.bind fun _ there => .refuse (origin.place there))

@[simp] theorem truthful_expectClosingAngle : Truthful origin expectClosingAngle := by
  refine .behind (truthful_check _) fun closes => .ite (.behind truthful_splitShift fun _ => ?_) ?_
  · simp
  · simp

/-! ## Scopes, symbols and nodes -/

theorem truthful_report {error : ParseError} (place : origin.span error.span) :
    Truthful origin (report error) := by
  refine .changes fun state known => ⟨known.cursor, fun other member => ?_, known.tree⟩
  rcases Array.mem_push.1 member with before | rfl
  · exact known.errors other before
  · exact place

theorem truthful_complain {complaint : Complaint} {span : Span} (place : origin.span span) :
    Truthful origin (complain complaint span) :=
  truthful_report place

@[simp] theorem truthful_frame : Truthful origin frame :=
  .looks fun _ => ⟨_, rfl⟩

@[simp] theorem truthful_lookupScope : Truthful origin lookupScope :=
  .looks fun _ => ⟨_, rfl⟩

@[simp] theorem truthful_unit : Truthful origin unit :=
  .looks fun _ => ⟨_, rfl⟩

@[simp] theorem truthful_table : Truthful origin table :=
  .looks fun _ => ⟨_, rfl⟩

@[simp] theorem truthful_className? : Truthful origin className? :=
  .looks fun _ => ⟨_, rfl⟩

@[simp] theorem truthful_setTable (table : SymbolTable) : Truthful origin (setTable table) :=
  .changes fun _ known => ⟨known.cursor, known.errors, known.tree⟩

@[simp] theorem truthful_pushScope (frame : ScopeFrame) : Truthful origin (pushScope frame) :=
  .changes fun _ known => ⟨known.cursor, known.errors, known.tree⟩

@[simp] theorem truthful_popScope : Truthful origin popScope :=
  .changes fun _ known => ⟨known.cursor, known.errors, known.tree⟩

@[simp] theorem truthful_finishNodeAt (node : NodeId) (last : Span) :
    Truthful origin (finishNodeAt node last) :=
  .changes fun _ known => ⟨known.cursor, known.errors, known.tree.finish node last⟩

@[simp] theorem truthful_finishNode (node : NodeId) : Truthful origin (finishNode node) := by
  simp [finishNode]

theorem truthful_checkNesting {span : Span} (place : origin.span span) :
    Truthful origin (checkNesting span) :=
  tells_get.bind fun _ _ => .ite (.refuse place) (.pure trivial)

theorem truthful_changeTable {span : Span} (place : origin.span span)
    (change : SymbolTable → Except SymbolError (α × SymbolTable)) :
    Truthful origin (changeTable span change) := by
  refine .behind truthful_table fun table => ?_
  split
  · simp
  · exact Tells.refuse place

theorem truthful_declare (request : SymbolRequest) (qualifier : Option SymbolId) {span : Span}
    (place : origin.span span) : Truthful origin (declare request qualifier span) := by
  have consumed : Truthful origin (modify fun state : ParseState =>
      { state with scopes := state.scopes.consume } : ParseM Unit) :=
    .changes fun _ known => ⟨known.cursor, known.errors, known.tree⟩
  refine .behind truthful_unit fun unit => .behind truthful_frame fun frame => ?_
  split
  · exact truthful_changeTable place _
  · refine .behind truthful_table fun table => .behind (truthful_setTable _) fun _ => ?_
    split
    · exact .behind consumed fun _ => .pure _
    · exact Tells.refuse place
  · exact Tells.refuse place

theorem truthful_resolveScope (segments : List String) (isGlobal : Bool) {span : Span}
    (place : origin.span span) : Truthful origin (resolveScope segments isGlobal span) := by
  refine .behind truthful_table fun table => .behind truthful_lookupScope fun scope => ?_
  split
  · exact Tells.refuse place
  · split
    · simp
    · exact Tells.refuse place

theorem truthful_addNodeUnder (parent : NodeId) {kind : NodeKind}
    (spelled : ∀ text ∈ kind.spellings, origin.text text) (start : Span) :
    Truthful origin (addNodeUnder parent kind start) := by
  refine tells_get.bind fun state known => .ite (.behind (truthful_set ?_) fun _ => .pure trivial)
    .stuck
  exact ⟨known.cursor, known.errors, known.tree.add spelled parent start⟩

theorem truthful_addNode {kind : NodeKind} (spelled : ∀ text ∈ kind.spellings, origin.text text)
    (start : Span) : Truthful origin (addNode kind start) :=
  .behind truthful_frame fun _ => truthful_addNodeUnder _ spelled start

/-- A node that keeps no texts. -/
theorem truthful_addPlainNode {kind : NodeKind} (plain : kind.spellings = []) (start : Span) :
    Truthful origin (addNode kind start) :=
  truthful_addNode (by simp [plain]) start

/-! ## Names -/

@[simp] theorem truthful_nameContinues : Truthful origin nameContinues := by
  simp [nameContinues]

theorem tells_nameSegment (start : Nat) (isGlobal : Bool) (segments : List String) :
    Tells origin (nameSegment start isGlobal segments)
      (Step.Holds (fun _ => True) (NamePath.From origin)) := by
  refine .behind (truthful_eat _) fun _ => tells_expectIdentifier.bind fun name known =>
    .behind truthful_skipClosedArguments fun _ => .behind truthful_nameContinues fun _ =>
      .ite ?_ ?_
  · exact .behind (truthful_skip 1) fun _ => .pure trivial
  · exact (tells_since start).bind fun tokens read => .pure ⟨read, origin.place known.1⟩

theorem tells_namePath : Tells origin namePath (NamePath.From origin) :=
  .behind truthful_mark fun start => .behind (truthful_eat _) fun isGlobal =>
    .iterate (fun _ => True) trivial fun segments _ => tells_nameSegment start isGlobal segments

@[simp] theorem truthful_namePath : Truthful origin namePath :=
  tells_namePath.truthful

@[simp] theorem truthful_resolve? (path : NamePath) : Truthful origin (resolve? path) :=
  .looks fun _ => ⟨_, rfl⟩

theorem truthful_pathScope {path : NamePath} (known : path.From origin) :
    Truthful origin (pathScope path) := by
  have qualified := truthful_resolveScope path.qualifier path.isGlobal known.span
  simp [pathScope, qualified]

end ParseM

end DeclTree
