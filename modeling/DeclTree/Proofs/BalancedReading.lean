import DeclTree.Proofs.PartialOutcome
import DeclTree.Proofs.PassedDeclarations

/-!
# Parses that match braces

A parse that comes through without an error has read its tokens from brace to brace.  This holds
of whatever is read if it holds of its parts, and of what is taken up again behind an error there
is nothing to say, as that error is reported or passed on.
-/

namespace DeclTree

open Braces (Matching)

namespace Ahead

variable {many : Bool} {tokens rest : List Token}

/-- Whether some tokens are the last ones of others, and reading up to them passes no brace or
goes from brace to brace. -/
def Reaches (many : Bool) (tokens rest : List Token) : Prop :=
  Matching many tokens rest ∧ rest <:+ tokens

theorem Reaches.cons {token : Token} (reaches : Reaches many tokens rest)
    (plain : token.kind.isPlain many = true) : Reaches many (token :: tokens) rest :=
  ⟨.plain plain reaches.1, reaches.2.trans (List.suffix_cons token tokens)⟩

theorem Reaches.trans {first second third : List Token} (left : Reaches many first second)
    (right : Reaches many second third) : Reaches many first third :=
  ⟨left.1.trans right.1, right.2.trans left.2⟩

theorem reaches_afterArguments? (found : afterArguments? tokens = some rest) :
    Reaches many tokens rest := by
  unfold afterArguments? at found
  split at found
  · obtain ⟨count, closed, rfl⟩ := Option.map_eq_some_iff.1 found
    exact ⟨Braces.matching_drop (Angle.isPlain_close? closed), List.drop_suffix _ _⟩
  · cases found
    exact ⟨.done _, List.suffix_refl _⟩

theorem reaches_afterMemberPointer? (found : afterMemberPointer? tokens = some rest) :
    Reaches many tokens rest := by
  fun_induction afterMemberPointer? tokens with
  | case1 | case2 | case3 | case4 | case5 => cases found
  | case6 token tokens named next following behind mark starred =>
      cases found
      have first : Reaches many (token :: tokens) (next :: following) :=
        (reaches_afterArguments? behind).cons (by simp_all)
      have second : Reaches many (next :: following) following :=
        Reaches.cons ⟨.done _, List.suffix_refl _⟩ (by simp_all)
      refine (first.trans second).trans ⟨Braces.matching_drop ?_, List.drop_suffix _ _⟩
      exact fun other member => Stretch.isPlain_of_startsWith starred rfl member
  | case7 token tokens named next following behind mark starred ih =>
      have first : Reaches many (token :: tokens) (next :: following) :=
        (reaches_afterArguments? behind).cons (by simp_all)
      have second : Reaches many (next :: following) following :=
        Reaches.cons ⟨.done _, List.suffix_refl _⟩ (by simp_all)
      exact (first.trans second).trans (ih found)

theorem reaches_afterGlobal (tokens : List Token) : Reaches many tokens (afterGlobal tokens) := by
  unfold afterGlobal
  split
  · exact ⟨.done _, List.suffix_refl _⟩
  · split
    · rename_i mark
      exact Reaches.cons ⟨.done _, List.suffix_refl _⟩ (by simp [mark])
    · exact ⟨.done _, List.suffix_refl _⟩

/-- A pointer to a member is read from brace to brace. -/
theorem matching_memberPointer? {length : Nat} (found : memberPointer? tokens = some length) :
    Matching many tokens (tokens.drop length) := by
  obtain ⟨rest, pointer, rfl⟩ := Option.map_eq_some_iff.1 found
  have reaches : Reaches many tokens rest :=
    (reaches_afterGlobal tokens).trans (reaches_afterMemberPointer? pointer)
  rw [← List.suffix_iff_eq_drop.1 reaches.2]
  exact reaches.1

end Ahead

/-- The tokens ahead start with one of a kind if one of this kind is seen there. -/
theorem Cursor.Sound.startsWith_iff {cursor : Cursor} (sound : cursor.Sound) {kind : TokenKind}
    (other : kind ≠ .eof) (distance : Nat) :
    Stretch.startsWith kind (cursor.unread.drop distance) ↔
      (cursor.ahead distance).kind = kind := by
  rw [Stretch.startsWith, List.head?_drop, Cursor.ahead, List.getD_eq_getElem?_getD]
  cases cursor.unread[distance]? with
  | none => simp [sound.final, other.symm]
  | some token => simp

/-- A cursor moves from brace to brace over tokens ahead that are read by themselves. -/
theorem Cursor.matching_ahead {many : Bool} (cursor : Cursor) {count : Nat}
    (plain : ∀ distance < count, (cursor.ahead distance).kind.isPlain many = true) :
    Matching many cursor.unread (cursor.unread.drop count) := by
  refine Braces.matching_drop fun token member => ?_
  obtain ⟨distance, within, rfl⟩ := List.mem_iff_getElem.1 member
  rw [List.length_take] at within
  have inside : distance < cursor.unread.length := by omega
  have there : cursor.ahead distance = cursor.unread[distance] := by
    simp [Cursor.ahead, inside]
  rw [List.getElem_take, ← there]
  exact plain distance (by omega)

theorem Cursor.matching_next {many : Bool} (cursor : Cursor)
    (plain : cursor.peek.kind.isPlain many = true) :
    Matching many cursor.unread (cursor.unread.drop 1) := by
  refine cursor.matching_ahead fun distance inside => ?_
  obtain rfl : distance = 0 := by omega
  exact plain

/-- Whether a state without errors comes behind another one without errors, by reading from brace
to brace within one declaration or through many, where the last may swallow the rest. -/
def ParseState.KeepsBraces (many : Bool) (state next : ParseState) : Prop :=
  next.errors = #[] → state.errors = #[] ∧ (state.cursor.Sound →
    next.cursor.Sound ∧ Braces.Reads many state.cursor.unread next.cursor.unread)

namespace ParseState.KeepsBraces

variable {many : Bool} {origin state next : ParseState}

theorem refl (state : ParseState) : state.KeepsBraces many state :=
  fun quiet => ⟨quiet, fun sound => ⟨sound, .done _⟩⟩

theorem trans (before : origin.KeepsBraces many state) (after : state.KeepsBraces many next) :
    origin.KeepsBraces many next := by
  intro quiet
  obtain ⟨still, further⟩ := after quiet
  obtain ⟨first, read⟩ := before still
  refine ⟨first, fun sound => ?_⟩
  obtain ⟨middle, matching⟩ := read sound
  exact ⟨(further middle).1, matching.trans (further middle).2⟩

/-- What is read of one declaration may be read of many. -/
theorem widen (keeps : state.KeepsBraces many next) : state.KeepsBraces true next := by
  intro quiet
  obtain ⟨first, read⟩ := keeps quiet
  exact ⟨first, fun sound => ⟨(read sound).1, (read sound).2.widen⟩⟩

/-- A state with an error comes behind any state. -/
theorem of_ne (reported : next.errors ≠ #[]) : state.KeepsBraces many next :=
  fun quiet => absurd quiet reported

theorem of_eq (cursor : next.cursor = state.cursor) (errors : next.errors = state.errors) :
    state.KeepsBraces many next := by
  intro quiet
  rw [errors] at quiet
  rw [cursor]
  exact ⟨quiet, fun sound => ⟨sound, .done _⟩⟩

theorem skip {count : Nat} (read : state.cursor.Sound →
      Matching many state.cursor.unread (state.cursor.unread.drop count)) :
    state.KeepsBraces many { state with cursor := state.cursor.skip count } :=
  fun quiet => ⟨quiet, fun sound => ⟨sound.skip count, .inl (read sound)⟩⟩

theorem next_of_plain (plain : state.cursor.peek.kind.isPlain many = true) :
    state.KeepsBraces many state.next :=
  skip fun _ => state.cursor.matching_next plain

/-- What is read between two braces is read together with them. -/
theorem enclosed {inside : ParseState} (opens : state.cursor.peek.kind = .punct .leftBrace)
    (body : state.next.KeepsBraces true inside)
    (closes : inside.cursor.peek.kind = .punct .rightBrace) :
    state.KeepsBraces many inside.next := by
  intro quiet
  obtain ⟨first, read⟩ := body quiet
  refine ⟨first, fun sound => ?_⟩
  obtain ⟨middle, matching⟩ := read (sound.skip 1)
  refine ⟨middle.skip 1, ?_⟩
  obtain ⟨opener, rest, unread, kind⟩ := sound.exists_next (by simp) opens
  obtain ⟨closer, behind, remaining, last⟩ := middle.exists_next (by simp) closes
  have before : state.next.cursor.unread = rest := by simp [ParseState.next, unread]
  have after : inside.next.cursor.unread = behind := by simp [ParseState.next, remaining]
  rw [before, remaining] at matching
  rw [unread, after]
  exact .inl (.braces kind matching.matching last (.done behind))

theorem splitShift (closes : state.cursor.peek.kind = .punct .greaterGreater) :
    state.KeepsBraces many { state with cursor := state.cursor.splitShift } := by
  refine fun quiet => ⟨quiet, fun sound => ⟨sound.splitShift, ?_⟩⟩
  unfold Cursor.splitShift
  cases unread : state.cursor.unread with
  | nil =>
      simp only [unread]
      exact .done []
  | cons token rest =>
      have peek : state.cursor.peek = token := by simp [Cursor.peek, Cursor.ahead, unread]
      rw [peek] at closes
      exact .inl (.split closes (.done _))

end ParseState.KeepsBraces

/-- Whether a declaration that starts at a state without errors is passed over from another one
on. -/
def ParseState.GivesUp (before state : ParseState) : Prop :=
  state.errors = #[] → before.errors = #[] ∧ (before.cursor.Sound →
    state.cursor.Sound ∧ Braces.GivesUp before.cursor.unread state.cursor.unread)

theorem ParseState.givesUp {state : ParseState} (count : Nat) (more : state.cursor.peek.kind ≠ .eof)
    (given : state.cursor.Sound → Braces.GivesUp (state.cursor.peek :: state.cursor.unread.drop 1)
      ((state.cursor.peek :: state.cursor.unread.drop 1).drop count)) :
    state.GivesUp { state with cursor := state.cursor.skip count } := by
  refine fun quiet => ⟨quiet, fun sound => ⟨sound.skip count, ?_⟩⟩
  obtain ⟨word, rest, unread, _⟩ := sound.exists_next more rfl
  have peek : state.cursor.peek = word := by simp [Cursor.peek, Cursor.ahead, unread]
  have given := given sound
  rw [peek, unread, List.drop_one, List.tail_cons] at given
  rwa [Cursor.unread_skip, unread]

namespace ParseM

variable {α β : Type} {many : Bool} {origin state : ParseState}

/-- Whether a parse that starts behind a state, if it comes to an end, has read from brace to
brace since then or met an error. -/
abbrev Onward (many : Bool) (origin : ParseState) (parse : ParseM α) (state : ParseState) : Prop :=
  Leads parse state (fun _ next => origin.KeepsBraces many next) fun _ => True

/-- Whether a parse reads from brace to brace wherever it starts. -/
def KeepsBraces (many : Bool) (parse : ParseM α) : Prop :=
  ∀ state, Onward many state parse state

theorem KeepsBraces.onward {parse : ParseM α} (keeps : KeepsBraces many parse)
    (kept : origin.KeepsBraces many state) : Onward many origin parse state :=
  (keeps state).imp fun _ _ => kept.trans

theorem Onward.bind {first : ParseM α} {rest : α → ParseM β}
    (onward : Onward many origin first state)
    (following : ∀ value, KeepsBraces many (rest value)) :
    Onward many origin (first >>= rest) state :=
  Leads.bind onward fun value _ kept => (following value).onward kept

/-- Behind a part that only looks. -/
theorem Onward.look {parse : ParseM α} {rest : α → ParseM β} {fact : α → Prop}
    (looks : Leads parse state (fun value next => next = state ∧ fact value) fun _ => True)
    (following : ∀ value, fact value → Onward many origin (rest value) state) :
    Onward many origin (parse >>= rest) state := by
  refine looks.bind ?_
  rintro value _ ⟨rfl, known⟩
  exact following value known

theorem Onward.nextToken {rest : Unit → ParseM α} (kept : origin.KeepsBraces many state)
    (plain : state.cursor.peek.kind.isPlain many = true)
    (following : ∀ value, KeepsBraces many (rest value)) :
    Onward many origin (skip 1 >>= rest) state :=
  (leads_of_ok (skip_one state)).2
    ((following ()).onward (kept.trans (.next_of_plain plain)))

theorem Onward.advance {rest : Token → ParseM α} (kept : origin.KeepsBraces many state)
    (plain : state.cursor.peek.kind.isPlain many = true)
    (following : ∀ value, KeepsBraces many (rest value)) :
    Onward many origin (advance >>= rest) state :=
  leads_advance.2 ((following _).onward (kept.trans (.next_of_plain plain)))

/-- A parse that is taken up again, which passes on the error that was caught. -/
theorem Onward.attempt {parse : ParseM α} {rest : Except ParseError α → ParseM β}
    (onward : Onward many origin parse state)
    (following : ∀ value, KeepsBraces many (rest (.ok value)))
    (refused : ∀ error next, Onward many origin (rest (.error error)) next) :
    Onward many origin (attempt parse >>= rest) state := by
  refine (Leads.attempt onward).bind fun outcome next caught => ?_
  cases outcome with
  | ok value => exact (following value).onward (caught.1 value rfl)
  | error error => exact refused error next

/-- An error that was caught is passed on. -/
theorem onward_resume_error (error : ParseError) :
    Onward many origin (resume (.error error) : ParseM α) state :=
  trivial

/-- An error that is reported is not forgotten. -/
theorem onward_report {error : ParseError} {rest : Unit → ParseM α}
    (following : ∀ value, KeepsBraces many (rest value)) :
    Onward many origin (report error >>= rest) state :=
  (following ()).onward (.of_ne (by simp))

namespace KeepsBraces

theorem looks {parse : ParseM α} (sees : ∀ state, ∃ value, parse state = .ok value state) :
    KeepsBraces many parse := by
  intro state
  obtain ⟨value, run⟩ := sees state
  unfold Onward Leads Meets
  rw [run]
  exact .refl state

/-- A parse that changes neither the tokens nor the errors. -/
theorem changes {change : ParseState → ParseState}
    (cursor : ∀ state, (change state).cursor = state.cursor)
    (errors : ∀ state, (change state).errors = state.errors) :
    KeepsBraces many (modify change : ParseM Unit) :=
  fun state => ParseState.KeepsBraces.of_eq (cursor state) (errors state)

@[simp] theorem pure (value : α) : KeepsBraces many (Pure.pure value : ParseM α) :=
  fun state => .refl state

@[simp] theorem stuck : KeepsBraces many (throw .stuck : ParseM α) :=
  fun _ => trivial

@[simp] theorem refuse (complaint : Complaint) (span : Span) :
    KeepsBraces many (refuse complaint span : ParseM α) :=
  fun _ => trivial

@[simp] theorem bind {first : ParseM α} {rest : α → ParseM β} (keeps : KeepsBraces many first)
    (following : ∀ value, KeepsBraces many (rest value)) : KeepsBraces many (first >>= rest) :=
  fun state => (keeps state).bind following

@[simp] theorem map {parse : ParseM α} (keeps : KeepsBraces many parse) (change : α → β) :
    KeepsBraces many (change <$> parse) := by
  rw [map_eq_pure_bind]
  exact keeps.bind fun value => .pure (change value)

@[simp] theorem ite {condition : Prop} [Decidable condition] {first second : ParseM α}
    (left : KeepsBraces many first) (right : KeepsBraces many second) :
    KeepsBraces many (if condition then first else second) := by
  split
  · exact left
  · exact right

@[simp] theorem iterate {step : α → ParseM (Step α β)}
    (round : ∀ value, KeepsBraces many (step value))
    (start : α) : KeepsBraces many (iterate step start) := by
  intro state
  refine leads_iterate (fun _ next => state.KeepsBraces many next) (.refl state)
    fun value next kept => ?_
  refine ((round value).onward kept).imp ?_
  rintro (_ | _) after still
  · exact still
  · exact still

end KeepsBraces

/-! ## Tokens -/

@[simp] theorem keepsBraces_ahead (distance : Nat) : KeepsBraces many (ahead distance) :=
  .looks fun _ => ⟨_, rfl⟩

@[simp] theorem keepsBraces_peek : KeepsBraces many peek :=
  .looks fun _ => ⟨_, rfl⟩

@[simp] theorem keepsBraces_check (kind : TokenKind) : KeepsBraces many (check kind) :=
  .looks fun _ => ⟨_, rfl⟩

@[simp] theorem keepsBraces_checkAhead (distance : Nat) (kind : TokenKind) :
    KeepsBraces many (checkAhead distance kind) :=
  .looks fun _ => ⟨_, rfl⟩

@[simp] theorem keepsBraces_checkWord (word : String) : KeepsBraces many (checkWord word) :=
  .looks fun _ => ⟨_, rfl⟩

@[simp] theorem keepsBraces_mark : KeepsBraces many mark :=
  .looks fun _ => ⟨_, rfl⟩

@[simp] theorem keepsBraces_since (start : Nat) : KeepsBraces many (since start) :=
  .looks fun _ => ⟨_, rfl⟩

@[simp] theorem keepsBraces_previousSpan : KeepsBraces many previousSpan :=
  .looks fun _ => ⟨_, rfl⟩

theorem onward_skipTo {count : Nat}
    (kept : origin.KeepsBraces many { state with cursor := state.cursor.skip count }) :
    Onward many origin (skip count) state := by
  unfold Onward Leads Meets
  by_cases within : count ≤ state.cursor.unread.length ∨ count = 1
  · rw [skip_within within]
    exact kept
  · rw [skip_beyond within]
    trivial

theorem onward_skip {count : Nat} (kept : origin.KeepsBraces many state)
    (read : state.cursor.Sound →
      Matching many state.cursor.unread (state.cursor.unread.drop count)) :
    Onward many origin (skip count) state :=
  onward_skipTo (kept.trans (.skip read))

@[simp] theorem keepsBraces_eat {kind : TokenKind} (plain : kind.isPlain many = true) :
    KeepsBraces many (eat kind) := by
  intro state
  unfold Onward Leads Meets
  by_cases found : state.cursor.peek.kind = kind
  · rw [eat_of_eq found]
    exact .next_of_plain (found ▸ plain)
  · rw [eat_of_ne found]
    exact .refl state

theorem onward_advance (kept : origin.KeepsBraces many state)
    (plain : state.cursor.peek.kind.isPlain many = true) : Onward many origin advance state := by
  unfold Onward Leads Meets
  rw [advance_eq]
  exact kept.trans (.next_of_plain plain)

@[simp] theorem keepsBraces_expect {kind : TokenKind} (plain : kind.isPlain many = true) :
    KeepsBraces many (expect kind) := by
  refine fun state => leads_peek.2 ?_
  split
  · rename_i found
    exact onward_advance (.refl state) (found ▸ plain)
  · split
    · trivial
    · trivial

@[simp] theorem keepsBraces_refuseName : KeepsBraces many (refuseName : ParseM α) :=
  .bind keepsBraces_peek fun _ => .refuse _ _

@[simp] theorem keepsBraces_expectIdentifier : KeepsBraces many expectIdentifier := by
  refine fun state => leads_ifCheck (fun found => ?_) fun _ => keepsBraces_refuseName state
  exact onward_advance (.refl state) (by simp [found])

theorem onward_expect_other {kind : TokenKind} {rest : Token → ParseM α}
    (other : state.cursor.peek.kind ≠ kind) : Onward many origin (expect kind >>= rest) state :=
  leads_expect (fun found => absurd found other) fun _ => trivial

/-- A closing brace is read behind what follows the opening one. -/
theorem onward_expectCloser {before : ParseState} (kept : origin.KeepsBraces many before)
    (opens : before.cursor.peek.kind = .punct .leftBrace)
    (body : before.next.KeepsBraces true state) {rest : Token → ParseM α}
    (following : ∀ value, KeepsBraces many (rest value)) :
    Onward many origin (expect (.punct .rightBrace) >>= rest) state :=
  leads_expect (fun closes => (following _).onward (kept.trans (.enclosed opens body closes)))
    fun _ => trivial

/-- A closing brace that has to be there, unless there was an error, is read behind what follows
the opening one. -/
theorem onward_eatCloser {before : ParseState} (kept : origin.KeepsBraces many before)
    (opens : before.cursor.peek.kind = .punct .leftBrace)
    (body : before.next.KeepsBraces true state)
    (closes : state.errors = #[] → state.cursor.peek.kind = .punct .rightBrace)
    {rest : Bool → ParseM α} (following : ∀ value, KeepsBraces many (rest value)) :
    Onward many origin (eat (.punct .rightBrace) >>= rest) state :=
  leads_eat (fun found => (following true).onward (kept.trans (.enclosed opens body found)))
    fun missing => (following false).onward (.of_ne fun quiet => missing (closes quiet))

/-! ## Stretches -/

/-- A stretch is passed over if it is read from brace to brace where no group is left open. -/
theorem onward_pass {stretch : Stretch} (kept : origin.KeepsBraces many state)
    (read : state.cursor.Sound → stretch.unclosed = none →
      Matching many state.cursor.unread (state.cursor.unread.drop stretch.length)) :
    Onward many origin (pass stretch) state := by
  cases whole : stretch.unclosed with
  | none =>
      refine (onward_skip kept fun sound => read sound whole).bind fun _ => ?_
      simp [whole]
  | some opener =>
      refine leads_behind fun _ _ => ?_
      simp only [whole]
      trivial

theorem onward_skipGroup (kept : origin.KeepsBraces many state)
    (opens : state.cursor.peek.kind.opensGroup) : Onward many origin skipGroup state := by
  refine leads_unread.2 (onward_pass kept fun sound whole => ?_)
  have more : state.cursor.peek.kind ≠ .eof := by
    intro ends
    simp [ends, TokenKind.opensGroup, TokenKind.closer?] at opens
  obtain ⟨opener, rest, unread, kind⟩ := sound.exists_next more rfl
  rw [unread] at whole ⊢
  exact Stretch.matching_opener (kind ▸ opens) whole

@[simp] theorem keepsBraces_skipGroupIf {opener : Punct}
    (opens : (TokenKind.punct opener).opensGroup) : KeepsBraces many (skipGroupIf opener) :=
  fun state => leads_ifCheck (fun found => onward_skipGroup (.refl state) (found ▸ opens))
    fun _ => KeepsBraces.pure () state

@[simp] theorem keepsBraces_skipExpression (stops : List TokenKind) :
    KeepsBraces many (skipExpression stops) :=
  fun state => leads_unread.2 (onward_pass (.refl state)
    fun _ => Stretch.matching_expression stops _)

@[simp] theorem keepsBraces_skipAttributes : KeepsBraces many skipAttributes :=
  fun state => leads_unread.2 (onward_pass (.refl state) fun _ => Stretch.matching_attributes _)

/-- A declaration that is passed over is read from brace to brace or swallows the rest. -/
theorem onward_synchronize {before : ParseState} (kept : origin.KeepsBraces true before)
    (givesUp : before.GivesUp state) : Onward true origin synchronize state := by
  refine leads_unread.2 (onward_skipTo (kept.trans fun quiet => ?_))
  obtain ⟨first, given⟩ := givesUp quiet
  exact ⟨first, fun sound => ⟨(given sound).1.skip _, (given sound).2.reads⟩⟩

/-- The rest of a declaration is given up behind an error. -/
theorem onward_synchronize_of_ne (reported : state.errors ≠ #[]) :
    Onward many origin synchronize state :=
  leads_unread.2 (onward_skipTo (.of_ne reported))

@[simp] theorem keepsBraces_splitShift : KeepsBraces many splitShift := by
  intro state
  change Leads (if state.cursor.peek.kind = .punct .greaterGreater then _ else _ : ParseM Unit)
    state _ _
  split
  · rename_i closes
    exact ParseState.KeepsBraces.splitShift closes
  · trivial

/-- Behind a token that is split its second half is read. -/
theorem keepsBraces_splitNext : KeepsBraces many (do splitShift; skip 1) := by
  intro state
  have split : Leads splitShift state (fun _ next => state.KeepsBraces many next ∧
      next.cursor.peek.kind.isPlain many = true) fun _ => True := by
    change Leads (if state.cursor.peek.kind = .punct .greaterGreater then _ else _ : ParseM Unit)
      state _ _
    by_cases closes : state.cursor.peek.kind = .punct .greaterGreater
    · rw [if_pos closes]
      refine ⟨.splitShift closes, ?_⟩
      simp only [Cursor.splitShift]
      split
      · simp [closes]
      · rfl
    · rw [if_neg closes]
      trivial
  exact split.bind fun _ next halved =>
    onward_skip halved.1 fun _ => next.cursor.matching_next halved.2

theorem onward_passAngle {reach : Angle.Reach} {missing : ParseM Unit}
    (kept : origin.KeepsBraces many state)
    (read : reach.ending.isWhole = true →
      Matching many state.cursor.unread (state.cursor.unread.drop reach.length))
    (otherwise : KeepsBraces many missing) :
    Onward many origin (passAngle reach missing) state := by
  cases whole : reach.ending.isWhole with
  | true =>
      refine (onward_skip kept fun _ => read whole).bind fun _ => ?_
      split
      · exact .pure ()
      · exact keepsBraces_splitNext
      · exact otherwise
      · exact .refuse _ _
  | false =>
      refine leads_behind fun _ _ => ?_
      split <;> first | trivial | (rename_i ending; simp [ending, Angle.Ending.isWhole] at whole)

@[simp] theorem keepsBraces_skipTemplateArguments : KeepsBraces many skipTemplateArguments := by
  refine .bind (keepsBraces_expect rfl) fun opener state => leads_unread.2 ?_
  exact onward_passAngle (.refl state) (Angle.matching_arguments 1 _) (.refuse _ _)

@[simp] theorem keepsBraces_skipClosedArguments : KeepsBraces many skipClosedArguments := by
  refine fun state => leads_unread.2 (KeepsBraces.onward ?_ (.refl state))
  simp

@[simp] theorem keepsBraces_jumpClosedArguments : KeepsBraces many jumpClosedArguments :=
  fun state => leads_unread.2 (onward_skip (.refl state) fun _ => Angle.matching_close? _)

@[simp] theorem keepsBraces_skipParameterDefault : KeepsBraces many skipParameterDefault := by
  refine fun state => leads_unread.2 ?_
  refine onward_passAngle (.refl state) (Angle.matching_parameterDefault 0 _) ?_
  exact .bind keepsBraces_peek fun _ => .refuse _ _

@[simp] theorem keepsBraces_expectClosingAngle : KeepsBraces many expectClosingAngle := by
  have expected : KeepsBraces many (do let _ ← expect (.punct .greater) : ParseM Unit) :=
    .bind (keepsBraces_expect rfl) fun _ => .pure ()
  exact .bind (keepsBraces_check _) fun _ =>
    .ite (.bind keepsBraces_splitShift fun _ => expected) expected

/-! ## Errors, scopes, symbols and nodes -/

@[simp] theorem keepsBraces_report (error : ParseError) : KeepsBraces many (report error) :=
  fun _ => ParseState.KeepsBraces.of_ne (by simp)

@[simp] theorem keepsBraces_complain (complaint : Complaint) (span : Span) :
    KeepsBraces many (complain complaint span) :=
  keepsBraces_report _

@[simp] theorem keepsBraces_frame : KeepsBraces many frame :=
  .looks fun _ => ⟨_, rfl⟩

@[simp] theorem keepsBraces_lookupScope : KeepsBraces many lookupScope :=
  .looks fun _ => ⟨_, rfl⟩

@[simp] theorem keepsBraces_unit : KeepsBraces many unit :=
  .looks fun _ => ⟨_, rfl⟩

@[simp] theorem keepsBraces_table : KeepsBraces many table :=
  .looks fun _ => ⟨_, rfl⟩

@[simp] theorem keepsBraces_className? : KeepsBraces many className? :=
  .looks fun _ => ⟨_, rfl⟩

@[simp] theorem keepsBraces_setTable (table : SymbolTable) : KeepsBraces many (setTable table) :=
  .changes (fun _ => rfl) fun _ => rfl

@[simp] theorem keepsBraces_pushScope (frame : ScopeFrame) : KeepsBraces many (pushScope frame) :=
  .changes (fun _ => rfl) fun _ => rfl

@[simp] theorem keepsBraces_popScope : KeepsBraces many popScope :=
  .changes (fun _ => rfl) fun _ => rfl

@[simp] theorem keepsBraces_finishNodeAt (node : NodeId) (last : Span) :
    KeepsBraces many (finishNodeAt node last) :=
  .changes (fun _ => rfl) fun _ => rfl

@[simp] theorem keepsBraces_finishNode (node : NodeId) : KeepsBraces many (finishNode node) := by
  simp [finishNode]

@[simp] theorem keepsBraces_checkNesting (span : Span) : KeepsBraces many (checkNesting span) :=
  fun state => leads_get.2 (KeepsBraces.onward (by simp) (.refl state))

@[simp] theorem keepsBraces_changeTable (span : Span)
    (change : SymbolTable → Except SymbolError (α × SymbolTable)) :
    KeepsBraces many (changeTable span change) := by
  refine .bind keepsBraces_table fun table => ?_
  split <;> simp

@[simp] theorem keepsBraces_declare (request : SymbolRequest) (qualifier : Option SymbolId)
    (span : Span) : KeepsBraces many (declare request qualifier span) := by
  have consumed : KeepsBraces many (modify fun state : ParseState =>
      { state with scopes := state.scopes.consume } : ParseM Unit) :=
    .changes (fun _ => rfl) fun _ => rfl
  refine .bind keepsBraces_unit fun unit => .bind keepsBraces_frame fun frame => ?_
  split
  · simp
  · refine .bind keepsBraces_table fun table => .bind (keepsBraces_setTable _) fun _ => ?_
    split
    · exact .bind consumed fun _ => .pure _
    · exact .refuse _ _
  · exact .refuse _ _

@[simp] theorem keepsBraces_resolveScope (segments : List String) (isGlobal : Bool)
    (span : Span) : KeepsBraces many (resolveScope segments isGlobal span) := by
  refine .bind keepsBraces_table fun table => .bind keepsBraces_lookupScope fun scope => ?_
  split
  · simp
  · split <;> simp

@[simp] theorem keepsBraces_addNodeUnder (parent : NodeId) (kind : NodeKind) (start : Span) :
    KeepsBraces many (addNodeUnder parent kind start) := by
  refine fun state => leads_get.2 ?_
  split
  · exact .of_eq rfl rfl
  · trivial

@[simp] theorem keepsBraces_addNode (kind : NodeKind) (start : Span) :
    KeepsBraces many (addNode kind start) := by
  simp [addNode]

/-! ## Names -/

/-- A token that was looked for is read if it is no brace. -/
theorem TellsOf.keepsBraces {kind : TokenKind} {parse : ParseM Bool} {first : Unit → ParseM α}
    {second : ParseM α} (tells : TellsOf kind parse) (plain : kind.isPlain many = true)
    (found : ∀ value, KeepsBraces many (first value)) (missing : KeepsBraces many second) :
    KeepsBraces many (do if ← parse then skip 1 >>= first else second) := fun state =>
  tells.choose (fun there => Onward.nextToken (.refl state) (there ▸ plain) found) (missing state)

@[simp] theorem keepsBraces_nameSegment (start : Nat) (isGlobal : Bool)
    (segments : List String) : KeepsBraces many (nameSegment start isGlobal segments) :=
  .bind (keepsBraces_eat rfl) fun _ => .bind keepsBraces_expectIdentifier fun _ =>
    .bind keepsBraces_skipClosedArguments fun _ =>
      tellsOf_nameContinues.keepsBraces rfl (fun _ => .pure _) (by simp)

@[simp] theorem keepsBraces_namePath : KeepsBraces many namePath :=
  .bind keepsBraces_mark fun _ => .bind (keepsBraces_eat rfl) fun _ =>
    .iterate (keepsBraces_nameSegment _ _) []

@[simp] theorem keepsBraces_resolve? (path : NamePath) : KeepsBraces many (resolve? path) :=
  .looks fun _ => ⟨_, rfl⟩

@[simp] theorem keepsBraces_pathScope (path : NamePath) : KeepsBraces many (pathScope path) := by
  simp [pathScope]

end ParseM

end DeclTree
