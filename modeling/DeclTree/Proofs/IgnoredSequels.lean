import DeclTree.Proofs.PartialOutcome
import DeclTree.Proofs.Sequels

/-!
# Parses that ignore a sequel

A parse is compared with one that stands in front of a sequel.  As long as it has not come to the
end of its text it sees the same tokens and does the same.  What it does at the end depends on
where it gets there: some parts never do, some are refused soon after, and some are complete.
-/

namespace DeclTree

namespace ParseM

/-- What is known of a parse that comes to the end of its text: that this does not happen,
nothing, or that it yields the same in front of a sequel. -/
inductive AtEnd
  | never
  | anything
  | same

/-- Whether a parse that has come to the end of its text may agree, or not, with what it does in
front of a sequel. -/
def AtEnd.Allows : AtEnd → Prop → Prop
  | .never, _ => False
  | .anything, _ => True
  | .same, agrees => agrees

theorem AtEnd.Allows.imp {atEnd : AtEnd} {agrees further : Prop} (allows : atEnd.Allows agrees)
    (implies : agrees → further) : atEnd.Allows further := by
  cases atEnd with
  | never => exact allows
  | anything => trivial
  | same => exact implies allows

variable {α β : Type} {sequel : Sequel} {old : Nat} {state next : ParseState}

/-- Whether a parse does in front of a sequel what it has done without one. -/
def AgreesBefore (sequel : Sequel) (longer : ParseM α) (state : ParseState) (value : α)
    (next : ParseState) : Prop :=
  longer (state.followedBy sequel) = .ok value (next.followedBy sequel)

/-- What becomes of a parse in front of a sequel: it is excused, or agrees with what it does without
the sequel, at the end of the text as far as is known. -/
def Tallies (sequel : Sequel) (atEnd : AtEnd) (longer : ParseM α) (state : ParseState) (value : α)
    (next : ParseState) : Prop :=
  next.Spoiled sequel ∨
    ((next.cursor.unread ≠ [] → AgreesBefore sequel longer state value next) ∧
      (next.cursor.unread = [] → atEnd.Allows (AgreesBefore sequel longer state value next)))

/-- Whether a parse, compared with one in front of a sequel, ignores the sequel from a state on. -/
def IgnoresFrom (sequel : Sequel) (old : Nat) (atEnd : α → AtEnd) (parse longer : ParseM α)
    (state : ParseState) : Prop :=
  old ≤ state.tree.size → Leads parse state
    (fun value next => state.GoesOn old next ∧
      (state.cursor.Approaches sequel → state.cursor.unread ≠ [] →
        Tallies sequel (atEnd value) longer state value next))
    (state.GoesOn old)

/-- Whether a parse ignores a sequel wherever it starts in front of the end of its text. -/
def Ignores (sequel : Sequel) (old : Nat) (atEnd : α → AtEnd) (parse longer : ParseM α) : Prop :=
  ∀ state, IgnoresFrom sequel old atEnd parse longer state

/-- Whether a parse that reads nothing ignores a sequel from a state on, also at the end of the
text. -/
def DisregardsFrom (sequel : Sequel) (old : Nat) (parse longer : ParseM α) (state : ParseState) :
    Prop :=
  old ≤ state.tree.size → Leads parse state
    (fun value next => state.GoesOn old next ∧ (state.cursor.Approaches sequel →
      next.Spoiled sequel ∨ (next.cursor = state.cursor ∧
        AgreesBefore sequel longer state value next)))
    (state.GoesOn old)

/-- Whether a parse that reads nothing ignores a sequel. -/
def Disregards (sequel : Sequel) (old : Nat) (parse longer : ParseM α) : Prop :=
  ∀ state, DisregardsFrom sequel old parse longer state

/-! ## Going on behind a part -/

theorem AgreesBefore.bind {first : ParseM α} {rest : α → ParseM β} {value : α} {result : β}
    {last : ParseState} (agrees : AgreesBefore sequel first state value next)
    (further : AgreesBefore sequel (rest value) next result last) :
    AgreesBefore sequel (first >>= rest) state result last := by
  unfold AgreesBefore at *
  change EStateM.bind first rest _ = _
  rw [EStateM.bind, agrees]
  exact further

/-- What is to be shown of the rest of a parse, given what is known of the part in front of it at
the end of the text. -/
def AtEnd.Demands (known atEnd : AtEnd) (agrees : Prop) : Prop :=
  match known with
  | .never => True
  | .anything => atEnd = .anything
  | .same => atEnd.Allows agrees

theorem AtEnd.Demands.allows {known atEnd : AtEnd} {part rest whole : Prop}
    (demands : known.Demands atEnd rest) (allows : known.Allows part)
    (both : part → rest → whole) : atEnd.Allows whole := by
  cases known with
  | never => exact allows.elim
  | anything =>
      cases show atEnd = .anything from demands
      trivial
  | same => exact AtEnd.Allows.imp demands (both allows)

/-- What has to hold of the rest of a parse where the part in front of it has come to the end of
the text. -/
def Concludes (sequel : Sequel) (old : Nat) (known : AtEnd) (atEnd : β → AtEnd)
    (rest longer : ParseM β) (state : ParseState) : Prop :=
  old ≤ state.tree.size → Leads rest state (fun value next => next.Spoiled sequel ∨
    known.Demands (atEnd value) (AgreesBefore sequel longer state value next)) fun _ => True

theorem leads_anyway {parse : ParseM α} {accept : α → ParseState → Prop}
    (accepts : ∀ value next, accept value next) :
    Leads parse state accept fun _ => True := by
  unfold Leads Meets
  split
  · exact accepts _ _
  · trivial
  · trivial

/-- What follows a part that never comes to the end of the text. -/
theorem concludes_never {atEnd : β → AtEnd} {rest longer : ParseM β} :
    Concludes sequel old .never atEnd rest longer state :=
  fun _ => leads_anyway fun _ _ => .inr trivial

/-- Nothing has to be shown of a parse of which nothing is known at the end of the text. -/
theorem concludes_anything {known : AtEnd} {rest longer : ParseM β} :
    Concludes sequel old known (fun _ => .anything) rest longer state := by
  refine fun _ => leads_anyway fun _ _ => .inr ?_
  cases known with
  | never => trivial
  | anything => rfl
  | same => trivial

variable {first longer : ParseM α} {rest further : α → ParseM β} {part : α → AtEnd}
  {atEnd : β → AtEnd}

/-- A part that has not come to the end of the text, and what follows it. -/
theorem Tallies.bind {known : AtEnd} {value : α} {middle : ParseState} {result : β}
    (tallies : Tallies sequel known longer state value middle) (goesOn : middle.GoesOn old next)
    (more : middle.cursor.unread ≠ [])
    (continued : Tallies sequel (atEnd result) (further value) middle result next) :
    Tallies sequel (atEnd result) (longer >>= further) state result next := by
  rcases tallies with spoiled | ⟨inside, _⟩
  · exact .inl (spoiled.goesOn goesOn)
  · have agrees := inside more
    exact continued.imp_right fun known =>
      ⟨fun still => agrees.bind (known.1 still), fun ended => (known.2 ended).imp agrees.bind⟩

/-- A part that has come to the end of the text, and what follows it. -/
theorem Tallies.conclude {known : AtEnd} {value : α} {middle : ParseState} {result : β}
    (tallies : Tallies sequel known longer state value middle) (goesOn : middle.GoesOn old next)
    (spent : middle.cursor.unread = [])
    (concluded : next.Spoiled sequel ∨ known.Demands (atEnd result)
      (AgreesBefore sequel (further value) middle result next)) :
    Tallies sequel (atEnd result) (longer >>= further) state result next := by
  rcases tallies with spoiled | ⟨_, atLast⟩
  · exact .inl (spoiled.goesOn goesOn)
  · exact concluded.imp_right fun demands =>
      ⟨fun still => absurd (goesOn.moves.spent spent) still,
        fun _ => demands.allows (atLast spent) AgreesBefore.bind⟩

/-- A part of which more is known than that it ignores the sequel, and what follows it. -/
theorem IgnoresFrom.knowing {fact : α → ParseState → Prop}
    (ignores : IgnoresFrom sequel old part first longer state)
    (known : Leads first state fact fun _ => True)
    (following : ∀ value next, state.GoesOn old next → fact value next →
      IgnoresFrom sequel old atEnd (rest value) (further value) next)
    (concludes : ∀ value next, fact value next → next.cursor.Approaches sequel →
      next.cursor.unread = [] →
        Concludes sequel old (part value) atEnd (rest value) (further value) next) :
    IgnoresFrom sequel old atEnd (first >>= rest) (longer >>= further) state := by
  refine fun large => Leads.bind (((ignores large).and known).mono (fun _ _ => id)
    fun _ both => both.1) ?_
  rintro value middle ⟨⟨goesOn, tallies⟩, holds⟩
  have still := Nat.le_trans large goesOn.size_le
  have continued := following value middle goesOn holds still
  by_cases ending : middle.cursor.Approaches sequel ∧ middle.cursor.unread = []
  · refine (continued.and (concludes value middle holds ending.1 ending.2 still)).mono ?_ ?_
    · rintro result last ⟨⟨further, _⟩, concluded⟩
      exact ⟨goesOn.trans further, fun approaches more =>
        (tallies approaches more).conclude further ending.2 concluded⟩
    · rintro last ⟨further, _⟩
      exact goesOn.trans further
  · refine continued.mono ?_ fun last further => goesOn.trans further
    rintro result last ⟨further, known⟩
    refine ⟨goesOn.trans further, fun approaches more => ?_⟩
    have approachesNext := approaches.moves goesOn.moves
    have moreNext : middle.cursor.unread ≠ [] := fun spent => ending ⟨approachesNext, spent⟩
    exact (tallies approaches more).bind further moreNext (known approachesNext moreNext)

theorem IgnoresFrom.bind (ignores : IgnoresFrom sequel old part first longer state)
    (following : ∀ value next, state.GoesOn old next →
      IgnoresFrom sequel old atEnd (rest value) (further value) next)
    (concludes : ∀ value next, next.cursor.Approaches sequel → next.cursor.unread = [] →
      Concludes sequel old (part value) atEnd (rest value) (further value) next) :
    IgnoresFrom sequel old atEnd (first >>= rest) (longer >>= further) state :=
  ignores.knowing (leads_anyway fun _ _ => trivial)
    (fun value next goesOn _ => following value next goesOn)
    fun value next _ => concludes value next

theorem Tallies.imp {atEnd known : AtEnd} {value : α} {other : ParseM β} {result : β}
    {start : ParseState} (tallies : Tallies sequel atEnd longer state value next)
    (weaker : ∀ agrees, atEnd.Allows agrees → known.Allows agrees)
    (agrees : AgreesBefore sequel longer state value next →
      AgreesBefore sequel other start result next) :
    Tallies sequel known other start result next :=
  tallies.imp_right fun both =>
    ⟨fun still => agrees (both.1 still), fun ended => (weaker _ (both.2 ended)).imp agrees⟩

theorem IgnoresFrom.weaken {known : α → AtEnd}
    (ignores : IgnoresFrom sequel old part first longer state)
    (weaker : ∀ value agrees, (part value).Allows agrees → (known value).Allows agrees) :
    IgnoresFrom sequel old known first longer state := fun large =>
  (ignores large).imp fun value _ both =>
    ⟨both.1, fun approaches more => (both.2 approaches more).imp (weaker value) id⟩

/-- What is known at the end of the text may depend on the value. -/
theorem IgnoresFrom.telling {known : α → AtEnd} {fact : α → ParseState → Prop}
    (ignores : IgnoresFrom sequel old part first longer state)
    (tells : old ≤ state.tree.size → Leads first state fact fun _ => True)
    (weaker : ∀ value next agrees, fact value next →
      (part value).Allows agrees → (known value).Allows agrees) :
    IgnoresFrom sequel old known first longer state := fun large =>
  ((ignores large).and (tells large)).mono (fun value next both => ⟨both.1.1, fun approaches more =>
    (both.1.2 approaches more).imp (fun agrees => weaker value next agrees both.2) id⟩)
    fun _ both => both.1

/-- A parse that never comes to the end of the text. -/
theorem IgnoresFrom.anyway {known : α → AtEnd}
    (ignores : IgnoresFrom sequel old (fun _ => .never) first longer state) :
    IgnoresFrom sequel old known first longer state :=
  ignores.weaken fun _ _ => False.elim

theorem Ignores.anyway {known : α → AtEnd}
    (ignores : Ignores sequel old (fun _ => .never) first longer) :
    Ignores sequel old known first longer :=
  fun state => (ignores state).anyway

/-- Behind a part that never comes to the end of the text. -/
theorem IgnoresFrom.inside (ignores : IgnoresFrom sequel old (fun _ => .never) first longer state)
    (following : ∀ value, Ignores sequel old atEnd (rest value) (further value)) :
    IgnoresFrom sequel old atEnd (first >>= rest) (longer >>= further) state :=
  ignores.bind (fun value _ _ => following value _) fun _ _ _ _ => concludes_never

theorem Ignores.inside (ignores : Ignores sequel old (fun _ => .never) first longer)
    (following : ∀ value, Ignores sequel old atEnd (rest value) (further value)) :
    Ignores sequel old atEnd (first >>= rest) (longer >>= further) :=
  fun state => (ignores state).inside following

/-- A parse of which nothing is known at the end of the text. -/
theorem IgnoresFrom.short (ignores : IgnoresFrom sequel old part first longer state)
    (following : ∀ value,
      Ignores sequel old (fun _ => .anything) (rest value) (further value)) :
    IgnoresFrom sequel old (fun _ => .anything) (first >>= rest) (longer >>= further) state :=
  ignores.bind (fun value _ _ => following value _) fun _ _ _ _ => concludes_anything

theorem Ignores.short (ignores : Ignores sequel old part first longer)
    (following : ∀ value,
      Ignores sequel old (fun _ => .anything) (rest value) (further value)) :
    Ignores sequel old (fun _ => .anything) (first >>= rest) (longer >>= further) :=
  fun state => (ignores state).short following

/-! ## Parts that read nothing -/

theorem DisregardsFrom.knowing {fact : α → ParseState → Prop}
    (disregards : DisregardsFrom sequel old first longer state)
    (known : Leads first state fact fun _ => True)
    (following : ∀ value next, state.GoesOn old next → fact value next →
      DisregardsFrom sequel old (rest value) (further value) next) :
    DisregardsFrom sequel old (first >>= rest) (longer >>= further) state := by
  refine fun large => Leads.bind (((disregards large).and known).mono (fun _ _ => id)
    fun _ both => both.1) ?_
  rintro value middle ⟨⟨goesOn, agreed⟩, holds⟩
  refine (following value middle goesOn holds (Nat.le_trans large goesOn.size_le)).mono ?_
    fun _ further => goesOn.trans further
  rintro result last ⟨onward, further⟩
  refine ⟨goesOn.trans onward, fun approaches => ?_⟩
  rcases agreed approaches with spoiled | ⟨same, agrees⟩
  · exact .inl (spoiled.goesOn onward)
  · exact (further (same ▸ approaches)).imp_right fun both =>
      ⟨both.1.trans same, agrees.bind both.2⟩

theorem DisregardsFrom.bind (disregards : DisregardsFrom sequel old first longer state)
    (following : ∀ value next, state.GoesOn old next →
      DisregardsFrom sequel old (rest value) (further value) next) :
    DisregardsFrom sequel old (first >>= rest) (longer >>= further) state :=
  disregards.knowing (leads_anyway fun _ _ => trivial)
    fun value next goesOn _ => following value next goesOn

theorem DisregardsFrom.ignores (disregards : DisregardsFrom sequel old first longer state) :
    IgnoresFrom sequel old part first longer state := fun large =>
  (disregards large).imp fun _ _ both => ⟨both.1, fun approaches more =>
    (both.2 approaches).imp_right fun known =>
      ⟨fun _ => known.2, fun spent => absurd (known.1 ▸ spent) more⟩⟩

theorem DisregardsFrom.get {rest further : ParseState → ParseM β}
    (following : DisregardsFrom sequel old (rest state) (further (state.followedBy sequel)) state) :
    DisregardsFrom sequel old (MonadState.get >>= rest) (MonadState.get >>= further) state :=
  following

/-- What follows, and reads nothing, agrees if the part in front of it does. -/
theorem DisregardsFrom.concludes {known : AtEnd}
    (disregards : DisregardsFrom sequel old first longer state)
    (approaches : state.cursor.Approaches sequel) :
    Concludes sequel old known (fun _ => known) first longer state := by
  refine fun large => (disregards large).mono ?_ fun _ _ => trivial
  rintro value next ⟨_, outcome⟩
  refine (outcome approaches).imp_right fun both => ?_
  cases known with
  | never => trivial
  | anything => rfl
  | same => exact both.2

namespace Disregards

theorem ignores (disregards : Disregards sequel old first longer) :
    Ignores sequel old part first longer :=
  fun state => (disregards state).ignores

theorem bind (disregards : Disregards sequel old first longer)
    (following : ∀ value, Disregards sequel old (rest value) (further value)) :
    Disregards sequel old (first >>= rest) (longer >>= further) :=
  fun state => (disregards state).bind fun value next _ => following value next

theorem pure (value : α) :
    Disregards sequel old (Pure.pure value) (Pure.pure value : ParseM α) :=
  fun state _ => ⟨.refl old state, fun _ => .inr ⟨rfl, rfl⟩⟩

theorem refuse (complaint : Complaint) (span : Span) :
    Disregards sequel old (refuse complaint span) (ParseM.refuse complaint span : ParseM α) :=
  fun state _ => .refl old state

theorem stuck : Disregards sequel old (throw .stuck) (throw .stuck : ParseM α) :=
  fun _ _ => trivial

theorem ite {condition : Prop} [Decidable condition] {left leftLonger : ParseM α}
    {right rightLonger : ParseM α} (yes : Disregards sequel old left leftLonger)
    (no : Disregards sequel old right rightLonger) :
    Disregards sequel old (if condition then left else right)
      (if condition then leftLonger else rightLonger) := by
  by_cases holds : condition
  · simpa only [if_pos holds] using yes
  · simpa only [if_neg holds] using no

/-- A parse that looks at what a sequel leaves alone. -/
theorem looks {parse : ParseM α} (sees : ∀ state, ∃ value, parse state = .ok value state ∧
      (state.cursor.Approaches sequel → AgreesBefore sequel parse state value state)) :
    Disregards sequel old parse parse := by
  intro state _
  obtain ⟨value, run, agrees⟩ := sees state
  unfold Leads Meets
  rw [run]
  exact ⟨.refl old state, fun approaches => .inr ⟨rfl, agrees approaches⟩⟩

/-- A change that neither reads nor adds to the tree. -/
theorem changes {change : ParseState → ParseState}
    (goesOn : ∀ state : ParseState, state.GoesOn old (change state))
    (cursor : ∀ state, (change state).cursor = state.cursor)
    (followed : ∀ state : ParseState,
      change (state.followedBy sequel) = (change state).followedBy sequel) :
    Disregards sequel old (modify change : ParseM Unit) (modify change) :=
  fun state _ => ⟨goesOn state, fun _ => .inr ⟨cursor state,
    congrArg (EStateM.Result.ok ()) (followed state)⟩⟩

end Disregards

/-- A part and what follows it without reading anything. -/
theorem IgnoresFrom.disregarding {known : AtEnd}
    (ignores : IgnoresFrom sequel old (fun _ => known) first longer state)
    (following : ∀ value, Disregards sequel old (rest value) (further value)) :
    IgnoresFrom sequel old (fun _ => known) (first >>= rest) (longer >>= further) state :=
  ignores.bind (fun value next _ => (following value next).ignores)
    fun value next approaches _ => (following value next).concludes approaches

theorem Ignores.disregarding {known : AtEnd}
    (ignores : Ignores sequel old (fun _ => known) first longer)
    (following : ∀ value, Disregards sequel old (rest value) (further value)) :
    Ignores sequel old (fun _ => known) (first >>= rest) (longer >>= further) :=
  fun state => (ignores state).disregarding following

/-! ## Choices and loops -/

theorem ignores_pure (value : β) :
    Ignores sequel old atEnd (pure value) (pure value) :=
  (Disregards.pure value).ignores

theorem concludes_pure {known : AtEnd} {value : β} (same : known = atEnd value) :
    Concludes sequel old known atEnd (pure value) (pure value) state := by
  refine fun _ => .inr ?_
  rw [same]
  unfold AtEnd.Demands
  split
  · trivial
  · assumption
  · rename_i same
    rw [same]
    exact rfl

theorem ignores_refuse (complaint : Complaint) (span : Span) :
    Ignores sequel old atEnd (refuse complaint span) (refuse complaint span) :=
  (Disregards.refuse complaint span).ignores

/-- Nothing follows a refusal. -/
theorem ignores_refused (complaint : Complaint) (span : Span) :
    Ignores sequel old atEnd (refuse complaint span >>= rest) (refuse complaint span >>= further) :=
  fun state _ => .refl old state

theorem IgnoresFrom.ite {condition : Prop} [Decidable condition] {left leftLonger : ParseM β}
    {right rightLonger : ParseM β}
    (yes : condition → IgnoresFrom sequel old atEnd left leftLonger state)
    (no : ¬ condition → IgnoresFrom sequel old atEnd right rightLonger state) :
    IgnoresFrom sequel old atEnd (if condition then left else right)
      (if condition then leftLonger else rightLonger) state := by
  by_cases holds : condition
  · simpa only [if_pos holds] using yes holds
  · simpa only [if_neg holds] using no holds

theorem Ignores.ite {condition : Prop} [Decidable condition] {left leftLonger : ParseM β}
    {right rightLonger : ParseM β} (yes : Ignores sequel old atEnd left leftLonger)
    (no : Ignores sequel old atEnd right rightLonger) :
    Ignores sequel old atEnd (if condition then left else right)
      (if condition then leftLonger else rightLonger) :=
  fun state => .ite (fun _ => yes state) fun _ => no state

/-- What is known of a round of a loop at the end of the text. -/
def AtEnd.ofStep (again : AtEnd) (atEnd : β → AtEnd) : Step α β → AtEnd
  | .again _ => again
  | .done result => atEnd result

/-- A loop that may go round more often in front of a sequel. -/
theorem ignores_loop {step stepLonger : α → ParseM (Step α β)} {again : AtEnd}
    (round : ∀ value, Ignores sequel old (AtEnd.ofStep again atEnd) (step value) (stepLonger value))
    (ending : ∀ value bound more (next : ParseState), bound ≤ more →
      next.cursor.Approaches sequel → next.cursor.unread = [] →
        Concludes sequel old again atEnd (loop step bound value) (loop stepLonger more value) next)
    {bound more : Nat} (le : bound ≤ more) (start : α) :
    Ignores sequel old atEnd (loop step bound start) (loop stepLonger more start) := by
  induction bound generalizing more start with
  | zero => exact fun _ _ => trivial
  | succ bound ih =>
      obtain ⟨more, rfl⟩ : ∃ rest, more = rest + 1 := ⟨more - 1, by omega⟩
      unfold loop
      refine fun state => (round start state).bind (fun outcome next _ => ?_)
        fun outcome next approaches spent => ?_
      · cases outcome with
        | done result => exact ignores_pure result next
        | again value => exact ih (by omega) value next
      · cases outcome with
        | done result => exact concludes_pure rfl
        | again value => exact ending value bound more next (by omega) approaches spent

theorem ignores_iterate {step stepLonger : α → ParseM (Step α β)} {again : AtEnd}
    (round : ∀ value, Ignores sequel old (AtEnd.ofStep again atEnd) (step value) (stepLonger value))
    (ending : ∀ value bound more (next : ParseState), bound ≤ more →
      next.cursor.Approaches sequel → next.cursor.unread = [] →
        Concludes sequel old again atEnd (loop step bound value) (loop stepLonger more value) next)
    (start : α) :
    Ignores sequel old atEnd (iterate step start) (iterate stepLonger start) := by
  intro state
  have heavier : state.cursor.weight ≤ (state.cursor.followedBy sequel).weight :=
    Cursor.weight_followedBy
  exact ignores_loop round ending (Nat.succ_le_succ heavier) start state

/-- A loop that never comes to the end of the text. -/
theorem Ignores.iterate {step stepLonger : α → ParseM (Step α β)}
    (round : ∀ value, Ignores sequel old (fun _ => .never) (step value) (stepLonger value))
    (start : α) :
    Ignores sequel old atEnd (iterate step start) (iterate stepLonger start) :=
  ignores_iterate (fun value => (round value).anyway) (fun _ _ _ _ _ _ _ => concludes_never) start

/-- A loop of which nothing is known at the end of the text. -/
theorem Ignores.iterateShort {step stepLonger : α → ParseM (Step α β)}
    (round : ∀ value, Ignores sequel old (fun _ => .anything) (step value) (stepLonger value))
    (start : α) :
    Ignores sequel old (fun _ => .anything) (ParseM.iterate step start)
      (ParseM.iterate stepLonger start) := by
  have rounds (value : α) : Ignores sequel old (AtEnd.ofStep .anything fun _ => .anything)
      (step value) (stepLonger value) := fun state =>
    (round value state).weaken fun outcome _ _ => by cases outcome <;> trivial
  exact ignores_iterate rounds (fun _ _ _ _ _ _ _ => concludes_anything) start

/-- A part that leaves more nodes as they are. -/
theorem IgnoresFrom.weakenOld {more : Nat} (le : old ≤ more) (large : more ≤ state.tree.size)
    (ignores : IgnoresFrom sequel more part first longer state) :
    IgnoresFrom sequel old part first longer state := fun _ =>
  (ignores large).mono (fun _ _ both => ⟨both.1.weaken le, both.2⟩) fun _ goesOn => goesOn.weaken le

/-! ## Errors that are caught -/

/-- Whether a parse that goes on behind an error reports it or is refused again. -/
def Spoils (sequel : Sequel) (old : Nat) (parse : ParseM α) : Prop :=
  ∀ state : ParseState, old ≤ state.tree.size → Leads parse state
    (fun _ next => state.GoesOn old next ∧ next.Spoiled sequel) (state.GoesOn old)

theorem attempt_eq (first : ParseM α) (state : ParseState) :
    attempt first state = match first state with
      | .ok value next => .ok (.ok value) next
      | .error (.refused error) next => .ok (.error error) next
      | .error .stuck next => .error .stuck next :=
  rfl

theorem attempt_bind_of_ok {rest : Except ParseError α → ParseM β} {result : β}
    (run : (first >>= fun value => rest (.ok value)) state = .ok result next) :
    (attempt first >>= rest) state = .ok result next := by
  change EStateM.bind first _ state = _ at run
  change EStateM.bind (attempt first) rest state = _
  rw [EStateM.bind] at run ⊢
  rw [attempt_eq]
  cases ran : first state with
  | ok value middle =>
      rw [ran] at run
      exact run
  | error stop middle =>
      rw [ran] at run
      cases run

/-- A parse that is taken up again behind a part that may be refused. -/
theorem leads_attempt_bind {rest : Except ParseError α → ParseM β}
    {accept : β → ParseState → Prop} {refusal : ParseState → Prop}
    (leads : Leads (first >>= fun value => rest (.ok value)) state accept refusal)
    (refused : Leads first state (fun _ _ => True) fun middle =>
      ∀ error, Leads (rest (.error error)) middle accept refusal) :
    Leads (attempt first >>= rest) state accept refusal := by
  cases ran : first state with
  | ok value middle =>
      have caught : attempt first state = .ok (.ok value) middle := by rw [attempt_eq, ran]
      exact (leads_of_ok caught).2 ((leads_of_ok ran).1 leads)
  | error stop middle =>
      cases stop with
      | refused error =>
          have caught : attempt first state = .ok (.error error) middle := by rw [attempt_eq, ran]
          unfold Leads Meets at refused
          rw [ran] at refused
          exact (leads_of_ok caught).2 (refused error)
      | stuck =>
          have stops : (attempt first >>= rest) state = .error .stuck middle := by
            change EStateM.bind (attempt first) rest state = _
            rw [EStateM.bind, attempt_eq, ran]
          unfold Leads Meets
          rw [stops]
          trivial

/-- A part that may be refused and is taken up again, which reports the error or passes it on. -/
theorem IgnoresFrom.attemptKnowing {rest further : Except ParseError α → ParseM β}
    {fact : α → ParseState → Prop} (ignores : IgnoresFrom sequel old part first longer state)
    (known : Leads first state fact fun _ => True)
    (following : ∀ value next, state.GoesOn old next → fact value next →
      IgnoresFrom sequel old atEnd (rest (.ok value)) (further (.ok value)) next)
    (concludes : ∀ value next, fact value next → next.cursor.Approaches sequel →
      next.cursor.unread = [] →
        Concludes sequel old (part value) atEnd (rest (.ok value)) (further (.ok value)) next)
    (refused : ∀ error, Spoils sequel old (rest (.error error))) :
    IgnoresFrom sequel old atEnd (ParseM.attempt first >>= rest)
      (ParseM.attempt longer >>= further) state := by
  intro large
  refine leads_attempt_bind ?_ ?_
  · refine (ignores.knowing known following concludes large).imp ?_
    rintro value next ⟨goesOn, tallies⟩
    exact ⟨goesOn, fun approaches more =>
      (tallies approaches more).imp (fun _ => id) attempt_bind_of_ok⟩
  · refine (ignores large).mono (fun _ _ _ => trivial) fun middle goesOn error => ?_
    refine (refused error middle (Nat.le_trans large goesOn.size_le)).mono ?_
      fun _ further => goesOn.trans further
    exact fun _ _ both => ⟨goesOn.trans both.1, fun _ _ => .inl both.2⟩

theorem IgnoresFrom.attempt {rest further : Except ParseError α → ParseM β}
    (ignores : IgnoresFrom sequel old part first longer state)
    (following : ∀ value next, state.GoesOn old next →
      IgnoresFrom sequel old atEnd (rest (.ok value)) (further (.ok value)) next)
    (concludes : ∀ value next, next.cursor.Approaches sequel → next.cursor.unread = [] →
      Concludes sequel old (part value) atEnd (rest (.ok value)) (further (.ok value)) next)
    (refused : ∀ error, Spoils sequel old (rest (.error error))) :
    IgnoresFrom sequel old atEnd (ParseM.attempt first >>= rest)
      (ParseM.attempt longer >>= further) state :=
  ignores.attemptKnowing (leads_anyway fun _ _ => trivial)
    (fun value next goesOn _ => following value next goesOn)
    (fun value next _ => concludes value next) refused

/-- A part that reads nothing, may be refused and is taken up again. -/
theorem DisregardsFrom.attempt {rest further : Except ParseError α → ParseM β}
    (disregards : DisregardsFrom sequel old first longer state)
    (following : ∀ value next, state.GoesOn old next →
      DisregardsFrom sequel old (rest (.ok value)) (further (.ok value)) next)
    (refused : ∀ error, Spoils sequel old (rest (.error error))) :
    DisregardsFrom sequel old (ParseM.attempt first >>= rest)
      (ParseM.attempt longer >>= further) state := by
  intro large
  refine leads_attempt_bind ?_ ?_
  · refine (disregards.bind following large).imp ?_
    rintro value next ⟨goesOn, outcome⟩
    exact ⟨goesOn, fun approaches => (outcome approaches).imp_right fun both =>
      ⟨both.1, attempt_bind_of_ok both.2⟩⟩
  · refine (disregards large).mono (fun _ _ _ => trivial) fun middle goesOn error => ?_
    refine (refused error middle (Nat.le_trans large goesOn.size_le)).mono ?_
      fun _ further => goesOn.trans further
    exact fun _ _ both => ⟨goesOn.trans both.1, fun _ => .inl both.2⟩

/-- Whether a parse takes nothing back, whatever becomes of it. -/
def Proceeding (old : Nat) (parse : ParseM α) : Prop :=
  ∀ state : ParseState, old ≤ state.tree.size →
    Leads parse state (fun _ next => state.GoesOn old next) (state.GoesOn old)

theorem Ignores.proceeding (ignores : Ignores sequel old part first longer) :
    Proceeding old first :=
  fun state large => (ignores state large).imp fun _ _ both => both.1

theorem Disregards.proceeding (disregards : Disregards sequel old first longer) :
    Proceeding old first :=
  fun state large => (disregards state large).imp fun _ _ both => both.1

theorem Proceeding.pure (value : α) : Proceeding old (Pure.pure value : ParseM α) :=
  fun state _ => .refl old state

theorem OnlyReads.proceeding (reads : OnlyReads first) : Proceeding old first :=
  fun state _ => (reads.leads state).mono (fun _ _ => .of_reads) fun _ => .of_reads

/-- What follows a part that takes nothing back. -/
theorem Proceeding.leads_bind (proceeding : Proceeding old first) {accept : β → ParseState → Prop}
    (large : old ≤ state.tree.size)
    (following : ∀ value next, old ≤ next.tree.size →
      Leads (rest value) next accept fun _ => True) :
    Leads (first >>= rest) state accept fun _ => True :=
  ((proceeding state large).mono (fun _ _ => id) fun _ _ => trivial).bind
    fun value next goesOn => following value next (Nat.le_trans large goesOn.size_le)

namespace Spoils

theorem resume (error : ParseError) :
    Spoils sequel old (resume (.error error) : ParseM α) :=
  fun state _ => .refl old state

/-- Nothing follows an error that is passed on. -/
theorem resumed (error : ParseError) : Spoils sequel old (ParseM.resume (.error error) >>= rest) :=
  fun state _ => .refl old state

theorem report (error : ParseError) : Spoils sequel old (report error) :=
  fun _ _ => ⟨.report error, .inl (by simp)⟩

/-- A parse that is excused whatever it does in front of a sequel. -/
theorem ignores (spoils : Spoils sequel old first) : Ignores sequel old part first longer :=
  fun state large => (spoils state large).imp fun _ _ both => ⟨both.1, fun _ _ => .inl both.2⟩

/-- What is always refused. -/
theorem of_refused (proceeding : Proceeding old first)
    (refused : ∀ state, Leads first state (fun _ _ => False) fun _ => True) :
    Spoils sequel old first := fun state large =>
  ((proceeding state large).and (refused state)).mono (fun _ _ both => both.2.elim)
    fun _ both => both.1

/-- What comes in front of an error that is passed on. -/
theorem behind (proceeding : Proceeding old first)
    (following : ∀ value, Spoils sequel old (rest value)) : Spoils sequel old (first >>= rest) := by
  refine fun state large => Leads.bind (proceeding state large) fun value middle goesOn => ?_
  exact (following value middle (Nat.le_trans large goesOn.size_le)).mono
    (fun _ _ further => ⟨goesOn.trans further.1, further.2⟩) fun _ further => goesOn.trans further

/-- What follows an error that is reported. -/
theorem bind (spoils : Spoils sequel old first) (following : ∀ value, Proceeding old (rest value)) :
    Spoils sequel old (first >>= rest) := by
  refine fun state large => Leads.bind (spoils state large) fun value middle both => ?_
  exact (following value middle (Nat.le_trans large both.1.size_le)).mono
    (fun _ _ further => ⟨both.1.trans further, both.2.goesOn further⟩)
    fun _ further => both.1.trans further

end Spoils

/-- A part that is taken up again to end with what reads nothing and passes an error on. -/
theorem IgnoresFrom.attemptEnding {known : AtEnd} {rest further : Except ParseError α → ParseM β}
    (ignores : IgnoresFrom sequel old (fun _ => known) first longer state)
    (ends : ∀ outcome, Disregards sequel old (rest outcome) (further outcome))
    (refused : ∀ error state, Leads (rest (.error error)) state (fun _ _ => False) fun _ => True) :
    IgnoresFrom sequel old (fun _ => known) (ParseM.attempt first >>= rest)
      (ParseM.attempt longer >>= further) state :=
  ignores.attempt (fun value next _ => (ends (.ok value)).ignores next)
    (fun value next approaches _ => (ends (.ok value) next).concludes approaches)
    fun error => .of_refused (ends (.error error)).proceeding (refused error)

/-- What follows a part of which nothing has to be known. -/
theorem leads_whatever {accept : β → ParseState → Prop}
    (following : ∀ value next, Leads (rest value) next accept fun _ => True) :
    Leads (first >>= rest) state accept fun _ => True :=
  Leads.bind (leads_anyway fun _ _ => trivial) fun value next _ => following value next

end ParseM

end DeclTree
