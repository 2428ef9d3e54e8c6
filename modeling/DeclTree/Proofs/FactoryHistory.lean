import DeclTree.Symbol.Factory

/-!
# Histories of template factories

Played back from the start, the history of a factory leads to its open frames.
If none is open, the steps nest like brackets: every frame that was opened is
closed or discarded exactly once, after all frames opened inside it.
-/

namespace DeclTree

/-- The open frames behind one more step, innermost first.  Only the innermost
frame can be closed or discarded. -/
def FactoryEvent.play : FactoryEvent → List SymbolId → Option (List SymbolId)
  | .push template, stack => some (template :: stack)
  | .pop _, [] | .discard _, [] => none
  | .pop template, frame :: stack | .discard template, frame :: stack =>
      if frame = template then some stack else none

/-- The open frames behind some steps. -/
def replay : List FactoryEvent → List SymbolId → Option (List SymbolId)
  | [], stack => some stack
  | event :: events, stack => (event.play stack).bind (replay events)

theorem replay_append (first second : List FactoryEvent) (stack : List SymbolId) :
    replay (first ++ second) stack = (replay first stack).bind (replay second) := by
  induction first generalizing stack with
  | nil => rfl
  | cons event events ih =>
      simp only [List.cons_append, replay, Option.bind_assoc]
      congr 1
      funext next
      exact ih next

theorem replay_discards (released stack : List SymbolId) :
    replay (released.map .discard) (released ++ stack) = some stack := by
  induction released with
  | nil => rfl
  | cons frame released ih =>
      simp only [List.map_cons, List.cons_append, replay, FactoryEvent.play, if_true,
        Option.bind_some]
      exact ih

namespace TemplateFactory

/-- The history leads to the open frames. -/
def Replays (factory : TemplateFactory) : Prop :=
  replay factory.history [] = some factory.stack

theorem above_append_drop (template : SymbolId) (stack : List SymbolId) :
    above template stack ++ stack.drop (above template stack).length = stack := by
  induction stack with
  | nil => rfl
  | cons frame stack ih =>
      unfold above
      split
      · rfl
      · simp only [List.length_cons, List.drop_succ_cons, List.cons_append, ih]

/-- Giving up a template leaves frames that were open before it. -/
theorem stack_discard_suffix (factory : TemplateFactory) (template : SymbolId) :
    (factory.discard template).stack <:+ factory.stack := by
  unfold discard
  split
  · exact List.drop_suffix _ _
  · exact List.suffix_refl _

theorem stack_popped_suffix (factory : TemplateFactory) :
    factory.popped.stack <:+ factory.stack := by
  unfold popped pop?
  cases open_ : factory.stack with
  | nil => simp [open_]
  | cons frame stack => exact List.suffix_cons _ _

/-- A template whose frame is the innermost one is given up alone. -/
theorem stack_discard_cons {factory : TemplateFactory} {template : SymbolId}
    {stack : List SymbolId} (innermost : factory.stack = template :: stack) :
    (factory.discard template).stack = stack := by
  simp [discard, isPending, innermost, above]

theorem Replays.push {factory : TemplateFactory} (replays : factory.Replays)
    (template : SymbolId) : (factory.push template).Replays := by
  unfold Replays TemplateFactory.push
  rw [replay_append, replays]
  rfl

theorem Replays.popped {factory : TemplateFactory} (replays : factory.Replays) :
    factory.popped.Replays := by
  unfold TemplateFactory.popped pop?
  cases frames : factory.stack with
  | nil => exact replays
  | cons frame stack =>
      unfold Replays
      simp only [Option.map_some, Option.getD_some]
      rw [replay_append, replays, frames]
      simp [replay, FactoryEvent.play]

theorem Replays.discard {factory : TemplateFactory} (replays : factory.Replays)
    (template : SymbolId) : (factory.discard template).Replays := by
  unfold TemplateFactory.discard
  split
  · unfold Replays
    simp only
    rw [replay_append, replays, Option.bind_some]
    have released := replay_discards (above template factory.stack)
      (factory.stack.drop (above template factory.stack).length)
    rw [above_append_drop] at released
    exact released
  · exact replays

end TemplateFactory

/-- Whether a step closes or discards the frame of a template. -/
def FactoryEvent.Closes (template : SymbolId) (event : FactoryEvent) : Prop :=
  event = .pop template ∨ event = .discard template

/-- Steps that nest like brackets: every frame is opened, and closed or
discarded behind the frames opened inside it. -/
inductive Bracketed : List FactoryEvent → Prop
  | nil : Bracketed []
  | frame {template : SymbolId} {closing : FactoryEvent} {inside rest : List FactoryEvent}
      (closes : closing.Closes template) (nested : Bracketed inside)
      (following : Bracketed rest) :
      Bracketed (.push template :: inside ++ closing :: rest)

theorem Bracketed.append {first second : List FactoryEvent} (left : Bracketed first)
    (right : Bracketed second) : Bracketed (first ++ second) := by
  induction left with
  | nil => exact right
  | frame closes nested _ _ ih =>
      simp only [List.cons_append, List.append_assoc]
      exact .frame closes nested ih

/-- Steps that close some frames, innermost first, with bracketed steps in front
of each and behind the last. -/
def ClosesFrames : List SymbolId → List FactoryEvent → Prop
  | [], events => Bracketed events
  | template :: stack, events =>
      ∃ inside closing rest, events = inside ++ closing :: rest ∧ Bracketed inside ∧
        closing.Closes template ∧ ClosesFrames stack rest

theorem ClosesFrames.prepend {stack : List SymbolId} {first events : List FactoryEvent}
    (bracketed : Bracketed first) (closes : ClosesFrames stack events) :
    ClosesFrames stack (first ++ events) := by
  cases stack with
  | nil => exact bracketed.append closes
  | cons template stack =>
      obtain ⟨inside, closing, rest, rfl, nested, closed, outer⟩ := closes
      exact ⟨first ++ inside, closing, rest, by simp, bracketed.append nested, closed, outer⟩

/-- A history that leaves no frame open closes all frames open at its start. -/
theorem closesFrames_of_replay {events : List FactoryEvent} {stack : List SymbolId}
    (ends : replay events stack = some []) : ClosesFrames stack events := by
  induction events generalizing stack with
  | nil =>
      obtain rfl := Option.some.inj ends
      exact .nil
  | cons event events ih =>
      simp only [replay, Option.bind_eq_some_iff] at ends
      obtain ⟨next, played, ends⟩ := ends
      have later := ih ends
      cases event with
      | push template =>
          -- The frame opened here is closed by the first part of what follows.
          obtain rfl := Option.some.inj played
          obtain ⟨inside, closing, rest, rfl, nested, closed, outer⟩ := later
          have bracketed : Bracketed (.push template :: inside ++ closing :: []) :=
            .frame closed nested .nil
          simpa using outer.prepend bracketed
      | pop template =>
          cases stack with
          | nil => simp [FactoryEvent.play] at played
          | cons frame stack =>
              simp only [FactoryEvent.play, Option.ite_none_right_eq_some,
                Option.some.injEq] at played
              obtain ⟨rfl, rfl⟩ := played
              exact ⟨[], _, events, rfl, .nil, .inl rfl, later⟩
      | discard template =>
          cases stack with
          | nil => simp [FactoryEvent.play] at played
          | cons frame stack =>
              simp only [FactoryEvent.play, Option.ite_none_right_eq_some,
                Option.some.injEq] at played
              obtain ⟨rfl, rfl⟩ := played
              exact ⟨[], _, events, rfl, .nil, .inr rfl, later⟩

/-- A factory without open frames has a bracketed history. -/
theorem TemplateFactory.Replays.bracketed {factory : TemplateFactory}
    (replays : factory.Replays) (closed : factory.stack = []) : Bracketed factory.history := by
  unfold Replays at replays
  rw [closed] at replays
  exact closesFrames_of_replay replays

end DeclTree
