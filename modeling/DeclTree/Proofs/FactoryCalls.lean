import DeclTree.Proofs.FactoryHistory

/-!
# Calls of template factories

Whatever is asked of a new factory, and whatever templates are named, its history leads to its open
frames.  A frame is therefore left open exactly if the history does not nest like brackets.
-/

namespace DeclTree

/-- What can be asked of a factory. -/
inductive FactoryCall
  | push (template : SymbolId)
  | pop
  | discard (template : SymbolId)

namespace TemplateFactory

variable {factory : TemplateFactory} {template : SymbolId}

/-- Whether a call is carried out.  Closing a frame takes an open one, and giving up a template one
of its own. -/
def accepts (factory : TemplateFactory) : FactoryCall → Bool
  | .push _ => true
  | .pop => factory.pop?.isSome
  | .discard template => factory.isPending template

def perform (factory : TemplateFactory) : FactoryCall → TemplateFactory
  | .push template => factory.push template
  | .pop => factory.popped
  | .discard template => factory.discard template

def performAll (factory : TemplateFactory) (calls : List FactoryCall) : TemplateFactory :=
  calls.foldl perform factory

/-! ## Calls that fail -/

theorem accepts_eq_false_iff {call : FactoryCall} : factory.accepts call = false ↔
    (call = .pop ∧ factory.stack = []) ∨
      ∃ template, call = .discard template ∧ template ∉ factory.stack := by
  cases call with
  | push template => simp [accepts]
  | pop => cases frames : factory.stack <;> simp [accepts, pop?, frames]
  | discard template => simp [accepts, isPending]

/-- A call that fails changes nothing. -/
theorem perform_eq_self {call : FactoryCall} (refused : factory.accepts call = false) :
    factory.perform call = factory := by
  rcases accepts_eq_false_iff.1 refused with ⟨rfl, closed⟩ | ⟨template, rfl, absent⟩
  · simp [perform, popped, pop?, closed]
  · simp [perform, discard, isPending, absent]

/-! ## Frames that are given up -/

theorem above_append_cons {inner : List SymbolId} (outer : List SymbolId)
    (first : template ∉ inner) :
    above template (inner ++ template :: outer) = inner ++ [template] := by
  induction inner with
  | nil => simp [above]
  | cons frame inner ih =>
      rw [List.mem_cons, not_or] at first
      rw [List.cons_append, above, if_neg (Ne.symm first.1), ih first.2, List.cons_append]

/-- Giving up a template releases its latest frame and all that were opened since, innermost
first. -/
theorem discard_of_isPending (pending : factory.isPending template = true) :
    ∃ inner outer, factory.stack = inner ++ template :: outer ∧ template ∉ inner ∧
      (factory.discard template).stack = outer ∧
        (factory.discard template).history =
          factory.history ++ (inner ++ [template]).map .discard := by
  obtain ⟨inner, outer, frames, first⟩ :=
    List.eq_append_cons_of_mem (List.contains_iff_mem.1 pending)
  have released : above template factory.stack = inner ++ [template] := by
    rw [frames, above_append_cons outer first]
  rw [discard, if_pos pending, released]
  exact ⟨inner, outer, frames, first, by simp [frames], rfl⟩

/-! ## Runs of a factory -/

theorem Replays.perform (replays : factory.Replays) (call : FactoryCall) :
    (factory.perform call).Replays := by
  cases call with
  | push template => exact replays.push template
  | pop => exact replays.popped
  | discard template => exact replays.discard template

theorem Replays.performAll (replays : factory.Replays) (calls : List FactoryCall) :
    (factory.performAll calls).Replays := by
  induction calls generalizing factory with
  | nil => exact replays
  | cons call rest ih => exact ih (replays.perform call)

end TemplateFactory

/-- Steps that nest like brackets leave the frames as they were. -/
theorem Bracketed.replay_eq {events : List FactoryEvent} (bracketed : Bracketed events)
    (stack : List SymbolId) : replay events stack = some stack := by
  induction bracketed generalizing stack with
  | nil => rfl
  | @frame template closing inside rest closes _ _ inner outer =>
      rcases closes with rfl | rfl <;>
        simp [replay, replay_append, FactoryEvent.play, inner, outer]

namespace TemplateFactory

variable {factory : TemplateFactory}

theorem release_eq_ok_iff : factory.release = .ok () ↔ factory.stack = [] := by
  unfold release
  cases factory.stack <;> simp

/-- A factory can be let go exactly if its history nests like brackets. -/
theorem Replays.release_iff (replays : factory.Replays) :
    factory.release = .ok () ↔ Bracketed factory.history := by
  rw [release_eq_ok_iff]
  refine ⟨replays.bracketed, fun bracketed => ?_⟩
  exact Option.some.inj (replays.symm.trans (bracketed.replay_eq []))

/-- The history of a factory leads to its open frames in every run.  Calls that fail change nothing,
giving up a template releases the frames from its latest one on, innermost first, and the factory
can be let go exactly if its history nests like brackets. -/
theorem history_performAll (container : SymbolId) (calls : List FactoryCall) :
    let factory := ({ container := container } : TemplateFactory).performAll calls
    replay factory.history [] = some factory.stack ∧
      (∀ call, factory.accepts call = false → factory.perform call = factory) ∧
      (∀ template, factory.isPending template = true → ∃ inner outer,
        factory.stack = inner ++ template :: outer ∧ template ∉ inner ∧
          (factory.discard template).stack = outer ∧
            (factory.discard template).history =
              factory.history ++ (inner ++ [template]).map .discard) ∧
      (factory.release = .ok () ↔ Bracketed factory.history) := by
  intro factory
  have start : ({ container := container } : TemplateFactory).Replays := rfl
  have replays : factory.Replays := start.performAll calls
  exact ⟨replays, fun _ refused => perform_eq_self refused,
    fun _ pending => discard_of_isPending pending, replays.release_iff⟩

-- Of two frames of one template the latest is given up, with the one opened inside it.
example : (({ container := ⟨0⟩ } : TemplateFactory).performAll
    [.push ⟨1⟩, .push ⟨1⟩, .push ⟨2⟩, .discard ⟨1⟩, .discard ⟨2⟩, .pop, .pop]).history =
      [.push ⟨1⟩, .push ⟨1⟩, .push ⟨2⟩, .discard ⟨2⟩, .discard ⟨1⟩, .pop ⟨1⟩] := by
  decide

end TemplateFactory

end DeclTree
