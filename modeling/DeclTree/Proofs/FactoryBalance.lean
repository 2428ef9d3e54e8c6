import DeclTree.Proofs.ParseTermination
import DeclTree.Session

/-!
# Sessions leave no template open

Every template that a parse opens is closed by the declaration behind it or given
up, whatever the text is.  A unit therefore leaves the factories of a session as
balanced as it found them, and in a new session none has an open frame.
-/

namespace DeclTree

/-- A unit leaves no template open that was not open before it. -/
theorem stacksWithin_parseUnit (options : ParseOptions) {table : SymbolTable}
    (reached : table.Reachable) (unit : UnitId) (source : String) :
    table.StacksWithin (parseUnit options table unit source).table := by
  obtain ⟨final, finished⟩ := ParseState.exists_finished options reached unit source
  simp only [parseUnit, ParseState.parsed, ParseState.finish_eq finished]
  exact finished.activity.stacksWithin

/-- A unit that a session is asked to parse, going on behind errors or not. -/
inductive SessionCall
  | parse (source : String)
  | parseStrict (source : String)

namespace Session

def perform (session : Session) : SessionCall → Session
  | .parse source => (session.parse source).2.2
  | .parseStrict source => (session.parseStrict source).2

def performAll (session : Session) (calls : List SessionCall) : Session :=
  calls.foldl perform session

/-- Whether the table of a session is in use and no template is open in it. -/
structure Balanced (session : Session) : Prop where
  reached : session.table.Reachable
  closed : ∀ factory, session.table.stackOf factory = []

theorem balanced_new (options : ParseOptions) : ({ options := options } : Session).Balanced where
  reached := .empty
  closed _ := rfl

theorem Balanced.parse {session : Session} (balanced : session.Balanced) (source : String) :
    (session.parse source).2.2.Balanced := by
  let unit : UnitId := ⟨session.units.size⟩
  constructor
  · exact reachable_parseUnit session.options balanced.reached unit source
  · intro factory
    have within :=
      stacksWithin_parseUnit session.options balanced.reached unit source factory
    rw [balanced.closed factory, List.suffix_nil] at within
    exact within

theorem Balanced.perform {session : Session} (balanced : session.Balanced)
    (call : SessionCall) : (session.perform call).Balanced := by
  cases call with
  | parse source => exact balanced.parse source
  | parseStrict source => exact balanced.parse source

theorem Balanced.performAll {session : Session} (balanced : session.Balanced)
    (calls : List SessionCall) : (session.performAll calls).Balanced := by
  induction calls generalizing session with
  | nil => exact balanced
  | cons call rest ih => exact ih (balanced.perform call)

theorem Balanced.stack_eq_nil {session : Session} (balanced : session.Balanced)
    {id : FactoryId} {factory : TemplateFactory}
    (found : session.table.factory? id = some factory) : factory.stack = [] := by
  simpa [SymbolTable.stackOf, found] using balanced.closed id

theorem Balanced.unbalanced_eq_nil {session : Session} (balanced : session.Balanced) :
    session.table.unbalanced = [] := by
  unfold SymbolTable.unbalanced
  rw [List.filterMap_eq_nil_iff]
  rintro ⟨factory, index⟩ member
  have found : session.table.factory? ⟨index⟩ = some factory := by
    rw [List.mk_mem_zipIdx_iff_getElem?, Array.getElem?_toList] at member
    exact member
  simp [TemplateFactory.depth, balanced.stack_eq_nil found]

/-- In every run of a new session no template is open after any call, the steps of
every factory nest like brackets, and there is nothing to report at the end. -/
theorem factories_balanced (options : ParseOptions) (calls : List SessionCall) :
    (∀ id factory, (({ options := options } : Session).performAll calls).table.factory? id =
        some factory → factory.stack = [] ∧ Bracketed factory.history) ∧
      (({ options := options } : Session).performAll calls).finish.1 = [] := by
  have balanced := (balanced_new options).performAll calls
  constructor
  · intro id factory found
    have closed := balanced.stack_eq_nil found
    have fits := balanced.reached.consistent.factories id factory found
    exact ⟨closed, fits.replays.bracketed closed⟩
  · simp [finish, balanced.unbalanced_eq_nil]

-- A template that is declared closes its frame, one with a name missing is given up.
example : (({} : Session).performAll [.parse "template<class T> void f(T);",
    .parseStrict "template<class T> int;"]).table.factories.map (·.history) =
      #[[.push ⟨1⟩, .pop ⟨1⟩, .push ⟨4⟩, .discard ⟨4⟩]] := by
  decide +kernel

end Session

end DeclTree
