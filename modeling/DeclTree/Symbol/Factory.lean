import DeclTree.Handle
import DeclTree.Symbol.Error

/-!
# Template factories

While templates in a scope are being read, a factory keeps the stack of those
still open.  Each template prefix opens a frame; the declaration it introduces
closes the frames, innermost first, and a prefix without a declaration is
discarded.  The history records every step, so frames nest like brackets.
-/

namespace DeclTree

/-- One step in the life of a factory. -/
inductive FactoryEvent
  | push (template : SymbolId)
  | pop (template : SymbolId)
  | discard (template : SymbolId)
  deriving DecidableEq

/-- The open templates of a scope, innermost first, and all steps so far. -/
structure TemplateFactory where
  container : SymbolId
  stack : List SymbolId := []
  history : List FactoryEvent := []
  deriving DecidableEq

namespace TemplateFactory

def push (factory : TemplateFactory) (template : SymbolId) : TemplateFactory :=
  { factory with
    stack := template :: factory.stack
    history := factory.history ++ [.push template] }

def pop? (factory : TemplateFactory) : Option (SymbolId × TemplateFactory) :=
  match factory.stack with
  | [] => none
  | template :: stack =>
      some (template,
        { factory with stack := stack, history := factory.history ++ [.pop template] })

/-- The factory behind the closing of its innermost frame; one without a frame
stays as it is. -/
def popped (factory : TemplateFactory) : TemplateFactory :=
  (factory.pop?.map (·.2)).getD factory

/-- Whether a template still has an open frame. -/
def isPending (factory : TemplateFactory) (template : SymbolId) : Bool :=
  factory.stack.contains template

/-- The frames opened since a template's latest frame, innermost first, that
frame included. -/
def above (template : SymbolId) : List SymbolId → List SymbolId
  | [] => []
  | frame :: stack => if frame = template then [frame] else frame :: above template stack

/-- Give up a template and every frame opened after it.  A template without a
frame changes nothing. -/
def discard (factory : TemplateFactory) (template : SymbolId) : TemplateFactory :=
  if factory.isPending template then
    let released := above template factory.stack
    { factory with
      stack := factory.stack.drop released.length
      history := factory.history ++ released.map .discard }
  else
    factory

def current? (factory : TemplateFactory) : Option SymbolId :=
  factory.stack.head?

def depth (factory : TemplateFactory) : Nat :=
  factory.stack.length

/-- A factory may be let go once no frame is open. -/
def release (factory : TemplateFactory) : Except SymbolError Unit :=
  if factory.stack.isEmpty then .ok ()
  else .error (.unbalancedFactory factory.depth)

end TemplateFactory

end DeclTree
