/-!
# Declaration specifiers

Words that say something about a declaration without being part of its type.
A set of specifiers lists them in one fixed order, each at most once.
-/

namespace DeclTree

/-- A word that marks a declaration. -/
inductive Specifier
  | static
  | external
  | inlined
  | virtual
  | explicit
  | constexpr
  | mutable
  | threadLocal
  | register
  | friend
  | pure
  | defaulted
  | deleted
  | overriding
  | final
  deriving DecidableEq

namespace Specifier

def all : List Specifier :=
  [.static, .external, .inlined, .virtual, .explicit, .constexpr, .mutable, .threadLocal,
    .register, .friend, .pure, .defaulted, .deleted, .overriding, .final]

def label : Specifier → String
  | .static => "STATIC"
  | .external => "EXTERN"
  | .inlined => "INLINE"
  | .virtual => "VIRTUAL"
  | .explicit => "EXPLICIT"
  | .constexpr => "CONSTEXPR"
  | .mutable => "MUTABLE"
  | .threadLocal => "THREAD_LOCAL"
  | .register => "REGISTER"
  | .friend => "FRIEND"
  | .pure => "PURE"
  | .defaulted => "DEFAULTED"
  | .deleted => "DELETED"
  | .overriding => "OVERRIDE"
  | .final => "FINAL"

theorem mem_all (specifier : Specifier) : specifier ∈ all := by
  cases specifier <;> decide

end Specifier

structure Specifiers where
  listed : List Specifier := []
  deriving DecidableEq

namespace Specifiers

def contains (specifiers : Specifiers) (specifier : Specifier) : Bool :=
  specifiers.listed.contains specifier

def insert (specifiers : Specifiers) (specifier : Specifier) : Specifiers where
  listed := Specifier.all.filter fun other =>
    other == specifier || specifiers.contains other

theorem contains_insert (specifiers : Specifiers) (specifier other : Specifier) :
    (specifiers.insert specifier).contains other =
      (other == specifier || specifiers.contains other) := by
  simp only [insert, contains, List.contains_eq_mem, List.mem_filter, Specifier.mem_all,
    true_and, Bool.decide_eq_true]

end Specifiers

end DeclTree
