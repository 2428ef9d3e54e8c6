/-!
# Keywords

The reserved words of the two dialects.  Some words are reserved in both, some
only in C++, and `restrict` only in C; a word that is not reserved in a dialect
is an ordinary identifier there.
-/

namespace DeclTree

/-- The language a source text is read as. -/
inductive Dialect
  | c
  | cpp
  deriving DecidableEq

/-- A reserved word. -/
inductive Keyword
  | autoKw
  | boolKw
  | charKw
  | char8Kw
  | char16Kw
  | char32Kw
  | doubleKw
  | floatKw
  | intKw
  | longKw
  | shortKw
  | signedKw
  | unsignedKw
  | voidKw
  | wCharKw
  | constKw
  | constexprKw
  | constevalKw
  | constinitKw
  | explicitKw
  | externKw
  | friendKw
  | inlineKw
  | mutableKw
  | registerKw
  | restrictKw
  | staticKw
  | threadLocalKw
  | virtualKw
  | volatileKw
  | alignasKw
  | classKw
  | decltypeKw
  | enumKw
  | exportKw
  | namespaceKw
  | operatorKw
  | privateKw
  | protectedKw
  | publicKw
  | staticAssertKw
  | structKw
  | templateKw
  | typedefKw
  | typenameKw
  | unionKw
  | usingKw
  | breakKw
  | caseKw
  | catchKw
  | continueKw
  | defaultKw
  | deleteKw
  | doKw
  | elseKw
  | falseKw
  | forKw
  | gotoKw
  | ifKw
  | newKw
  | noexceptKw
  | nullptrKw
  | returnKw
  | sizeofKw
  | switchKw
  | thisKw
  | throwKw
  | trueKw
  | tryKw
  | whileKw
  deriving DecidableEq

namespace Keyword

def spelling : Keyword → String
  | .autoKw => "auto"
  | .boolKw => "bool"
  | .charKw => "char"
  | .char8Kw => "char8_t"
  | .char16Kw => "char16_t"
  | .char32Kw => "char32_t"
  | .doubleKw => "double"
  | .floatKw => "float"
  | .intKw => "int"
  | .longKw => "long"
  | .shortKw => "short"
  | .signedKw => "signed"
  | .unsignedKw => "unsigned"
  | .voidKw => "void"
  | .wCharKw => "wchar_t"
  | .constKw => "const"
  | .constexprKw => "constexpr"
  | .constevalKw => "consteval"
  | .constinitKw => "constinit"
  | .explicitKw => "explicit"
  | .externKw => "extern"
  | .friendKw => "friend"
  | .inlineKw => "inline"
  | .mutableKw => "mutable"
  | .registerKw => "register"
  | .restrictKw => "restrict"
  | .staticKw => "static"
  | .threadLocalKw => "thread_local"
  | .virtualKw => "virtual"
  | .volatileKw => "volatile"
  | .alignasKw => "alignas"
  | .classKw => "class"
  | .decltypeKw => "decltype"
  | .enumKw => "enum"
  | .exportKw => "export"
  | .namespaceKw => "namespace"
  | .operatorKw => "operator"
  | .privateKw => "private"
  | .protectedKw => "protected"
  | .publicKw => "public"
  | .staticAssertKw => "static_assert"
  | .structKw => "struct"
  | .templateKw => "template"
  | .typedefKw => "typedef"
  | .typenameKw => "typename"
  | .unionKw => "union"
  | .usingKw => "using"
  | .breakKw => "break"
  | .caseKw => "case"
  | .catchKw => "catch"
  | .continueKw => "continue"
  | .defaultKw => "default"
  | .deleteKw => "delete"
  | .doKw => "do"
  | .elseKw => "else"
  | .falseKw => "false"
  | .forKw => "for"
  | .gotoKw => "goto"
  | .ifKw => "if"
  | .newKw => "new"
  | .noexceptKw => "noexcept"
  | .nullptrKw => "nullptr"
  | .returnKw => "return"
  | .sizeofKw => "sizeof"
  | .switchKw => "switch"
  | .thisKw => "this"
  | .throwKw => "throw"
  | .trueKw => "true"
  | .tryKw => "try"
  | .whileKw => "while"

def label : Keyword → String
  | .autoKw => "Auto"
  | .boolKw => "Bool"
  | .charKw => "Char"
  | .char8Kw => "Char8"
  | .char16Kw => "Char16"
  | .char32Kw => "Char32"
  | .doubleKw => "Double"
  | .floatKw => "Float"
  | .intKw => "Int"
  | .longKw => "Long"
  | .shortKw => "Short"
  | .signedKw => "Signed"
  | .unsignedKw => "Unsigned"
  | .voidKw => "Void"
  | .wCharKw => "WChar"
  | .constKw => "Const"
  | .constexprKw => "Constexpr"
  | .constevalKw => "Consteval"
  | .constinitKw => "Constinit"
  | .explicitKw => "Explicit"
  | .externKw => "Extern"
  | .friendKw => "Friend"
  | .inlineKw => "Inline"
  | .mutableKw => "Mutable"
  | .registerKw => "Register"
  | .restrictKw => "Restrict"
  | .staticKw => "Static"
  | .threadLocalKw => "ThreadLocal"
  | .virtualKw => "Virtual"
  | .volatileKw => "Volatile"
  | .alignasKw => "Alignas"
  | .classKw => "Class"
  | .decltypeKw => "Decltype"
  | .enumKw => "Enum"
  | .exportKw => "Export"
  | .namespaceKw => "Namespace"
  | .operatorKw => "Operator"
  | .privateKw => "Private"
  | .protectedKw => "Protected"
  | .publicKw => "Public"
  | .staticAssertKw => "StaticAssert"
  | .structKw => "Struct"
  | .templateKw => "Template"
  | .typedefKw => "Typedef"
  | .typenameKw => "Typename"
  | .unionKw => "Union"
  | .usingKw => "Using"
  | .breakKw => "Break"
  | .caseKw => "Case"
  | .catchKw => "Catch"
  | .continueKw => "Continue"
  | .defaultKw => "Default"
  | .deleteKw => "Delete"
  | .doKw => "Do"
  | .elseKw => "Else"
  | .falseKw => "False"
  | .forKw => "For"
  | .gotoKw => "Goto"
  | .ifKw => "If"
  | .newKw => "New"
  | .noexceptKw => "Noexcept"
  | .nullptrKw => "Nullptr"
  | .returnKw => "Return"
  | .sizeofKw => "Sizeof"
  | .switchKw => "Switch"
  | .thisKw => "This"
  | .throwKw => "Throw"
  | .trueKw => "True"
  | .tryKw => "Try"
  | .whileKw => "While"

/-- The words reserved in both dialects, among them the older spellings of
`bool`, `static_assert`, `thread_local` and `alignas`. -/
def shared : List (String × Keyword) :=
  [("auto", .autoKw), ("break", .breakKw), ("case", .caseKw), ("char", .charKw),
    ("const", .constKw), ("continue", .continueKw), ("default", .defaultKw),
    ("do", .doKw), ("double", .doubleKw), ("else", .elseKw), ("enum", .enumKw),
    ("extern", .externKw), ("float", .floatKw), ("for", .forKw), ("goto", .gotoKw),
    ("if", .ifKw), ("inline", .inlineKw), ("int", .intKw), ("long", .longKw),
    ("register", .registerKw), ("return", .returnKw), ("short", .shortKw),
    ("signed", .signedKw), ("sizeof", .sizeofKw), ("static", .staticKw),
    ("struct", .structKw), ("switch", .switchKw), ("typedef", .typedefKw),
    ("union", .unionKw), ("unsigned", .unsignedKw), ("void", .voidKw),
    ("volatile", .volatileKw), ("while", .whileKw), ("_Bool", .boolKw),
    ("_Static_assert", .staticAssertKw), ("_Thread_local", .threadLocalKw),
    ("_Alignas", .alignasKw)]

def cppOnly : List (String × Keyword) :=
  [("alignas", .alignasKw), ("bool", .boolKw), ("catch", .catchKw),
    ("char8_t", .char8Kw), ("char16_t", .char16Kw), ("char32_t", .char32Kw),
    ("class", .classKw), ("consteval", .constevalKw), ("constexpr", .constexprKw),
    ("constinit", .constinitKw), ("decltype", .decltypeKw), ("delete", .deleteKw),
    ("explicit", .explicitKw), ("export", .exportKw), ("false", .falseKw),
    ("friend", .friendKw), ("mutable", .mutableKw), ("namespace", .namespaceKw),
    ("new", .newKw), ("noexcept", .noexceptKw), ("nullptr", .nullptrKw),
    ("operator", .operatorKw), ("private", .privateKw), ("protected", .protectedKw),
    ("public", .publicKw), ("static_assert", .staticAssertKw),
    ("template", .templateKw), ("this", .thisKw), ("thread_local", .threadLocalKw),
    ("throw", .throwKw), ("true", .trueKw), ("try", .tryKw),
    ("typename", .typenameKw), ("using", .usingKw), ("virtual", .virtualKw),
    ("wchar_t", .wCharKw)]

/-- The keyword that a word is in a dialect, if it is reserved there. -/
def ofWord? (dialect : Dialect) (word : String) : Option Keyword :=
  match dialect with
  | .c => if word = "restrict" then some .restrictKw else shared.lookup word
  | .cpp => (shared.lookup word).or (cppOnly.lookup word)

def isBuiltinType : Keyword → Bool
  | .autoKw | .boolKw | .charKw | .char8Kw | .char16Kw | .char32Kw | .doubleKw
  | .floatKw | .intKw | .longKw | .shortKw | .signedKw | .unsignedKw | .voidKw
  | .wCharKw => true
  | _ => false

def isQualifier : Keyword → Bool
  | .constKw | .volatileKw | .restrictKw => true
  | _ => false

def isLiteral : Keyword → Bool
  | .trueKw | .falseKw | .nullptrKw => true
  | _ => false

end Keyword

end DeclTree
