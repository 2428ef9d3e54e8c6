import DeclTree.Walk.Basic

/-!
# Outlines

The outline of a unit is a tree of labelled entries, one for each declaration,
with the bytes it covers.  A template that holds one declaration is folded into
that declaration, which takes over its range and shows its parameters.
-/

namespace DeclTree

inductive OutlineKind
  | namespaceScope
  | linkage
  | classType (key : ClassKey)
  | enumType
  | enumerator
  | function
  | var
  | typedef
  | usingDirective
  | template
  deriving DecidableEq

def OutlineKind.text : OutlineKind → String
  | .namespaceScope => "namespace"
  | .linkage => "linkage"
  | .classType key => key.text
  | .enumType => "enum"
  | .enumerator => "enumerator"
  | .function => "function"
  | .var => "variable"
  | .typedef => "typedef"
  | .usingDirective => "using"
  | .template => "template"

/-- An entry of an outline. -/
inductive OutlineEntry
  | mk (label : String) (kind : OutlineKind) (detail : Option String) (start length : Nat)
      (children : List OutlineEntry)

namespace OutlineEntry

def label : OutlineEntry → String
  | mk label .. => label

def kind : OutlineEntry → OutlineKind
  | mk _ kind .. => kind

/-- The type of the declaration, where it is shown. -/
def detail : OutlineEntry → Option String
  | mk _ _ detail .. => detail

def start : OutlineEntry → Nat
  | mk _ _ _ start .. => start

def length : OutlineEntry → Nat
  | mk _ _ _ _ length _ => length

def children : OutlineEntry → List OutlineEntry
  | mk _ _ _ _ _ children => children

/-- The same entry over other bytes. -/
def moveTo (entry : OutlineEntry) (start length : Nat) : OutlineEntry :=
  mk entry.label entry.kind entry.detail start length entry.children

/-- An entry on a line of its own, and the entries inside it indented below. -/
def lines (depth : Nat) : OutlineEntry → List String
  | mk label kind detail _ _ children =>
      let indent := String.ofList (List.replicate (2 * depth) ' ')
      let shown := (detail.map (" : " ++ ·)).getD ""
      (indent ++ kind.text ++ " " ++ label ++ shown ++ "\n") ::
        (children.map (lines (depth + 1))).flatten

/-- The text of an entry with all inside it. -/
def text (entry : OutlineEntry) : String :=
  String.join (entry.lines 0)

end OutlineEntry

/-- An entry that is still being filled: its name, the types of its parameters
if it is a function, and the template parameters it shows. -/
structure OpenEntry where
  kind : OutlineKind
  name : String
  detail : Option String := none
  start : Nat
  length : Nat
  parameters : Option (List String) := none
  arguments : List String := []
  children : List OutlineEntry := []

/-- A name with template parameters and function parameters behind it. -/
def composeLabel (name : String) (arguments : List String)
    (parameters : Option (List String)) : String :=
  let shownArguments :=
    if arguments.isEmpty then "" else "<" ++ ", ".intercalate arguments ++ ">"
  let shownParameters :=
    match parameters with
    | some parameters => "(" ++ ", ".intercalate parameters ++ ")"
    | none => ""
  name ++ shownArguments ++ shownParameters

/-- The entry that an open one becomes. -/
def OpenEntry.finish (entry : OpenEntry) : OutlineEntry :=
  .mk (composeLabel entry.name entry.arguments entry.parameters) entry.kind entry.detail
    entry.start entry.length entry.children

/-- An outline in the making: the open entries, innermost first, and the
finished ones at the top. -/
structure OutlineBuilder where
  stack : List OpenEntry := []
  roots : List OutlineEntry := []

namespace OutlineBuilder

def displayName (name : String) : String :=
  if name = "" then "(anonymous)" else name

def qualified (qualifier : Option String) (name : String) : String :=
  match qualifier with
  | some qualifier => qualifier ++ "::" ++ name
  | none => name

/-- The template parameters that an entry inside the innermost open one
shows. -/
def inherited (builder : OutlineBuilder) : List String :=
  match builder.stack with
  | entry :: _ => if entry.kind = .template then entry.arguments else []
  | [] => []

def openEntry (builder : OutlineBuilder) (kind : OutlineKind) (node : Node) (name : String) :
    OpenEntry where
  kind := kind
  name := name
  start := node.range.startOffset
  length := node.range.length
  arguments := builder.inherited

def push (builder : OutlineBuilder) (entry : OpenEntry) : OutlineBuilder :=
  { builder with stack := entry :: builder.stack }

def attach (builder : OutlineBuilder) (entry : OutlineEntry) : OutlineBuilder :=
  match builder.stack with
  | parent :: outer =>
      { builder with
        stack := { parent with children := parent.children ++ [entry] } :: outer }
  | [] => { builder with roots := builder.roots ++ [entry] }

def leaf (builder : OutlineBuilder) (kind : OutlineKind) (node : Node) (name : String)
    (detail : Option String) : OutlineBuilder :=
  builder.attach (.mk (composeLabel name builder.inherited none) kind detail
    node.range.startOffset node.range.length [])

/-- A failure with one reason. -/
def fail (builder : OutlineBuilder) (reason : String) : Option Failure × OutlineBuilder :=
  (some ⟨[reason]⟩, builder)

def close (builder : OutlineBuilder) : Option Failure × OutlineBuilder :=
  match builder.stack with
  | [] => builder.fail "exit event without a matching enter"
  | entry :: outer => (none, { builder with stack := outer }.attach entry.finish)

/-- Finish a template: a single declaration inside takes its place. -/
def closeTemplate (builder : OutlineBuilder) : Option Failure × OutlineBuilder :=
  match builder.stack with
  | [] => builder.fail "exit event without a matching enter"
  | entry :: outer =>
      let rest : OutlineBuilder := { builder with stack := outer }
      match entry.children with
      | [owned] => (none, rest.attach (owned.moveTo entry.start entry.length))
      | _ => (none, rest.attach entry.finish)

def enter (builder : OutlineBuilder) (node : Node) : Option Failure × OutlineBuilder :=
  match node.kind with
  | .namespaceScope declaration =>
      (none, builder.push (builder.openEntry .namespaceScope node (displayName declaration.name)))
  | .linkage language =>
      (none, builder.push (builder.openEntry .linkage node ("extern \"" ++ language ++ "\"")))
  | .classType declaration =>
      (none, builder.push
        (builder.openEntry (.classType declaration.key) node (displayName declaration.name)))
  | .enumType declaration =>
      (none, builder.push
        { builder.openEntry .enumType node (displayName declaration.name) with
          detail := declaration.underlying.map TypeRef.text })
  | .function declaration =>
      let entry :=
        builder.openEntry .function node (qualified declaration.qualifier declaration.name)
      (none, builder.push
        { entry with
          detail := declaration.returnType.map TypeRef.text
          parameters := some []
          arguments := if declaration.qualifier.isSome then [] else entry.arguments })
  | .template _ => (none, builder.push (builder.openEntry .template node "template"))
  | _ => (none, builder)

def exit (builder : OutlineBuilder) (node : Node) : Option Failure × OutlineBuilder :=
  match node.kind with
  | .translationUnit .. =>
      if builder.stack.isEmpty then (none, builder)
      else builder.fail (toString builder.stack.length ++ " outline entries left open")
  | .template _ => builder.closeTemplate
  | _ => builder.close

/-- Note the type of a parameter in the innermost entry. -/
def addParameter (builder : OutlineBuilder) (declaration : ParameterDecl) :
    Option Failure × OutlineBuilder :=
  match builder.stack with
  | [] => builder.fail "parameter outside of a function"
  | entry :: outer =>
      let text := declaration.type.text
      let shown := if declaration.isVariadic && text != "..." then text ++ "..." else text
      (none, { builder with
        stack := { entry with parameters := some (entry.parameters.getD [] ++ [shown]) } :: outer })

/-- Note a template parameter in the innermost entry. -/
def addArgument (builder : OutlineBuilder) (declaration : TemplateParameterDecl) :
    Option Failure × OutlineBuilder :=
  match builder.stack with
  | [] => builder.fail "template parameter outside of a template declaration"
  | entry :: outer =>
      let name := declaration.name.getD ""
      let shown := if declaration.isVariadic then name ++ "..." else name
      (none, { builder with
        stack := { entry with arguments := entry.arguments ++ [shown] } :: outer })

def accept (builder : OutlineBuilder) (node : Node) : Option Failure × OutlineBuilder :=
  match node.kind with
  | .var declaration =>
      (none, builder.leaf .var node (qualified declaration.qualifier declaration.name)
        (some declaration.type.text))
  | .typedef declaration =>
      (none, builder.leaf .typedef node declaration.name (some declaration.type.text))
  | .enumerator declaration => (none, builder.leaf .enumerator node declaration.name none)
  | .parameter declaration => builder.addParameter declaration
  | .templateParameter declaration => builder.addArgument declaration
  | .usingDirective declaration =>
      (none, builder.leaf .usingDirective node ("namespace " ++ declaration.path) none)
  | _ => (none, builder)

def visitor : Visitor OutlineBuilder where
  visit event _ node builder :=
    match event with
    | .enter => builder.enter node
    | .exit => builder.exit node
    | .accept => builder.accept node

end OutlineBuilder

/-- The outline of a unit; it fails if the walk over the tree does. -/
def Tree.outline (tree : Tree) : Except String (List OutlineEntry) :=
  let walk := tree.walk OutlineBuilder.visitor .carryOn {}
  match walk.report.diagnostics with
  | fault :: _ => .error ("outline walk failed: " ++ fault.text)
  | [] => .ok walk.state.roots

end DeclTree
