import SchemaPlan.Xml.Markup

/-!
# Documents as trees

The tree of elements that the pieces of a document make. A document has one element that holds all
others; tags match, spaces of names are declared, and no element has an attribute twice.
-/

namespace SchemaPlan.Xml

/-- A node of a document. -/
inductive Node where
  | element (name : String) (attributes : List (Name × String)) (children : List Node)
  | text (value : String)
  /-- A comment or an instruction. -/
  | aside
deriving Repr, Inhabited

/-! ## Spaces of names -/

/-- The declared spaces: the short form of each with what it stands for, innermost first. -/
abbrev Spaces := List (String × String)

/-- What the short form `xml` always stands for. -/
def xmlSpace : String := "http://www.w3.org/XML/1998/namespace"

/-- What the short form of declarations always stands for. -/
def declarationSpace : String := "http://www.w3.org/2000/xmlns/"

/-- The short form under which spaces are declared. -/
def declarer : String := "xmlns"

/-- The spaces that attributes declare, if every declaration is allowed. Names without a space are
declared by an attribute of their own, which the tree has no use for. -/
def declared? : List (Name × String) → Option Spaces
  | [] => some []
  | (name, value) :: rest =>
    (declared? rest).bind fun spaces =>
      if name.space = declarer then
        if value = declarationSpace || (name.name = "xml") != (value = xmlSpace) ||
            spaces.any (·.1 == name.name) then none
        else if value = xmlSpace then some spaces
        else some ((name.name, value) :: spaces)
      else if name.name = declarer then
        if value = xmlSpace || value = declarationSpace then none else some spaces
      else some spaces

/-- Whether an attribute declares a space. -/
def isDeclaration (name : Name) : Bool := name.space == declarer || name.name == declarer

/-- The name of an attribute with what its space stands for, if that is declared. -/
def fullName? (spaces : Spaces) (name : Name) : Option (Option String × String) :=
  if name.space = "" then some (none, name.name)
  else if name.space = "xml" then some (some xmlSpace, name.name)
  else (spaces.lookup name.space).map fun space => (some space, name.name)

/-- Whether no two elements of a list are equal. -/
def allDistinct {α : Type} [BEq α] : List α → Bool
  | [] => true
  | a :: rest => !rest.contains a && allDistinct rest

/-- The spaces inside an element and its attributes, if its names are declared and distinct. -/
def enter? (outer : Spaces) (name : Name) (attributes : List (Name × String)) :
    Option (Spaces × List (Name × String)) := do
  let spaces := (← declared? attributes) ++ outer
  let own := attributes.filter fun (n, _) => !isDeclaration n
  let names ← own.mapM fun (n, _) => fullName? spaces n
  let isKnown := name.space = "" || (spaces.any (·.1 == name.space) && name.space ≠ declarer)
  if isKnown && allDistinct names then some (spaces, own) else none

/-! ## Building -/

/-- An element that is not closed yet, with its children so far, last one first. -/
structure OpenElement where
  name : Name
  attributes : List (Name × String)
  spaces : Spaces
  children : List Node
deriving Inhabited

/-- The elements that are open, innermost first, and the closed element that holds all others. -/
structure Builder where
  stack : List OpenElement := []
  root : Option Node := none
deriving Inhabited

/-- Children, last one first, with a text at their end. Neighbouring texts are one. -/
def addText (value : String) : List Node → List Node
  | .text before :: rest => .text (before ++ value) :: rest
  | children => .text value :: children

namespace Builder

/-- The builder with a change to the children of the innermost open element. -/
def addTo (builder : Builder) (change : List Node → List Node) : Option Builder :=
  match builder.stack with
  | [] => none
  | top :: above => some { builder with stack := { top with children := change top.children } :: above }

/-- The builder after a piece of markup. -/
def step (builder : Builder) : Markup → Option Builder
  | .opening name attributes =>
    let outer := (builder.stack.head?.map (·.spaces)).getD []
    if builder.stack.isEmpty && builder.root.isSome then none
    else (enter? outer name attributes).map fun (spaces, own) =>
      { builder with stack := ⟨name, own, spaces, []⟩ :: builder.stack }
  | .closing name =>
    match builder.stack with
    | [] => none
    | top :: above =>
      if top.name = name then
        let node := Node.element name.name top.attributes top.children.reverse
        if above.isEmpty then some ⟨[], some node⟩
        else { builder with stack := above }.addTo (node :: ·)
      else none
  | .text raw =>
    if builder.stack.isEmpty then if raw.all isBlank then some builder else none
    else (textValue? raw).bind fun value => builder.addTo (addText value)
  | .verbatim raw => do
    -- line ends are written in one way, and nothing in the text is a reference
    let value ← textValue? (raw.flatMap fun c => if c = '&' then "&amp;".toList else [c])
    builder.addTo (addText value)
  | .aside => if builder.stack.isEmpty then some builder else builder.addTo (.aside :: ·)

end Builder

/-- The element of a document that holds all others, if the document is well formed. -/
def parse? (text : String) : Option Node := do
  let builder ← (← markupOf? text).foldlM Builder.step {}
  if builder.stack.isEmpty then builder.root else none

/-! ## Looking around -/

namespace Node

/-- The name of an element without its space; other nodes have none. -/
def name : Node → String
  | element name _ _ => name
  | _ => ""

/-- The value of an attribute of an element, by its name alone. -/
def attribute? (node : Node) (name : String) : Option String :=
  match node with
  | element _ attributes _ => attributes.lookup ⟨"", name⟩
  | _ => none

/-- The text with which an element starts. -/
def text? : Node → Option String
  | element _ _ (text value :: _) => some value
  | _ => none

mutual

/-- A node and all that is below it, each node before its children. -/
def all : Node → List Node
  | element name attributes children => element name attributes children :: allOf children
  | text value => [text value]
  | aside => [aside]

/-- Nodes and all that is below them. -/
def allOf : List Node → List Node
  | [] => []
  | node :: rest => all node ++ allOf rest

end

/-- The elements of a name, at any depth. -/
def named (node : Node) (name : String) : List Node :=
  node.all.filter fun found => found.name == name

end Node

end SchemaPlan.Xml
