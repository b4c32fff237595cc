import SchemaPlan.Files.Path

/-!
# Files and directories

What a program may ask of the place where files are kept, and a tree of files in memory that
answers it. The entries of a directory are in the order of their names.
-/

namespace SchemaPlan

/-- What a path can lead to. -/
inductive PathKind where
  | file
  | directory
deriving Repr, DecidableEq, Inhabited

/-- Something below a directory, with the names that lead to it from there. -/
structure Descendant where
  names : List String
  kind : PathKind
deriving Repr, DecidableEq, Inhabited

/-- What can be asked of a place where files are kept. A failure comes with its reason. -/
structure FileSystem (m : Type → Type) where
  /-- What a path leads to. -/
  kind? : String → m (Option PathKind)
  /-- The bytes of a file. -/
  read : String → m (Except String ByteArray)
  /-- Gives a file a text, and makes it if need be. -/
  write : String → String → m (Except String Unit)
  /-- The entries of a directory. -/
  entries : String → m (List (String × PathKind))
  /-- All that is below a directory, each directory before its entries. -/
  below : String → m (List Descendant)

/-- A file or a directory in memory. -/
inductive FileTree where
  | file (content : ByteArray)
  | directory (entries : List (String × FileTree))
deriving Inhabited

namespace FileTree

/-- The empty directory. -/
def empty : FileTree := directory []

/-- The kind of a node. -/
def kind : FileTree → PathKind
  | file _ => .file
  | directory _ => .directory

/-- The entries of a directory; a file has none. -/
def children : FileTree → List (String × FileTree)
  | file _ => []
  | directory entries => entries

/-- Entries with one of them replaced or added. -/
def put (name : String) (node : FileTree) : List (String × FileTree) → List (String × FileTree)
  | [] => [(name, node)]
  | (n, t) :: rest =>
    if name = n then (name, node) :: rest
    else if name < n then (name, node) :: (n, t) :: rest
    else (n, t) :: put name node rest

/-- A tree with a file at the end of a row of names; directories are made on the way. -/
def insert (content : ByteArray) : List String → FileTree → FileTree
  | [], _ => file content
  | name :: rest, tree =>
    let below := (tree.children.lookup name).getD empty
    directory (put name (insert content rest below) tree.children)

/-! ## Following a path -/

/-- The names that lead to where a row of parts leads, from a directory that is reached by `names`
and whose chain of directories, innermost first, is given. -/
def follow (names : List String) : List FileTree → List String → Option (List String × FileTree)
  | [], _ => none
  | node :: _, [] => some (names, node)
  | node :: above, part :: rest =>
    match node with
    | file _ => none
    | directory entries =>
      if Path.isIdle part then follow names (node :: above) rest
      else if part = ".." then follow names.dropLast above rest
      else match entries.lookup part with
        | some next => follow (names ++ [part]) (next :: node :: above) rest
        | none => none

/-- The names of what a path leads to, and the node there. Paths from the root lead nowhere. -/
def locate? (tree : FileTree) (path : String) : Option (List String × FileTree) :=
  if path.isEmpty || Path.isAbsolute path then none
  else follow [] [tree] (Path.parts path)

/-- The node that a path leads to. -/
def at? (tree : FileTree) (path : String) : Option FileTree := (tree.locate? path).map (·.2)

/-- The bytes of the file that a path leads to. -/
def content? (tree : FileTree) (path : String) : Option ByteArray :=
  match tree.at? path with
  | some (file content) => some content
  | _ => none

/-- The tree with a file of a given text at a path, unless its directory is missing. -/
def written? (tree : FileTree) (path text : String) : Option FileTree :=
  match (Path.parts path).reverse with
  | [] => none
  | name :: above =>
    let place := if above.isEmpty then some ([], tree)
      else tree.locate? (Text.joinWith "/" above.reverse)
    match place with
    | some (names, directory entries) =>
      let isTaken := (entries.lookup name).any (·.kind == .directory)
      if Path.isIdle name || name = ".." || isTaken then none
      else some (insert text.toUTF8 (names ++ [name]) tree)
    | _ => none

/-! ## Walking -/

mutual

/-- All that is below a node that is reached by `names`. -/
def descendants (names : List String) : FileTree → List Descendant
  | file _ => []
  | directory entries => descendantsOf names entries

/-- The entries of a directory that is reached by `names`, and all that is below them. -/
def descendantsOf (names : List String) : List (String × FileTree) → List Descendant
  | [] => []
  | (name, node) :: rest =>
    let here := names ++ [name]
    ⟨here, node.kind⟩ :: descendants here node ++ descendantsOf names rest

end

/-! ## As a file system -/

/-- A tree in memory as a place where files are kept. -/
def fileSystem : FileSystem (StateM FileTree) where
  kind? path := return ((← get).at? path).map kind
  read path := do
    match (← get).at? path with
    | some (file content) => return .ok content
    | some (directory _) => return .error "is a directory"
    | none => return .error "no such file or directory"
  write path text := do
    match (← get).written? path text with
    | some tree => set tree; return .ok ()
    | none => return .error "no such file or directory"
  entries path := do
    let found := ((← get).at? path).map children
    return (found.getD []).map fun (name, node) => (name, node.kind)
  below path := return (((← get).at? path).map (descendants [])).getD []

end FileTree

end SchemaPlan
