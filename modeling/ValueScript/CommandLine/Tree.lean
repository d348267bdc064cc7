import ValueScript.CommandLine.Files
import ValueScript.CommandLine.Path

/-! Files kept in memory, as a tree of directories without links. -/

namespace ValueScript

/-- A place as the names that lead to it from the root, innermost first. -/
abbrev FilePlace := List String

/-- What there is by place, and the directory that relative paths start from. -/
structure Tree where
  nodes : List (FilePlace × FileNode)
  base : FilePlace

namespace Tree

def empty : Tree := ⟨[], ["home"]⟩

/-- The node at a place. The base and all that encloses it are always directories. -/
def find? (tree : Tree) (place : FilePlace) : Option FileNode :=
  if place.isSuffixOf tree.base then some .directory
  else (tree.nodes.find? (fun node => node.1 == place)).map Prod.snd

def insert (tree : Tree) (place : FilePlace) (node : FileNode) : Tree :=
  { tree with nodes := (place, node) :: tree.nodes.filter (fun other => other.1 != place) }

/-- Where a path starts: at the root if it begins with a slash. -/
def start (tree : Tree) (path : String) : FilePlace :=
  if path.startsWith "/" then [] else tree.base

/-- Where names lead from a place. The root is its own parent. -/
def enter (tree : Tree) (place : FilePlace) : List String → Except FileError FilePlace
  | [] => .ok place
  | "." :: rest => tree.enter place rest
  | ".." :: rest => tree.enter place.tail rest
  | name :: rest =>
    match tree.find? (name :: place) with
    | none => .error .notFound
    | some (.file _) => .error .notDirectory
    | some .directory => tree.enter (name :: place) rest

/-- Where a path leads to: a place, and whether the path can only mean a directory. -/
def target (tree : Tree) (path : String) : Except FileError (FilePlace × Bool) :=
  match (Path.segments path).reverse with
  | [] => if path.startsWith "/" then .ok ([], true) else .error .notFound
  | last :: before => do
    let place ← tree.enter (tree.start path) before.reverse
    match last with
    | "." => return (place, true)
    | ".." => return (place.tail, true)
    | name => return (name :: place, path.endsWith "/")

def read (tree : Tree) (path : String) : Except FileError ByteArray := do
  let (place, directory) ← tree.target path
  match tree.find? place with
  | none => throw .notFound
  | some .directory => throw .isDirectory
  | some (.file content) => if directory then throw .notDirectory else return content

/-- The tree after writing a file, which makes it or replaces its content. -/
def write (tree : Tree) (path : String) (content : String) : Except FileError Tree := do
  let (place, directory) ← tree.target path
  match tree.find? place with
  | some .directory => throw .isDirectory
  | _ => if directory then throw .isDirectory else return tree.insert place (.file content.toUTF8)

/-- The tree after a node is put at a path, with all the directories that enclose it. -/
def put (tree : Tree) (path : String) (node : FileNode) : Tree :=
  let place := ((Path.segments path).filter (· ≠ ".")).reverse ++ tree.start path
  let enclosing := (List.range place.length).map fun depth => place.drop (depth + 1)
  let tree := enclosing.foldr (fun place tree =>
    if (tree.find? place).isSome then tree else tree.insert place .directory) tree
  tree.insert place node

def access : FileAccess (StateM Tree) where
  read path := return (← get).read path
  write path content := do
    match (← get).write path content with
    | .ok tree => set tree; return .ok ()
    | .error cause => return .error cause

end Tree

end ValueScript
