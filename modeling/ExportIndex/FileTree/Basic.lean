import ExportIndex.Path

/-!
# File trees

A file tree is what the program sees of the disk: files with their bytes, directories with named
entries, and the directory that relative paths start from.

* `Node` is a file or a directory.  Entries are kept in increasing order of their names.
* A path is followed piece by piece: each piece but the last has to lead to a directory, and so has
  the last one if a slash or a `.` follows it.
* `read` and `write` fail as a file system does, and a failed `write` has no effect.
-/

namespace ExportIndex

/-- A file or a directory. -/
inductive Node where
  | file (content : ByteArray)
  | directory (entries : List (String × Node))

namespace Node

/-- The entry of a name. -/
def child? (name : String) (entries : List (String × Node)) : Option Node :=
  (entries.find? (·.1 == name)).map Prod.snd

/-- Puts an entry in its place among increasing entries; an entry of the same name gives way. -/
def putEntry (name : String) (node : Node) : List (String × Node) → List (String × Node)
  | [] => [(name, node)]
  | first :: rest =>
    if name < first.1 then (name, node) :: first :: rest
    else if name = first.1 then (name, node) :: rest
    else first :: putEntry name node rest

/-- A directory without entries. -/
def emptyDirectory : Node :=
  .directory []

/-- Whether a node is a directory. -/
def isDirectory : Node → Bool
  | .file _ => false
  | .directory _ => true

/-- The entries of a directory; a file has none. -/
def entries : Node → List (String × Node)
  | .file _ => []
  | .directory entries => entries

/-- The node that a list of names leads to. -/
def get? (node : Node) : List String → Option Node
  | [] => some node
  | name :: names => (child? name node.entries).bind (·.get? names)

/-- The node with another one at the end of a list of names; directories are made on the way. -/
def put (node : Node) (names : List String) (content : Node) : Node :=
  match names with
  | [] => content
  | name :: names =>
    let inner := (child? name node.entries).getD emptyDirectory
    .directory (putEntry name (inner.put names content) node.entries)

end Node

/-- What a path meets on the disk. -/
inductive Fault where
  /-- A name is not there. -/
  | missing
  /-- A name on the way is a file. -/
  | notDirectory
  /-- The path leads to a directory. -/
  | isDirectory
  /-- The bytes of the file are not UTF-8. -/
  | invalidText
  deriving DecidableEq, Repr

/-- The wording of a fault. -/
def Fault.message : Fault → String
  | .missing => "No such file or directory (os error 2)"
  | .notDirectory => "Not a directory (os error 20)"
  | .isDirectory => "Is a directory (os error 21)"
  | .invalidText => "stream did not contain valid UTF-8"

/-- A tree of files and the directory that relative paths start from. -/
structure FileTree where
  root : Node
  /-- The names that lead from the root to the starting directory. -/
  here : List String

namespace FileTree

/-- Follows the pieces of a path from the directory that the names of `trail`, the last one first,
lead to. -/
def follow (root : Node) (trail : List String) : List String → Except Fault (List String)
  | [] => .ok trail
  | piece :: rest =>
    match root.get? trail.reverse with
    | none => .error .missing
    | some (.file _) => .error .notDirectory
    | some (.directory entries) =>
      if piece = "" ∨ piece = "." then follow root trail rest
      else if piece = ".." then follow root trail.tail rest
      else if (Node.child? piece entries).isSome then follow root (piece :: trail) rest
      else .error .missing

/-- The names, the last one first, of the directory that a path starts from. -/
def startTrail (tree : FileTree) (path : String) : List String :=
  if Path.isAbsolute path then [] else tree.here.reverse

/-- The names, the last one first, that lead to where a path leads.  The empty path leads nowhere. -/
def resolve (tree : FileTree) (path : String) : Except Fault (List String) :=
  if path = "" then .error .missing
  else follow tree.root (tree.startTrail path) (Path.pieces path)

/-- The node that a path leads to. -/
def node? (tree : FileTree) (path : String) : Option Node :=
  match tree.resolve path with
  | .ok trail => tree.root.get? trail.reverse
  | .error _ => none

/-- Whether a path leads to a directory. -/
def isDirectory (tree : FileTree) (path : String) : Bool :=
  (tree.node? path).any Node.isDirectory

/-- Whether a path leads to a file. -/
def isFile (tree : FileTree) (path : String) : Bool :=
  (tree.node? path).any (!Node.isDirectory ·)

/-- Whether a path leads anywhere. -/
def contains (tree : FileTree) (path : String) : Bool :=
  (tree.node? path).isSome

/-- The text of the file that a path leads to. -/
def read (tree : FileTree) (path : String) : Except Fault String :=
  match tree.resolve path with
  | .error fault => .error fault
  | .ok trail =>
    match tree.root.get? trail.reverse with
    | none => .error .missing
    | some (.directory _) => .error .isDirectory
    | some (.file content) =>
      match String.fromUTF8? content with
      | none => .error .invalidText
      | some text => .ok text

/-- The tree with a text in the file that a path leads to.  The file may be new, its directory may
not; a path that a slash ends means a directory. -/
def write (tree : FileTree) (path text : String) : Except Fault FileTree :=
  if path = "" then .error .missing
  else
    let reversed := (Path.pieces path).reverse
    match reversed.dropWhile (· == "") with
    | [] => .error .isDirectory
    | name :: above =>
      match follow tree.root (tree.startTrail path) above.reverse with
      | .error fault => .error fault
      | .ok trail =>
        match tree.root.get? trail.reverse with
        | none => .error .missing
        | some (.file _) => .error .notDirectory
        | some (.directory entries) =>
          if reversed.head? = some "" ∨ name = "." ∨ name = ".." then .error .isDirectory
          else if (Node.child? name entries).any Node.isDirectory then .error .isDirectory
          else
            .ok { tree with root := tree.root.put (trail.reverse ++ [name]) (.file text.toUTF8) }

end FileTree
end ExportIndex
