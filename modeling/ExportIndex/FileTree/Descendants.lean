import ExportIndex.FileTree.Basic

/-!
# What lies below a directory

The nodes below a directory, at any depth, each with its name and the path that is spelled by joining
names to the path of the directory.  A node comes before the nodes below it, and the nodes of one
directory come in the order of its entries.
-/

namespace ExportIndex

/-- A node met below a directory. -/
structure Found where
  /-- The path, as spelled from the directory. -/
  path : String
  name : String
  node : Node

namespace Node

mutual

/-- The nodes below a node whose path is given. -/
def descendants (path : String) : Node → List Found
  | .file _ => []
  | .directory entries => descendantsOf (Path.join path) entries

/-- The nodes of a list of entries and the nodes below them; `spell` makes the path of a name. -/
def descendantsOf (spell : String → String) : List (String × Node) → List Found
  | [] => []
  | (name, node) :: rest =>
    ⟨spell name, name, node⟩ :: (descendants (spell name) node ++ descendantsOf spell rest)

end

/-- The nodes of a list of entries, without the nodes below them. -/
def foundEntries (spell : String → String) (entries : List (String × Node)) : List Found :=
  entries.map fun entry => ⟨spell entry.1, entry.1, entry.2⟩

end Node
end ExportIndex
