import ExportIndex.Glob.Search
import ExportIndex.Log.Event

/-!
# Finding sources

Each argument names a file, a directory or a pattern, tried in this order.

* A file is taken whatever its ending.
* A directory stands for the files below it, at any depth, that have a wanted ending.
* Anything else is a pattern; one that finds no file is worth a warning, one that cannot be read ends
  the search.

The files are put in the order of their paths, each once.
-/

namespace ExportIndex

/-- A pattern that cannot be read. -/
structure BadPattern where
  pattern : String
  error : Glob.PatternError
  deriving DecidableEq, Repr

/-- The wording of a bad pattern, without its cause. -/
def BadPattern.message (bad : BadPattern) : String :=
  "invalid glob pattern: " ++ bad.pattern

/-- What a search for sources met. -/
structure Discovery where
  /-- The files in the order they were met, or the pattern that ended the search. -/
  result : Except BadPattern (List String)
  /-- The patterns without a file, up to the end of the search. -/
  warnings : List Log.Event

namespace Discovery

/-- Whether a name has one of the wanted endings; letters of ASCII match in either case. -/
def isWanted (extensions : List String) (name : String) : Bool :=
  (Path.extension? name).any fun ending =>
    extensions.any fun wanted => wanted.toLower == ending.toLower

/-- The files with a wanted ending below the directory that a path leads to. -/
def filesBelow (tree : FileTree) (extensions : List String) (path : String) : List String :=
  match tree.node? path with
  | none => []
  | some node =>
    ((node.descendants path).filter fun found =>
      !found.node.isDirectory && isWanted extensions found.name).map Found.path

/-- The files that a pattern finds. -/
def filesMatching (tree : FileTree) (pattern : String) : Except BadPattern (List String) :=
  match Glob.ofString pattern with
  | .error error => .error ⟨pattern, error⟩
  | .ok glob => .ok ((glob.find tree).filter tree.isFile)

/-- The files that an argument stands for. -/
def filesOf (tree : FileTree) (extensions : List String) (argument : String) :
    Except BadPattern (List String) :=
  if tree.isFile argument then .ok [argument]
  else if tree.isDirectory argument then .ok (filesBelow tree extensions argument)
  else filesMatching tree argument

/-- What an argument is warned about: that it is a pattern without a file. -/
def warningsOf (tree : FileTree) (argument : String) (files : List String) : List Log.Event :=
  if files.isEmpty && !tree.isDirectory argument then [.unmatched argument] else []

/-- What a search met, with the files and warnings of an argument before it. -/
def cons (files : List String) (warnings : List Log.Event) (later : Discovery) : Discovery :=
  ⟨later.result.map (files ++ ·), warnings ++ later.warnings⟩

/-- Searches for the files of all arguments, in order. -/
def search (tree : FileTree) (extensions : List String) : List String → Discovery
  | [] => ⟨.ok [], []⟩
  | argument :: rest =>
    match filesOf tree extensions argument with
    | .error bad => ⟨.error bad, []⟩
    | .ok files =>
      cons files (warningsOf tree argument files) (search tree extensions rest)

/-- The sources that the arguments stand for, in the order of their paths. -/
def findSources (tree : FileTree) (extensions arguments : List String) : Discovery :=
  let found := search tree extensions arguments
  { found with result := found.result.map Path.sortDistinct }

end Discovery
end ExportIndex
