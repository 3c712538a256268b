import ExportIndex.FileTree.Descendants
import ExportIndex.Glob.Pattern

/-!
# Searching a file tree for a pattern

A pattern is searched leg by leg, from the starting directory or from the root.

* A component without wildcards is followed without looking at the directory, so `.` and `..` may be
  such components.
* A component with wildcards is tried on every entry of the directory.  If it begins with a dot it is
  tried on `.` and `..` as well.
* A `**` stands for the directory itself and for every directory below it; what follows it is tried on
  all entries of those.  At the end of a pattern it stands for the directories below.
* A pattern that ends in a slash finds directories only.

Files below the starting directory are spelled without a leading `.`.
-/

namespace ExportIndex

/-- A part of a pattern between two slashes. -/
structure Glob.Component where
  text : String
  tokens : List Glob.Token
  deriving DecidableEq, Repr

/-- A leg of a search: where it goes on from a path. -/
inductive Glob.Leg where
  /-- To a name, without a look at the directory. -/
  | name (text : String)
  /-- To the entries that a component stands for. -/
  | entries (component : Glob.Component)
  /-- To everything below, at any depth, that a component stands for. -/
  | depths (component : Glob.Component)
  /-- To the directories below, at any depth. -/
  | directories
  deriving DecidableEq, Repr

/-- A pattern, as the legs of the search for it. -/
structure Glob where
  /-- The path the search starts from. -/
  start : String
  legs : List Glob.Leg
  /-- Whether only directories are found. -/
  directoriesOnly : Bool
  deriving DecidableEq, Repr

namespace Glob

namespace Component

/-- Reads a component. -/
def ofChars (text : List Char) : Except PatternError Component :=
  (Glob.tokens text).map (⟨String.ofList text, ·⟩)

/-- Whether the component is `**`. -/
def isDepth (component : Component) : Bool :=
  component.tokens.contains .anyDepth

/-- Whether every character of the component stands for itself. -/
def isLiteral (component : Component) : Bool :=
  component.tokens.all fun token => token matches .literal _

/-- Whether the component begins with a dot that stands for itself. -/
def startsWithDot (component : Component) : Bool :=
  component.tokens.head? == some (.literal '.')

/-- Whether the component stands for a name. -/
def accepts (component : Component) (name : String) : Bool :=
  matchesName component.tokens name.toList

end Component

/-- The pieces of a text between slashes; a slash at the end ends the last piece. -/
def piecesOf (text : List Char) : List (List Char) :=
  let pieces := text.splitOn '/'
  if pieces.getLast? = some [] then pieces.dropLast else pieces

/-- The pieces that are the components of a pattern; the slash an absolute one starts with is none. -/
def componentPieces (pattern : String) : List (List Char) :=
  let relative := if Path.isAbsolute pattern then pattern.toList.tail else pattern.toList
  if relative.isEmpty then [[]] else piecesOf relative

/-- The legs that components stand for.  A `**` takes the component behind it along, and one `**` more
changes nothing. -/
def legsOf : List Component → List Leg
  | [] => []
  | component :: later =>
    if component.isDepth then
      match later with
      | [] => [.directories]
      | next :: rest => if next.isDepth then legsOf (next :: rest) else .depths next :: legsOf rest
    else if component.isLiteral then .name component.text :: legsOf later
    else .entries component :: legsOf later

/-- Reads a pattern: first as a whole, then each of its components. -/
def ofString (pattern : String) : Except PatternError Glob :=
  match tokens pattern.toList with
  | .error error => .error error
  | .ok _ =>
    ((componentPieces pattern).mapM Component.ofChars).map fun components =>
      ⟨if Path.isAbsolute pattern then "/" else ".", legsOf components,
        pattern.toList.getLast? = some '/'⟩

/-- Whether a path is a spelling of the starting directory. -/
def isCurrent (path : String) : Bool :=
  Path.components path == [.current]

/-- The path of a name in the directory of a given path. -/
def spell (path name : String) : String :=
  if isCurrent path then name else Path.join path name

/-- The entries of the directory that a path leads to. -/
def entriesAt (tree : FileTree) (path : String) : List (String × Node) :=
  match tree.node? path with
  | none => []
  | some node => node.entries

/-- Whether a component without wildcards can be followed from a path: to `.` and `..` from any
directory, to another name if it is there. -/
def canFollow (tree : FileTree) (path name : String) : Bool :=
  if name = "." ∨ name = ".." then tree.isDirectory path else tree.contains (spell path name)

/-- The directories `..` and `.` of the directory that a path leads to, if the component stands for
them. -/
def dotEntries (tree : FileTree) (path : String) (component : Component) : List String :=
  if tree.isDirectory path && component.startsWithDot then
    (["..", "."].filter component.accepts).map (Path.join path)
  else []

/-- What lies below the directory that a path leads to. -/
def belowAt (tree : FileTree) (path : String) : List Found :=
  Node.descendantsOf (spell path) (entriesAt tree path)

/-- The paths that a leg leads to from a path, in the order they are met. -/
def Leg.pathsFrom (tree : FileTree) (path : String) : Leg → List String
  | .name text => if canFollow tree path text then [spell path text] else []
  | .entries component =>
    let entries := Node.foundEntries (spell path) (entriesAt tree path)
    dotEntries tree path component ++
      (entries.filter (component.accepts ·.name)).map Found.path
  | .depths component => ((belowAt tree path).filter (component.accepts ·.name)).map Found.path
  | .directories => ((belowAt tree path).filter (·.node.isDirectory)).map Found.path

/-- The paths that several legs lead to, one after the other. -/
def pathsAlong (tree : FileTree) (paths : List String) (legs : List Leg) : List String :=
  legs.foldl (fun paths leg => paths.flatMap (leg.pathsFrom tree)) paths

/-- The paths that a pattern finds in a tree. -/
def find (glob : Glob) (tree : FileTree) : List String :=
  (pathsAlong tree [glob.start] glob.legs).filter fun path =>
    !glob.directoriesOnly || tree.isDirectory path

end Glob
end ExportIndex
