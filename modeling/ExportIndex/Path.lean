/-!
# Paths

A path is kept as it is spelled.  Different spellings can name the same components, and paths are
ordered and told apart by their components alone.

* `components` leaves out repeated and trailing slashes and every `.` but a leading one.
* `compare` is the lexicographic order of the components; a leading `.` comes before `..`, and both
  come before names.
* `join` appends a name, `extension?` reads the ending of a name.
-/

namespace ExportIndex
namespace Path

/-- A component of a path. -/
inductive Component where
  /-- The slash an absolute path starts with. -/
  | root
  /-- The `.` a relative path starts with. -/
  | current
  /-- A `..` at any place. -/
  | parent
  | name (text : String)
  deriving DecidableEq, Repr

/-- The place of a kind of component in the order. -/
def Component.rank : Component → Nat
  | .root => 0
  | .current => 1
  | .parent => 2
  | .name _ => 3

/-- The name of a component, empty for the others. -/
def Component.text : Component → String
  | .name text => text
  | _ => ""

/-- The order of components: by kind, names by code points. -/
def Component.compare : Component → Component → Ordering :=
  compareLex (compareOn Component.rank) (compareOn Component.text)

/-- The pieces of a path between its slashes. -/
def pieces (path : String) : List String :=
  (path.toList.splitOn '/').map String.ofList

/-- Whether a path starts at the root. -/
def isAbsolute (path : String) : Bool :=
  path.toList.head? == some '/'

/-- The component that a piece stands for, if it is one. -/
def componentOf (piece : String) : Option Component :=
  if piece = "" ∨ piece = "." then none
  else if piece = ".." then some .parent
  else some (.name piece)

/-- The components of a path. -/
def components (path : String) : List Component :=
  let later := (pieces path).filterMap componentOf
  if isAbsolute path then .root :: later
  else if (pieces path).head? = some "." then .current :: later
  else later

/-- The order of paths. -/
def compare (a b : String) : Ordering :=
  List.compareLex Component.compare (components a) (components b)

/-- Whether two spellings name the same components. -/
def same (a b : String) : Bool :=
  components a == components b

/-- A path with a name behind it; no second slash is put where there is one. -/
def join (path name : String) : String :=
  if path = "" ∨ path.toList.getLast? = some '/' then path ++ name else path ++ "/" ++ name

/-- The path of some pieces; without any it is the directory that relative paths start from. -/
def ofPieces (pieces : List String) : String :=
  if pieces = [] then "." else if pieces = [""] then "/" else "/".intercalate pieces

/-- The names from the root to where a path leads when it starts from the directory that `here` leads
to and every name on the way is a directory. -/
def namesFrom (here : List String) (path : String) : List String :=
  let start := if isAbsolute path then [] else here
  (pieces path).foldl
    (fun names piece =>
      if piece = "" ∨ piece = "." then names
      else if piece = ".." then names.dropLast
      else names ++ [piece])
    start

/-- What stands behind the last dot of a name; `none` if the name has no dot behind its first
character. -/
def extension? (name : String) : Option String :=
  match name.toList.reverse.span (· != '.') with
  | (ending, '.' :: _ :: _) => some (String.ofList ending.reverse)
  | _ => none

/-- Paths in order; of several spellings of one path the first in the list is kept. -/
def sortDistinct (paths : List String) : List String :=
  (paths.mergeSort fun a b => (compare a b).isLE).eraseRepsBy same

end Path
end ExportIndex
