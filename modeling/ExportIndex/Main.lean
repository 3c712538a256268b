import ExportIndex.CommandLine.Run

/-!
# The program

The outer layer.  It surveys the part of the disk that the arguments name, reads the files that the
search finds there, and carries out what the run decides.

A pattern is surveyed along the legs of its search, which look at nothing else.
-/

namespace ExportIndex
namespace CommandLine

/-- The kind of what a path of the disk leads to: an empty directory or a file without content. -/
def look (path : String) : IO (Option Node) := do
  try
    let place ← IO.FS.realPath path
    match (← place.metadata).type with
    | .dir => return some Node.emptyDirectory
    | .file => return some (.file ByteArray.empty)
    | _ => return none
  catch _ => return none

/-- The tree with what a path of the disk and every beginning of it lead to. -/
def visit (tree : FileTree) (path : String) : IO FileTree := do
  let pieces := Path.pieces path
  let mut tree := tree
  for count in List.range pieces.length do
    let beginning := Path.ofPieces (pieces.take (count + 1))
    let names := Path.namesFrom tree.here beginning
    if (tree.root.get? names).isNone then
      if let some node ← look beginning then
        tree := { tree with root := tree.root.put names node }
  return tree

/-- The tree with what a path of the disk leads to and what lies below it, down to a depth if one is
given. -/
partial def survey (depth : Option Nat) (tree : FileTree) (path : String) : IO FileTree := do
  let mut tree ← visit tree path
  if tree.isDirectory path && depth != some 0 then
    for entry in ← (← IO.FS.realPath path).readDir do
      tree ← survey (depth.map (· - 1)) tree (Path.join path entry.fileName)
  return tree

/-- The tree with what a leg of a search looks at from a path. -/
def surveyLeg (tree : FileTree) (path : String) : Glob.Leg → IO FileTree
  | .name text => visit tree (Glob.spell path text)
  | .entries _ => survey (some 1) tree path
  | .depths _ | .directories => survey none tree path

/-- The tree with what the legs of a search look at, each from the paths that those before it lead
to. -/
def surveyLegs (tree : FileTree) (paths : List String) : List Glob.Leg → IO FileTree
  | [] => return tree
  | leg :: legs => do
    let tree ← paths.foldlM (surveyLeg · · leg) tree
    surveyLegs tree (paths.flatMap (leg.pathsFrom tree)) legs

/-- The part of the disk that the options name. -/
def surveyed (options : Options) : IO FileTree := do
  let here := Path.namesFrom [] (← IO.currentDir).toString
  let mut tree : FileTree := ⟨Node.emptyDirectory.put here Node.emptyDirectory, here⟩
  for path in options.output.toList do
    tree ← visit tree path
  for argument in options.paths do
    tree ← survey none tree argument
    if !tree.contains argument then
      if let .ok glob := Glob.ofString argument then
        tree ← surveyLegs tree [glob.start] glob.legs
  return tree

/-- The tree with the content of the file that a path leads to. -/
def load (tree : FileTree) (path : String) : IO FileTree := do
  match tree.resolve path with
  | .error _ => return tree
  | .ok trail =>
    let content ← IO.FS.readBinFile path
    return { tree with root := tree.root.put trail.reverse (.file content) }

/-- The filter of a level by its name or number, the empty name being that of `error`. -/
def levelFilter? (name : String) : Option Log.Filter :=
  match name.toLower with
  | "off" | "0" => some fun _ => false
  | "" | "error" | "1" => some (.atLeast .error)
  | "warn" | "2" => some (.atLeast .warn)
  | "info" | "3" => some (.atLeast .info)
  | "debug" | "4" => some (.atLeast .debug)
  | "trace" | "5" => some (.atLeast .trace)
  | _ => none

/-- The setup of the log: what it shows may be asked for in the environment, as one level for the whole
program. -/
def logSetup : IO Log.Setup := do
  let asked ← IO.getEnv "RUST_LOG"
  return { Log.Setup.plain with asked := asked.bind levelFilter? }

/-- Runs the program as the options ask. -/
def perform (options : Options) : IO UInt32 := do
  let mut tree ← surveyed options
  let discovery := Discovery.findSources tree options.wantedExtensions options.paths
  if let .ok paths := discovery.result then
    tree ← paths.foldlM load tree
  let outcome := (attempt tree options).outcome tree (← logSetup) options.verbosity
  outcome.stderr.forM fun line => IO.eprintln line
  IO.print outcome.stdout
  if outcome.code = 0 then
    for path in options.output.toList do
      if let .ok text := outcome.tree.read path then
        IO.FS.writeFile path text
  return outcome.code.toUInt32

end CommandLine
end ExportIndex

/-- Runs the program; the exit code is 2 if the arguments cannot be understood. -/
def main (arguments : List String) : IO UInt32 := do
  match ExportIndex.Options.ofArguments arguments with
  | .error error =>
    IO.eprintln ("error: " ++ error.message)
    return 2
  | .ok options => ExportIndex.CommandLine.perform options
