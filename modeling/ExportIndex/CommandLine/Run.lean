import ExportIndex.CommandLine.Options
import ExportIndex.Discovery
import ExportIndex.Index.Build
import ExportIndex.Log.Record
import ExportIndex.Report.Format

/-!
# A run of the program

A run finds the sources, builds their index, and prints it or writes it to a file.

* The format is looked up before anything else is done.
* Nothing is printed or written unless every step before succeeds; a run that fails leaves the tree as
  it was.
* What is reported on the way is reported whether the run succeeds or not, as far as the log shows it.
-/

namespace ExportIndex
namespace CommandLine

/-- Why a run fails. -/
inductive Failure where
  | unknownFormat (name : String)
  | badPattern (bad : BadPattern)
  | unreadable (path : String) (fault : Fault)
  | unbuilt (error : BuildError)
  | unwritable (path : String) (fault : Fault)
  deriving DecidableEq

/-- The wording of a failure. -/
def Failure.message : Failure → String
  | .unknownFormat name => Format.unknownMessage name
  | .badPattern bad => bad.message
  | .unreadable path _ => "failed to read " ++ path
  | .unbuilt error => error.message
  | .unwritable path _ => "failed to write " ++ path

/-- The wording of what is behind a failure, if its message does not say it. -/
def Failure.cause? : Failure → Option String
  | .unknownFormat _ => none
  | .badPattern bad => some bad.error.message
  | .unreadable _ fault => some fault.message
  | .unbuilt _ => none
  | .unwritable _ fault => some fault.message

/-- How a failure is reported at the end of a run. -/
def Failure.report (failure : Failure) : List String :=
  ("Error: " ++ failure.message) ::
    match failure.cause? with
    | none => []
    | some cause => ["", "Caused by:", "    " ++ cause]

/-- What a run hands over: the text for the standard output and the files as they are then. -/
structure Delivery where
  stdout : String
  tree : FileTree

/-- What a run did: what it reported on the way, and what it handed over or why it failed. -/
structure Attempt where
  events : List Log.Event
  result : Except Failure Delivery

/-- Reads the sources at the given paths, up to the first that cannot be read. -/
def readSources (tree : FileTree) : List String → Except Failure (List Source)
  | [] => .ok []
  | path :: rest =>
    match tree.read path with
    | .error fault => .error (.unreadable path fault)
    | .ok text => (readSources tree rest).map (⟨path, text⟩ :: ·)

/-- Hands over a text: to a file if one is named, to the standard output otherwise. -/
def deliver (tree : FileTree) (output : Option String) (text : String) : Except Failure Delivery :=
  match output with
  | none => .ok ⟨text, tree⟩
  | some path =>
    match tree.write path text with
    | .error fault => .error (.unwritable path fault)
    | .ok tree => .ok ⟨"", tree⟩

/-- Does what the options ask for. -/
def attempt (tree : FileTree) (options : Options) : Attempt :=
  match Format.ofName? options.formatName with
  | none => ⟨[], .error (.unknownFormat options.formatName)⟩
  | some format =>
    let discovery := Discovery.findSources tree options.wantedExtensions options.paths
    match discovery.result with
    | .error bad => ⟨discovery.warnings, .error (.badPattern bad)⟩
    | .ok paths =>
      let events := discovery.warnings ++ [.sourcesFound paths.length]
      match readSources tree paths with
      | .error failure => ⟨events, .error failure⟩
      | .ok sources =>
        let build := Build.ofSources options.workers sources
        let events :=
          events ++ build.findings.flatMap Log.ofFindings ++ build.overwrites.map .overwritten
        match build.result with
        | .error error => ⟨events ++ error.failures.map .failed, .error (.unbuilt error)⟩
        | .ok index =>
          ⟨events ++ [.exportsFound index.size], deliver tree options.output (index.render format)⟩

/-- What a run leaves behind. -/
structure Outcome where
  /-- The exit code: 0 for success, 1 for failure. -/
  code : Nat
  stdout : String
  /-- The lines of the standard error output. -/
  stderr : List String
  tree : FileTree

/-- The lines of a text. -/
def linesOf (text : String) : List String :=
  (text.toList.splitOn '\n').map String.ofList

/-- What an attempt leaves behind in the tree it started from. -/
def Attempt.outcome (attempt : Attempt) (tree : FileTree) (log : Log.Setup) (verbosity : Nat) :
    Outcome :=
  let records := Log.shown log verbosity attempt.events
  match attempt.result with
  | .ok delivery => ⟨0, delivery.stdout, records.flatMap linesOf, delivery.tree⟩
  | .error failure => ⟨1, "", (records ++ failure.report).flatMap linesOf, tree⟩

/-- Runs the program on its arguments, with a log that is set up from outside. -/
def run (tree : FileTree) (arguments : List String) (log : Log.Setup := .plain) :
    Except UsageError Outcome :=
  (Options.ofArguments arguments).map fun options =>
    (attempt tree options).outcome tree log options.verbosity

end CommandLine
end ExportIndex
