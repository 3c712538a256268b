/-!
# Options

What the arguments of the command line ask for.

* A short option may stand in a cluster, `-vvf json`; the rest of a cluster is the value of an option
  that takes one, with or without an equals sign.
* A long option takes its value behind an equals sign or from the next argument.
* The next argument is no value if it starts with a dash, a lone dash apart.
* `--` ends the options; a lone dash is a path.
* The extensions may be given several times, separated by commas; output, format and jobs once.
-/

namespace ExportIndex

/-- An option that takes a value. -/
inductive Setting where
  | extensions
  | output
  | format
  | jobs
  deriving DecidableEq, Repr

/-- What is wrong with a list of arguments. -/
inductive UsageError where
  | noPath
  | unknownOption (text : String)
  | unexpectedValue (text : String)
  | missingValue (setting : Setting)
  | invalidValue (setting : Setting) (text : String)
  | repeated (setting : Setting)
  deriving DecidableEq, Repr

/-- The long name of a setting. -/
def Setting.name : Setting → String
  | .extensions => "--ext"
  | .output => "--output"
  | .format => "--format"
  | .jobs => "--jobs"

/-- The wording of a usage error. -/
def UsageError.message : UsageError → String
  | .noPath => "no path is given"
  | .unknownOption text => "unexpected argument '" ++ text ++ "'"
  | .unexpectedValue text => "unexpected value in '" ++ text ++ "'"
  | .missingValue setting => "a value is required for '" ++ setting.name ++ "'"
  | .invalidValue setting text => "invalid value '" ++ text ++ "' for '" ++ setting.name ++ "'"
  | .repeated setting => "'" ++ setting.name ++ "' cannot be used multiple times"

/-- What the arguments read so far ask for. -/
structure Options where
  /-- Files, directories and patterns, in order. -/
  paths : List String
  /-- The endings of the files taken from directories, if any are given. -/
  extensions : Option (List String)
  /-- The file to be written, if not the standard output. -/
  output : Option String
  format : Option String
  /-- The largest number of workers, if one is given. -/
  jobs : Option Nat
  /-- How many times the log is asked to be more verbose. -/
  verbosity : Nat
  deriving DecidableEq, Repr

/-- An argument, taken by itself. -/
inductive Argument where
  | path (text : String)
  /-- The end of the options. -/
  | escape
  /-- So many wishes for a more verbose log. -/
  | verbose (count : Nat)
  /-- Some wishes for a more verbose log, then a setting, with its value if it holds one. -/
  | assign (count : Nat) (setting : Setting) (value : Option String)
  | wrong (error : UsageError)
  deriving DecidableEq, Repr

namespace Argument

/-- The setting of a long name. -/
def longSetting? (name : String) : Option Setting :=
  if name = "ext" then some .extensions
  else if name = "output" then some .output
  else if name = "format" then some .format
  else if name = "jobs" then some .jobs
  else none

/-- The setting of a short name. -/
def shortSetting? (name : Char) : Option Setting :=
  if name = 'e' then some .extensions
  else if name = 'o' then some .output
  else if name = 'f' then some .format
  else if name = 'j' then some .jobs
  else none

/-- Reads a long option from behind its dashes. -/
def ofLong (text : List Char) : Argument :=
  let name := String.ofList (text.takeWhile (· != '='))
  let value := match text.dropWhile (· != '=') with
    | [] => none
    | _ :: value => some (String.ofList value)
  match longSetting? name with
  | some setting => .assign 0 setting value
  | none =>
    if name ≠ "verbose" then .wrong (.unknownOption ("--" ++ String.ofList text))
    else if value.isSome then .wrong (.unexpectedValue ("--" ++ String.ofList text))
    else .verbose 1

/-- The value that the rest of a cluster is, if there is a rest. -/
def restValue : List Char → Option String
  | [] => none
  | c :: rest => some (String.ofList (if c = '=' then rest else c :: rest))

/-- Reads a cluster of short options; `count` wishes for a more verbose log came before. -/
def ofCluster (count : Nat) : List Char → Argument
  | [] => .verbose count
  | c :: rest =>
    if c = 'v' then ofCluster (count + 1) rest
    else
      match shortSetting? c with
      | some setting => .assign count setting (restValue rest)
      | none => .wrong (.unknownOption ("-" ++ String.singleton c))

/-- Reads an argument by itself. -/
def ofString (text : String) : Argument :=
  match text.toList with
  | ['-', '-'] => .escape
  | '-' :: '-' :: long => ofLong long
  | '-' :: c :: cluster => ofCluster 0 (c :: cluster)
  | _ => .path text

/-- Whether a text can be the value of the option before it. -/
def isValue (text : String) : Bool :=
  match text.toList with
  | '-' :: _ :: _ => false
  | _ => true

end Argument

/-- The number that a text of decimal digits, perhaps behind a plus sign, writes, if it is positive
and fits in 64 bits. -/
def positive? (text : String) : Option Nat :=
  let digits := match text.toList with
    | '+' :: digits => digits
    | digits => digits
  if digits.isEmpty || !digits.all Char.isDigit then none
  else
    let value := digits.foldl (fun n c => 10 * n + (c.toNat - '0'.toNat)) 0
    if 0 < value ∧ value ≤ 0xFFFFFFFFFFFFFFFF then some value else none

namespace Options

/-- The options before the first argument. -/
def empty : Options :=
  ⟨[], none, none, none, none, 0⟩

/-- The options with a setting made. -/
def set (options : Options) (setting : Setting) (value : String) : Except UsageError Options :=
  match setting with
  | .extensions =>
    let more := (value.toList.splitOn ',').map String.ofList
    .ok { options with extensions := some (options.extensions.getD [] ++ more) }
  | .output =>
    if value = "" then .error (.invalidValue setting value)
    else if options.output.isSome then .error (.repeated setting)
    else .ok { options with output := some value }
  | .format =>
    if options.format.isSome then .error (.repeated setting)
    else .ok { options with format := some value }
  | .jobs =>
    match positive? value with
    | none => .error (.invalidValue setting value)
    | some jobs =>
      if options.jobs.isSome then .error (.repeated setting)
      else .ok { options with jobs := some jobs }

/-- The options with one more path. -/
def addPath (options : Options) (path : String) : Options :=
  { options with paths := options.paths ++ [path] }

/-- The options with some more wishes for a verbose log. -/
def addVerbosity (options : Options) (count : Nat) : Options :=
  { options with verbosity := options.verbosity + count }

/-- Reads the arguments that follow. -/
def readArguments (options : Options) : List String → Except UsageError Options
  | [] => .ok options
  | text :: rest =>
    match Argument.ofString text with
    | .path path => readArguments (options.addPath path) rest
    | .escape => .ok { options with paths := options.paths ++ rest }
    | .verbose count => readArguments (options.addVerbosity count) rest
    | .wrong error => .error error
    | .assign count setting (some value) =>
      match (options.addVerbosity count).set setting value with
      | .error error => .error error
      | .ok options => readArguments options rest
    | .assign count setting none =>
      match rest with
      | [] => .error (.missingValue setting)
      | value :: rest =>
        if Argument.isValue value then
          match (options.addVerbosity count).set setting value with
          | .error error => .error error
          | .ok options => readArguments options rest
        else .error (.missingValue setting)

/-- The options that a list of arguments asks for; there has to be a path. -/
def ofArguments (arguments : List String) : Except UsageError Options :=
  match readArguments .empty arguments with
  | .error error => .error error
  | .ok options => if options.paths.isEmpty then .error .noPath else .ok options

/-- The endings that are wanted. -/
def wantedExtensions (options : Options) : List String :=
  options.extensions.getD ["cpp", "cc"]

/-- The name of the format that is wanted. -/
def formatName (options : Options) : String :=
  options.format.getD "json"

/-- The number of workers, zero if it is left open. -/
def workers (options : Options) : Nat :=
  options.jobs.getD 0

end Options
end ExportIndex
