import ExportIndex.Index.Basic
import ExportIndex.Source.Parallel

/-!
# Building an index from sources

All sources are scanned; one unreadable declaration anywhere means that there is no index, and every
source that has one is reported.

* `Build.ofSources` keeps everything that was met on the way, the overwrites included.
* `Build.result` is the verdict: the index, or all failures.
-/

namespace ExportIndex

/-- Reports every source that cannot be read. -/
structure BuildError where
  failures : List SourceFailure
  deriving DecidableEq

/-- The wording of a build error: how many sources failed, and each with its cause. -/
def BuildError.message (error : BuildError) : String :=
  toString error.failures.length ++ " source(s) failed to parse: " ++
    "; ".intercalate (error.failures.map fun failure =>
      failure.source ++ ": " ++ failure.cause.message)

/-- What building an index meets: the findings of all sources, in order. -/
structure Build where
  findings : List Source.Findings
  deriving DecidableEq

namespace Build

/-- Searches all sources, with at most `jobs` workers, or one for each source if `jobs` is zero. -/
def ofSources (jobs : Nat) (sources : List Source) : Build :=
  ⟨Source.searchAll jobs sources⟩

/-- The exports of the readable sources, in order. -/
def parts (build : Build) : List SourceExports :=
  build.findings.filterMap Source.Findings.exports?

/-- The failures of the other sources, in order. -/
def failures (build : Build) : List SourceFailure :=
  build.findings.filterMap Source.Findings.failure?

/-- How the index grows, whether it is handed over in the end or not. -/
def growth (build : Build) : Growth :=
  Index.empty.growth build.parts

/-- The declarations that gave way to later ones, also if there is no index in the end. -/
def overwrites (build : Build) : List Overwrite :=
  build.growth.overwrites

/-- The index of all sources, or every failure. -/
def result (build : Build) : Except BuildError Index :=
  if build.failures.isEmpty then .ok build.growth.index else .error ⟨build.failures⟩

end Build

/-- The index of a list of sources. -/
def Index.build (jobs : Nat) (sources : List Source) : Except BuildError Index :=
  (Build.ofSources jobs sources).result

end ExportIndex
