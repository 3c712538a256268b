import ExportIndex.Source.Basic

/-!
# Scanning several sources at once

Sources do not depend on each other, so a list of them is cut into consecutive parts, one for each
worker, and the results are put together in the order of the list.  The number of workers does not
change them.
-/

namespace ExportIndex

/-- Cuts a list into consecutive parts of `size + 1` members; the last part may be shorter. -/
def partsOf {α : Type} (size : Nat) (items : List α) : List (List α) :=
  match items with
  | [] => []
  | first :: rest => (first :: rest.take size) :: partsOf size (rest.drop size)
termination_by items.length
decreasing_by
  simp only [List.length_drop, List.length_cons]
  omega

theorem flatten_partsOf {α : Type} (size : Nat) (items : List α) :
    (partsOf size items).flatten = items := by
  fun_induction partsOf size items <;> simp_all

namespace Source

/-- What is found in every source of a list, with at most `jobs` workers, or one for each source if
`jobs` is zero.  The findings come in the order of the list. -/
def searchAll (jobs : Nat) (sources : List Source) : List Findings :=
  let size := if jobs = 0 then 0 else (sources.length - 1) / jobs
  let tasks := (partsOf size sources).map fun part => Task.spawn fun _ => part.map findings
  tasks.flatMap Task.get

/-- The number of workers does not change what is found. -/
theorem searchAll_eq_map (jobs : Nat) (sources : List Source) :
    searchAll jobs sources = sources.map findings := by
  rw [searchAll, List.flatMap_map]
  change (partsOf _ sources).flatMap (List.map findings) = _
  rw [List.flatMap_def, ← List.map_flatten, flatten_partsOf]

/-- The exports of every source of a list, or why it cannot be read, in the order of the list. -/
def scanAll (jobs : Nat) (sources : List Source) : List (Except SourceFailure SourceExports) :=
  (searchAll jobs sources).map Findings.result

end Source
end ExportIndex
