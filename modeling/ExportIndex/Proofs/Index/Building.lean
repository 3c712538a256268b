import ExportIndex.Index.Build
import ExportIndex.Proofs.Index.LastDeclaration

/-!
# Indexes are built from all sources or not at all

Whether there is an index, and what is in it, is decided source by source: a source is scanned alike
alone and among others, and with any number of workers.

* `Source.failure?` is why a source cannot be read, and `Index.failuresOf` what a build reports.
* `build_eq_ok_iff` and `build_eq_error_iff` say when there is an index and when there are failures.
* `build_all_or_nothing` adds what becomes of a list of sources that is put together from two.
-/

namespace ExportIndex

/-- Why a source cannot be read; `none` if it can be. -/
def Source.failure? (source : Source) : Option SourceFailure :=
  match source.scan with
  | .ok _ => none
  | .error failure => some failure

namespace Build

theorem exports?_eq (found : Source.Findings) : found.exports? = found.result.toOption := by
  obtain ⟨source, declarations, failure⟩ := found
  cases failure <;> rfl

/-- The parts of a build are what its readable sources export. -/
theorem parts_ofSources (jobs : Nat) (sources : List Source) :
    (ofSources jobs sources).parts = sources.filterMap (·.scan.toOption) := by
  rw [parts, ofSources, Source.searchAll_eq_map, List.filterMap_map]
  congr 1
  funext source
  exact exports?_eq source.findings

/-- The failures of a build are those of its sources, each seen alone. -/
theorem failures_ofSources (jobs : Nat) (sources : List Source) :
    (ofSources jobs sources).failures = sources.filterMap Source.failure? := by
  rw [failures, ofSources, Source.searchAll_eq_map, List.filterMap_map]
  congr 1
  funext source
  rw [Function.comp_apply, Source.failure?, Source.scan, Source.Findings.result]
  cases source.findings.failure? <;> rfl

end Build

/-- There are no failures exactly when every source can be scanned. -/
theorem Source.filterMap_failure?_eq_nil_iff {sources : List Source} :
    sources.filterMap Source.failure? = [] ↔
      ∃ parts : List SourceExports, sources.map Source.scan = parts.map .ok := by
  induction sources with
  | nil => simp
  | cons source rest ih =>
      rw [List.filterMap_cons, List.map_cons, Source.failure?]
      cases source.scan with
      | error failure =>
          simp only [List.cons_ne_nil, false_iff, not_exists]
          intro parts h
          cases parts <;> simp at h
      | ok exports =>
          simp only [ih]
          constructor
          · rintro ⟨parts, hparts⟩
            exact ⟨exports :: parts, by rw [hparts, List.map_cons]⟩
          · rintro ⟨parts, hparts⟩
            cases parts with
            | nil => simp at hparts
            | cons first parts => exact ⟨parts, (List.cons.inj hparts).2⟩

theorem Source.filterMap_scan {sources : List Source} {parts : List SourceExports}
    (h : sources.map Source.scan = parts.map .ok) :
    sources.filterMap (·.scan.toOption) = parts := by
  have hcompose : sources.filterMap (·.scan.toOption) =
      (sources.map Source.scan).filterMap Except.toOption := by
    rw [List.filterMap_map]
    rfl
  rw [hcompose, h, List.filterMap_map]
  exact List.filterMap_some

namespace Index

/-- The failures that a build reports; none if there is an index. -/
def failuresOf : Except BuildError Index → List SourceFailure
  | .ok _ => []
  | .error error => error.failures

/-- There is an index exactly when every source can be scanned: that of all exports, in order. -/
theorem build_eq_ok_iff {jobs : Nat} {sources : List Source} {index : Index} :
    build jobs sources = .ok index ↔
      ∃ parts : List SourceExports, sources.map Source.scan = parts.map .ok ∧ index = merge parts := by
  rw [build, Build.result, Build.failures_ofSources, Build.growth, Build.parts_ofSources]
  constructor
  · intro h
    split at h
    · rename_i hnone
      obtain ⟨parts, hparts⟩ := Source.filterMap_failure?_eq_nil_iff.1 (List.isEmpty_iff.1 hnone)
      injection h with h
      rw [Source.filterMap_scan hparts] at h
      exact ⟨parts, hparts, h.symm⟩
    · contradiction
  · rintro ⟨parts, hparts, rfl⟩
    rw [Source.filterMap_failure?_eq_nil_iff.2 ⟨parts, hparts⟩, Source.filterMap_scan hparts]
    rfl

/-- Without an index all failures are reported, each seen alone and in order. -/
theorem build_eq_error_iff {jobs : Nat} {sources : List Source} {error : BuildError} :
    build jobs sources = .error error ↔
      error.failures ≠ [] ∧ error.failures = sources.filterMap Source.failure? := by
  obtain ⟨failures⟩ := error
  rw [build, Build.result, Build.failures_ofSources]
  constructor
  · intro h
    split at h
    · contradiction
    · rename_i hsome
      injection h with h
      injection h with h
      rw [← h]
      exact ⟨by simpa using hsome, rfl⟩
  · rintro ⟨hne, rfl⟩
    rw [if_neg (by simpa using hne)]

theorem failuresOf_build (jobs : Nat) (sources : List Source) :
    failuresOf (build jobs sources) = sources.filterMap Source.failure? := by
  cases h : build jobs sources with
  | error error => exact (build_eq_error_iff.1 h).2
  | ok index =>
      obtain ⟨parts, hparts, -⟩ := build_eq_ok_iff.1 h
      exact (Source.filterMap_failure?_eq_nil_iff.2 ⟨parts, hparts⟩).symm

/-- There is an index exactly when every source can be scanned, and else every failure is reported,
whatever the number of workers.  Hence the failures of two lists of sources are those of both, and an
index of the first list grows by the exports of the second. -/
theorem build_all_or_nothing :
    (∀ (jobs : Nat) (sources : List Source),
      (∀ index, build jobs sources = .ok index ↔
        ∃ parts : List SourceExports, sources.map Source.scan = parts.map .ok ∧
          index = merge parts) ∧
      ∀ error, build jobs sources = .error error ↔
        error.failures ≠ [] ∧ error.failures = sources.filterMap Source.failure?) ∧
    ∀ (jobs jobs₁ jobs₂ : Nat) (xs ys : List Source),
      ((∃ error, build jobs₁ xs = .error error) ∨ (∃ error, build jobs₂ ys = .error error) →
        ∃ error, build jobs (xs ++ ys) = .error error ∧
          error.failures = failuresOf (build jobs₁ xs) ++ failuresOf (build jobs₂ ys)) ∧
      ∀ index other, build jobs₁ xs = .ok index → build jobs₂ ys = .ok other →
        ∃ parts : List SourceExports, ys.map Source.scan = parts.map .ok ∧
          build jobs (xs ++ ys) = .ok (parts.foldl insertAll index) := by
  refine ⟨fun jobs sources => ⟨fun index => build_eq_ok_iff, fun error => build_eq_error_iff⟩, ?_⟩
  intro jobs jobs₁ jobs₂ xs ys
  refine ⟨fun hfails => ?_, fun index other hxs hys => ?_⟩
  · rw [failuresOf_build, failuresOf_build, ← List.filterMap_append]
    refine ⟨⟨(xs ++ ys).filterMap Source.failure?⟩, build_eq_error_iff.2 ⟨?_, rfl⟩, rfl⟩
    -- The failures of either list are among those of both.
    rw [List.filterMap_append, ne_eq, List.append_eq_nil_iff]
    rintro ⟨hnone, hnone'⟩
    rcases hfails with ⟨error, herror⟩ | ⟨error, herror⟩
    · obtain ⟨hne, heq⟩ := build_eq_error_iff.1 herror
      exact hne (heq.trans hnone)
    · obtain ⟨hne, heq⟩ := build_eq_error_iff.1 herror
      exact hne (heq.trans hnone')
  · obtain ⟨parts, hparts, rfl⟩ := build_eq_ok_iff.1 hxs
    obtain ⟨later, hlater, -⟩ := build_eq_ok_iff.1 hys
    refine ⟨later, hlater, build_eq_ok_iff.2 ⟨parts ++ later, ?_, ?_⟩⟩
    · rw [List.map_append, List.map_append, hparts, hlater]
    · exact foldl_insertAll_merge parts later

/-- Among three sources the two unreadable ones are reported in order; of two readable ones the second
declaration of `f` stays. -/
theorem build_all_or_nothing_three :
    (∃ error,
      build 2 ([⟨"a", "// [[export]]"⟩, ⟨"b", "// [[export]]\nint f()"⟩] ++
          [⟨"c", "// [[export]]\ng(,)"⟩]) = .error error ∧
        error.failures = [⟨"a", 2, .unterminated⟩] ++
          [⟨"c", 2, .flawed .unnamedParameter ⟨2, "g(,)"⟩⟩]) ∧
      ∃ parts : List SourceExports,
        [(⟨"c", "// [[export]]\nf()"⟩ : Source)].map Source.scan = parts.map .ok ∧
          build 2 ([⟨"b", "// [[export]]\nint f()"⟩] ++ [⟨"c", "// [[export]]\nf()"⟩]) =
            .ok (parts.foldl insertAll
              ⟨[⟨"b", ⟨"f", 2, ⟨"int", "int", 0, .none, .empty⟩, []⟩⟩], List.pairwise_singleton ..⟩) := by
  have hab : build 1 [⟨"a", "// [[export]]"⟩, ⟨"b", "// [[export]]\nint f()"⟩] =
      .error ⟨[⟨"a", 2, .unterminated⟩]⟩ := by
    decide +kernel
  have hc : build 3 [⟨"c", "// [[export]]\ng(,)"⟩] =
      .error ⟨[⟨"c", 2, .flawed .unnamedParameter ⟨2, "g(,)"⟩⟩]⟩ := by
    decide +kernel
  have hb : build 1 [⟨"b", "// [[export]]\nint f()"⟩] =
      .ok ⟨[⟨"b", ⟨"f", 2, ⟨"int", "int", 0, .none, .empty⟩, []⟩⟩], List.pairwise_singleton ..⟩ := by
    decide +kernel
  have hc' : build 3 [⟨"c", "// [[export]]\nf()"⟩] =
      .ok ⟨[⟨"c", ⟨"f", 2, ⟨"", "", 0, .none, .empty⟩, []⟩⟩], List.pairwise_singleton ..⟩ := by
    decide +kernel
  have hfails := (build_all_or_nothing.2 2 1 3 _ [⟨"c", "// [[export]]\ng(,)"⟩]).1 (.inl ⟨_, hab⟩)
  rw [hab, hc] at hfails
  exact ⟨hfails, (build_all_or_nothing.2 2 1 3 _ _).2 _ _ hb hc'⟩

end Index
end ExportIndex
