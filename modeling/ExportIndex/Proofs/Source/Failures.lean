import ExportIndex.Proofs.Declaration.Flaws
import ExportIndex.Proofs.Source.Markers

/-!
# Where a source fails

The line that a failure names is counted from the lines of the source, the line of a flaw from the
line feeds before the character it was noticed at.  Both counts agree.

* `Located` ties a flaw to the character that gives it away and to the line that is shown.
* `located_of_scan` — every flaw of a declaration that starts on some line is located.
* `failure_located` — so is every failure of a source, and its declaration stands behind a marker.
-/

namespace ExportIndex
namespace Source

open Text (Line Location lines)

/-- The declaration that starts on the line `first` is flawed at the character with index `q`, the last
one that is read of it, and the location is the line of that character. -/
structure Located (text : List Char) (first : Line) (flaw : Flaw) (location : Location) (q : Nat) :
    Prop where
  lastRead : (Declaration.read first.number (.startAt text first.start)).2.LastRead q
  inside : q < text.length
  flawed : Declaration.FlawedAt text first.start q flaw
  shown : location.Shows text q
  first_le : first.number ≤ location.line
  le_last : location.line ≤ (lines text).length
  /-- A stray slash is on the line as well. -/
  slash : flaw = .malformedComment → text[q - 1]? = some '/' ∧ location.Shows text (q - 1)

theorem count_take_le {text : List Char} {i j : Nat} (h : i ≤ j) (c : Char) :
    (text.take i).count c ≤ (text.take j).count c :=
  (List.take_sublist_take_left h).count_le c

/-- A line has a number among the lines of its text. -/
theorem number_le_length {text : List Char} {line : Line} (h : line ∈ lines text) :
    line.number ≤ (lines text).length := by
  obtain ⟨i, hi⟩ := List.getElem?_of_mem h
  rw [Text.number_of_getElem?_lines hi]
  exact (List.getElem?_eq_some_iff.1 hi).1

/-- The line of a character is that of the one before, unless that is a line feed. -/
theorem shows_pred {text : List Char} {q : Nat} {c : Char} {location : Location}
    (h : location.Shows text q) (hchar : text[q - 1]? = some c) (hc : c ≠ '\n') :
    location.Shows text (q - 1) := by
  refine ⟨?_, h.line⟩
  rw [h.number]
  cases q with
  | zero => rfl
  | succ q =>
      rw [Nat.add_sub_cancel] at hchar ⊢
      rw [List.take_add_one, hchar, List.count_append, Option.toList_some,
        List.count_singleton, if_neg (by simpa using hc), Nat.add_zero]

/-- Every flaw of a declaration that starts on a line of the text is located. -/
theorem located_of_scan {text : List Char} {first : Line} (hfirst : first ∈ lines text) {flaw : Flaw}
    {location : Location}
    (h : Declaration.scan text first.start first.number = .error (.flawed flaw location)) :
    ∃ q, Located text first flaw location q := by
  obtain ⟨q, hlast, hinside, hflawed, hshown⟩ := Declaration.flawedAt_of_scan h
  refine ⟨q, hlast, hinside, hflawed, hshown, ?_, ?_, ?_⟩
  · -- Before the line there are only lines with smaller numbers.
    obtain ⟨before, after, htext, -, hstart, hnumber, -⟩ := Text.standsIn_of_mem_lines hfirst
    have hcount : (text.take first.start).count '\n' ≤ (text.take q).count '\n' :=
      count_take_le hflawed.start_le '\n'
    rw [← hstart, htext, List.append_assoc, List.take_left, ← List.append_assoc, ← htext] at hcount
    rw [hshown.number, ← hnumber]
    omega
  · obtain ⟨line, hline, hnumber, -⟩ := hshown.line
    rw [← hnumber]
    exact number_le_length hline
  · rintro rfl
    exact ⟨hflawed.slash, shows_pred hshown hflawed.slash (by decide)⟩

/-- A source that cannot be read fails on the line behind a marker.  Either the text ends before the
declaration there, or the declaration has a flaw, which is located on the line of the character that
gives it away. -/
theorem failure_located {source : Source} {failure : SourceFailure}
    (h : source.scan = .error failure) :
    let text := source.text.toList
    (∃ marker ∈ markers text, marker.number + 1 = failure.line) ∧
      (failure.cause = .unterminated ∨
        ∃ flaw location first q, failure.cause = .flawed flaw location ∧ first ∈ lines text ∧
          first.number = failure.line ∧ Located text first flaw location q) := by
  intro text
  have houtcome : Outcome text _ _ := outcome_findings source
  obtain ⟨hsome, -⟩ := scan_eq_error_iff.1 h
  rw [hsome] at houtcome
  obtain ⟨passed, marker, later, selected, hmarkers, -, -, hscan, hline⟩ := houtcome
  refine ⟨⟨marker, by simp [hmarkers], hline.symm⟩, ?_⟩
  rw [scanBehind] at hscan
  split at hscan
  · exact .inl (Except.error.inj hscan).symm
  · rename_i first hfirst
    have hmem : first ∈ lines text := List.mem_of_getElem? hfirst
    have hnumber : first.number = failure.line := by
      rw [Text.number_of_getElem?_lines hfirst, hline]
    cases hcause : failure.cause with
    | unterminated => exact .inl rfl
    | undoRefused =>
        rw [hcause] at hscan
        exact (Declaration.scan_ne_undoRefused _ _ _ hscan).elim
    | flawed flaw location =>
        rw [hcause] at hscan
        obtain ⟨q, hlocated⟩ := located_of_scan hmem hscan
        exact .inr ⟨flaw, location, first, q, rfl, hmem, hnumber, hlocated⟩

/-- The stray slash stands on the third line, two lines behind the marker; a marker on the last line has
no declaration behind it. -/
theorem failure_located_slash :
    (∃ failure, scan ⟨"a", "// [[export]]\nint f(é a,\r\n  é / c)"⟩ = .error failure ∧
      (∃ marker ∈ markers "// [[export]]\nint f(é a,\r\n  é / c)".toList,
        marker.number + 1 = failure.line) ∧
      failure.line = 2 ∧ failure.cause = .flawed .malformedComment ⟨3, "  é / c)"⟩ ∧
      ∃ first ∈ lines "// [[export]]\nint f(é a,\r\n  é / c)".toList, ∃ q, first.number = 2 ∧
        Located "// [[export]]\nint f(é a,\r\n  é / c)".toList first .malformedComment
          ⟨3, "  é / c)"⟩ q) ∧
    ∃ failure, scan ⟨"a", "\n// [[export]]"⟩ = .error failure ∧ failure.cause = .unterminated ∧
      ∃ marker ∈ markers "\n// [[export]]".toList, marker.number + 1 = failure.line := by
  have hslash : scan ⟨"a", "// [[export]]\nint f(é a,\r\n  é / c)"⟩ =
      .error ⟨"a", 2, .flawed .malformedComment ⟨3, "  é / c)"⟩⟩ := by
    decide +kernel
  have hlast : scan ⟨"a", "\n// [[export]]"⟩ = .error ⟨"a", 3, .unterminated⟩ := by
    decide +kernel
  obtain ⟨hmarker, hcause⟩ := failure_located hslash
  refine ⟨⟨_, hslash, hmarker, rfl, rfl, ?_⟩, _, hlast, rfl, (failure_located hlast).1⟩
  rcases hcause with hend | ⟨flaw, location, first, q, hcause, hfirst, hnumber, hlocated⟩
  · contradiction
  · obtain ⟨rfl, rfl⟩ := ScanError.flawed.inj hcause
    exact ⟨first, hfirst, q, hnumber, hlocated⟩

end Source
end ExportIndex
