import Mathlib.Data.List.Forall2
import ExportIndex.Proofs.Declaration.Truncation
import ExportIndex.Proofs.Source.Concatenation

/-!
# Every marker is accounted for

A marker line is selected, and then a declaration is read behind it, or it is covered by a declaration
that has been read before.

* `scanBehind` is what scanning the line right behind a marker answers.
* `Selection` divides marker lines into selected and covered ones; `Selection.cover` and
  `Selection.select` add one marker, and `outcome_search` follows a search with them.
* `Selection.unique` — where the declarations end decides which markers are selected.
* `markers_accounted` puts both together for whole sources, readable or not.
-/

namespace ExportIndex
namespace Source

open Text (Line lines)

/-- Whether a line of a text is a marker line. -/
def isMarker (line : Line) : Bool :=
  isMarkerLine line.text

/-- The marker lines of a text. -/
def markers (text : List Char) : List Line :=
  (lines text).filter isMarker

/-- What scanning the line right behind a marker answers; numbers count from 1, so the number of the
marker is the index of that line. -/
def scanBehind (text : List Char) (marker : Line) : Except ScanError (Declaration × Nat) :=
  match (lines text)[marker.number]? with
  | none => .error .unterminated
  | some first => Declaration.scan text first.start first.number

/-- A marker is covered if it starts before the end of the declaration that was read behind the last
marker selected before it. -/
def Covered (text : List Char) (selected : List Line) (marker : Line) : Prop :=
  ∃ last declaration finish, (selected.filter (·.start < marker.start)).getLast? = some last ∧
    scanBehind text last = .ok (declaration, finish) ∧ marker.start < finish

/-- Some of the marked lines are selected, and the others are covered. -/
structure Selection (text : List Char) (marked selected : List Line)
    (declarations : List Declaration) : Prop where
  sublist : selected.Sublist marked
  /-- The declarations are those behind the selected lines, in order. -/
  declared : List.Forall₂
    (fun marker declaration => ∃ finish, scanBehind text marker = .ok (declaration, finish))
    selected declarations
  covered_iff : ∀ marker ∈ marked, marker ∉ selected ↔ Covered text selected marker

/-- A character stands between the start of a marker and the end of the declaration behind it. -/
def InWindow (text : List Char) (marker : Line) (i : Nat) : Prop :=
  ∃ declaration finish, scanBehind text marker = .ok (declaration, finish) ∧
    marker.start ≤ i ∧ i < finish

/-! ### One marker more -/

/-- Behind all selected markers, being covered means to start before a certain character. -/
def Reach (text : List Char) (selected : List Line) (resume : Nat) : Prop :=
  ∀ marker : Line, (∀ line ∈ selected, line.start < marker.start) →
    (Covered text selected marker ↔ marker.start < resume)

section Steps

variable {text : List Char} {marked selected : List Line} {declarations : List Declaration}
  {marker : Line}

/-- Whether a marker is covered is decided by what has been selected before it. -/
theorem covered_append (more : List Line) (h : ∀ line ∈ more, marker.start ≤ line.start) :
    Covered text (selected ++ more) marker ↔ Covered text selected marker := by
  have hnone : more.filter (·.start < marker.start) = [] := by
    rw [List.filter_eq_nil_iff]
    intro line hline
    have := h line hline
    simp only [decide_eq_true_eq]
    omega
  rw [Covered, Covered, List.filter_append, hnone, List.append_nil]

theorem reach_nil (text : List Char) : Reach text [] 0 := by
  intro marker _
  simp [Covered]

theorem reach_select {declaration : Declaration} {finish : Nat}
    (hscan : scanBehind text marker = .ok (declaration, finish)) :
    Reach text (selected ++ [marker]) finish := by
  intro later hlater
  have hall : (selected ++ [marker]).filter (·.start < later.start) = selected ++ [marker] := by
    rw [List.filter_eq_self]
    exact fun line hline => decide_eq_true (hlater line hline)
  rw [Covered, hall, List.getLast?_concat]
  constructor
  · rintro ⟨last, _, finish', hlast, hscan', hcovered⟩
    injection hlast with hlast
    rw [← hlast, hscan] at hscan'
    injection hscan' with hscan'
    rw [(Prod.mk.inj hscan').2]
    exact hcovered
  · exact fun hcovered => ⟨marker, declaration, finish, rfl, hscan, hcovered⟩

theorem Selection.nil (text : List Char) : Selection text [] [] [] where
  sublist := .slnil
  declared := .nil
  covered_iff _ h := absurd h List.not_mem_nil

/-- A covered marker changes nothing. -/
theorem Selection.cover (h : Selection text marked selected declarations)
    (hnew : ∀ line ∈ marked, line.start < marker.start) (hcovered : Covered text selected marker) :
    Selection text (marked ++ [marker]) selected declarations where
  sublist := h.sublist.trans (List.sublist_append_left ..)
  declared := h.declared
  covered_iff other hother := by
    rcases List.mem_append.1 hother with hother | hother
    · exact h.covered_iff other hother
    · rw [List.mem_singleton.1 hother]
      refine iff_of_true (fun hmem => ?_) hcovered
      exact Nat.lt_irrefl _ (hnew marker (h.sublist.subset hmem))

/-- A marker that is not covered is selected, if a declaration can be read behind it. -/
theorem Selection.select (h : Selection text marked selected declarations)
    (hnew : ∀ line ∈ marked, line.start < marker.start) (hcovered : ¬Covered text selected marker)
    {declaration : Declaration} {finish : Nat}
    (hscan : scanBehind text marker = .ok (declaration, finish)) :
    Selection text (marked ++ [marker]) (selected ++ [marker]) (declarations ++ [declaration]) where
  sublist := h.sublist.append_right [marker]
  declared := List.rel_append h.declared (.cons ⟨finish, hscan⟩ .nil)
  covered_iff other hother := by
    rcases List.mem_append.1 hother with hother | hother
    · -- A marker before the new one does not see it.
      have hlt := hnew other hother
      have hne : other ≠ marker := fun heq => Nat.lt_irrefl _ (heq ▸ hlt)
      rw [covered_append _ (by simpa using Nat.le_of_lt hlt), ← h.covered_iff other hother]
      simp [hne]
    · rw [List.mem_singleton.1 hother]
      refine iff_of_false (fun hmem => hmem (by simp)) ?_
      rwa [covered_append _ (by simp)]

end Steps

/-! ### Searching -/

/-- How a search ends of which the lines `marked` have been taken: all markers are accounted for, or
the first selected one that has no readable declaration behind it stops it. -/
def Outcome (text : List Char) (declarations : List Declaration) :
    Option (Nat × ScanError) → Prop
  | none => ∃ selected, Selection text (markers text) selected declarations
  | some (line, cause) => ∃ passed marker later selected,
      markers text = passed ++ marker :: later ∧ Selection text passed selected declarations ∧
        ¬Covered text selected marker ∧ scanBehind text marker = .error cause ∧
          line = marker.number + 1

section Search

variable {text : List Char} {before later : List Line} {marker : Line}

/-- Behind a marker on the last line there is nothing to be scanned. -/
theorem scanBehind_last (hlines : lines text = before ++ [marker]) :
    scanBehind text marker = .error .unterminated := by
  have hmarker : (lines text)[before.length]? = some marker := by simp [hlines]
  rw [scanBehind, Text.number_of_getElem?_lines hmarker, hlines]
  simp

/-- Behind any other marker the next line is scanned, which has the next number. -/
theorem scanBehind_next {first : Line} (hlines : lines text = before ++ marker :: first :: later) :
    first.number = marker.number + 1 ∧
      scanBehind text marker = Declaration.scan text first.start first.number := by
  have hmarker : (lines text)[before.length]? = some marker := by simp [hlines]
  have hfirst : (lines text)[before.length + 1]? = some first := by simp [hlines]
  rw [Text.number_of_getElem?_lines hmarker, Text.number_of_getElem?_lines hfirst, scanBehind,
    Text.number_of_getElem?_lines hmarker, hfirst]
  simp [Text.number_of_getElem?_lines hfirst]

/-- The markers before a line start before it. -/
theorem start_lt_of_lines_eq (hlines : lines text = before ++ marker :: later) :
    ∀ line ∈ before.filter isMarker, line.start < marker.start := by
  intro line hline
  have hsorted := Text.pairwise_start_lines text
  rw [hlines, List.pairwise_append] at hsorted
  exact hsorted.2.2 line (List.mem_filter.1 hline).1 marker List.mem_cons_self

/-- A search stops at a selected marker that has no readable declaration behind it. -/
theorem outcome_of_error {selected : List Line} {declarations : List Declaration}
    {cause : ScanError} (hlines : lines text = before ++ marker :: later)
    (hselection : Selection text (before.filter isMarker) selected declarations)
    (hmarker : isMarker marker = true) (hcovered : ¬Covered text selected marker)
    (hscan : scanBehind text marker = .error cause) :
    Outcome text (declarations ++ []) (some (marker.number + 1, cause)) := by
  rw [List.append_nil]
  refine ⟨_, marker, later.filter isMarker, selected, ?_, hselection, hcovered, hscan, rfl⟩
  rw [markers, hlines, List.filter_append, List.filter_cons_of_pos hmarker]

/-- A search accounts for the markers one after the other. -/
theorem outcome_search (id : String) {rest selected : List Line}
    {declarations : List Declaration} {resume : Nat} (hlines : lines text = before ++ rest)
    (hselection : Selection text (before.filter isMarker) selected declarations)
    (hreach : Reach text selected resume) :
    Outcome text (declarations ++ (search id text resume rest).declarations)
      (search id text resume rest).failure := by
  induction rest generalizing before selected declarations resume with
  | nil =>
      refine ⟨selected, ?_⟩
      rw [markers, hlines, List.append_nil]
      simpa [search] using hselection
  | cons line later ih =>
      have hnext : lines text = (before ++ [line]) ++ later := by
        rw [hlines, List.append_assoc, List.singleton_append]
      have hnew := start_lt_of_lines_eq hlines
      have hcovered : Covered text selected line ↔ line.start < resume :=
        hreach line fun earlier h => hnew earlier (hselection.sublist.subset h)
      by_cases hmarker : isMarker line = true
      · have hfilter : (before ++ [line]).filter isMarker = before.filter isMarker ++ [line] := by
          rw [List.filter_append, List.filter_cons_of_pos hmarker, List.filter_nil]
        by_cases hresume : line.start < resume
        · rw [search_skip (by simp [passes, hresume])]
          refine ih hnext ?_ hreach
          rw [hfilter]
          exact hselection.cover hnew (hcovered.2 hresume)
        · -- The marker is selected: what is behind it decides how the search goes on.
          have hpass : passes resume line = false := by
            rw [isMarker] at hmarker
            simp [passes, hresume, hmarker]
          have hfree : ¬Covered text selected line := mt hcovered.1 hresume
          cases later with
          | nil =>
              rw [search_last hpass]
              exact outcome_of_error hlines hselection hmarker hfree (scanBehind_last hlines)
          | cons first later =>
              obtain ⟨hnumber, hbehind⟩ := scanBehind_next hlines
              rw [search_marker hpass]
              cases hscan : Declaration.scan text first.start first.number with
              | error cause =>
                  rw [hscan] at hbehind
                  rw [hnumber]
                  exact outcome_of_error hlines hselection hmarker hfree hbehind
              | ok scanned =>
                  obtain ⟨declaration, finish⟩ := scanned
                  rw [hscan] at hbehind
                  have hselect := hselection.select hnew hfree hbehind
                  rw [← hfilter] at hselect
                  have hlater := ih hnext hselect (reach_select hbehind)
                  rw [List.append_assoc] at hlater
                  exact hlater
      · rw [isMarker] at hmarker
        rw [search_skip (by simp [passes, hmarker])]
        refine ih hnext ?_ hreach
        rwa [List.filter_append, List.filter_cons_of_neg (by simpa [isMarker] using hmarker),
          List.filter_nil, List.append_nil]

end Search

/-! ### Selections -/

section Selections

variable {text : List Char} {marked selected selected' : List Line}
  {declarations declarations' : List Declaration}

/-- Increasing lists with the same lines are equal. -/
theorem eq_of_mem_iff (hselected : selected.Pairwise (·.start < ·.start))
    (hselected' : selected'.Pairwise (·.start < ·.start))
    (h : ∀ line, line ∈ selected ↔ line ∈ selected') : selected = selected' := by
  have hnodup {l : List Line} (hl : l.Pairwise (·.start < ·.start)) : l.Nodup :=
    hl.imp fun {a b} hab => by
      rintro rfl
      exact Nat.lt_irrefl _ hab
  have hperm : selected.Perm selected' :=
    (List.perm_ext_iff_of_nodup (hnodup hselected) (hnodup hselected')).2 h
  exact hperm.eq_of_pairwise (fun a b _ _ hab hba => absurd hba (Nat.lt_asymm hab)) hselected
    hselected'

/-- Where the declarations end decides which of the marked lines are selected. -/
theorem Selection.unique (hmarked : marked.Pairwise (·.start < ·.start))
    (h : Selection text marked selected declarations)
    (h' : Selection text marked selected' declarations') : selected = selected' := by
  have hselected := hmarked.sublist h.sublist
  have hselected' := hmarked.sublist h'.sublist
  -- A line is decided by those before it, so the induction is on where it starts.
  have hsame (n : Nat) : ∀ line ∈ marked, line.start = n → (line ∈ selected ↔ line ∈ selected') := by
    induction n using Nat.strong_induction_on with
    | _ n ih =>
        intro line hline hstart
        have hbefore : selected.filter (·.start < line.start) =
            selected'.filter (·.start < line.start) := by
          refine eq_of_mem_iff (hselected.filter _) (hselected'.filter _) fun earlier => ?_
          rw [List.mem_filter, List.mem_filter, decide_eq_true_eq]
          refine and_congr_left fun hearlier => ?_
          have hmem := fun hmem => ih earlier.start (hstart ▸ hearlier) earlier hmem rfl
          exact ⟨fun hs => (hmem (h.sublist.subset hs)).1 hs,
            fun hs => (hmem (h'.sublist.subset hs)).2 hs⟩
        have hcovered : Covered text selected line ↔ Covered text selected' line := by
          rw [Covered, Covered, hbefore]
        rw [← not_iff_not, h.covered_iff line hline, h'.covered_iff line hline, hcovered]
  exact eq_of_mem_iff hselected hselected' fun line =>
    ⟨fun hs => (hsame _ line (h.sublist.subset hs) rfl).1 hs,
      fun hs => (hsame _ line (h'.sublist.subset hs) rfl).2 hs⟩

/-- Behind every selected line stands a declaration. -/
theorem Selection.exists_scanBehind (h : Selection text marked selected declarations) {line : Line}
    (hline : line ∈ selected) :
    ∃ declaration finish, scanBehind text line = .ok (declaration, finish) := by
  have hdeclared := h.declared
  clear h
  induction hdeclared with
  | nil => contradiction
  | @cons first declaration _ _ hfirst _ ih =>
      rcases List.mem_cons.1 hline with rfl | hline
      · obtain ⟨finish, hscan⟩ := hfirst
        exact ⟨declaration, finish, hscan⟩
      · exact ih hline

/-- Every declaration starts on the line behind its marker. -/
theorem line_of_scanBehind {marker : Line} {declaration : Declaration} {finish : Nat}
    (h : scanBehind text marker = .ok (declaration, finish)) :
    declaration.line = marker.number + 1 := by
  rw [scanBehind] at h
  split at h
  · contradiction
  · rename_i first hfirst
    obtain ⟨-, -, -, -, -, hline, -⟩ :=
      Declaration.exists_of_read_ok (Declaration.finish_add_length_rest h).1
    rw [hline, Text.number_of_getElem?_lines hfirst]

theorem Selection.lines_eq (h : Selection text marked selected declarations) :
    declarations.map (·.line) = selected.map (·.number + 1) := by
  have hdeclared := h.declared
  clear h
  induction hdeclared with
  | nil => rfl
  | cons hfirst _ ih =>
      obtain ⟨finish, hscan⟩ := hfirst
      rw [List.map_cons, List.map_cons, ih, line_of_scanBehind hscan]

/-- A declaration ends before every marker that is selected after it. -/
theorem Selection.finish_le (hmarked : marked.Pairwise (·.start < ·.start))
    (h : Selection text marked selected declarations) {earlier line : Line}
    (hearlier : earlier ∈ selected) (hline : line ∈ selected) (hlt : earlier.start < line.start)
    {declaration : Declaration} {finish : Nat}
    (hscan : scanBehind text earlier = .ok (declaration, finish)) : finish ≤ line.start := by
  have hselected := hmarked.sublist h.sublist
  -- The last marker selected before the line is the earlier one, or it starts behind its end.
  induction hn : line.start using Nat.strong_induction_on generalizing line with
  | _ n ih =>
      subst hn
      have hmem : earlier ∈ selected.filter (·.start < line.start) :=
        List.mem_filter.2 ⟨hearlier, decide_eq_true hlt⟩
      obtain ⟨init, last, hinit⟩ := List.eq_nil_or_concat' (selected.filter (·.start < line.start))
        |>.resolve_left (List.ne_nil_of_mem hmem)
      have hlast : last ∈ selected ∧ last.start < line.start := by
        have : last ∈ selected.filter (·.start < line.start) := by simp [hinit]
        simpa using this
      obtain ⟨declaration', finish', hscan'⟩ := h.exists_scanBehind hlast.1
      have hreach : finish' ≤ line.start := by
        by_contra hcovered
        refine (h.covered_iff line (h.sublist.subset hline)).2 ?_ hline
        exact ⟨last, declaration', finish', by simp [hinit], hscan', by omega⟩
      rw [hinit, List.mem_append, List.mem_singleton] at hmem
      rcases hmem with hmem | rfl
      · have hsorted := hselected.filter (·.start < line.start)
        rw [hinit, List.pairwise_append] at hsorted
        have hlt' := hsorted.2.2 earlier hmem last (List.mem_singleton_self last)
        have := ih last.start hlast.2 hlast.1 hlt' rfl
        omega
      · rw [hscan] at hscan'
        injection hscan' with hscan'
        rw [(Prod.mk.inj hscan').2]
        exact hreach

/-- The windows of the selected lines are disjoint. -/
theorem Selection.pairwise_disjoint (hmarked : marked.Pairwise (·.start < ·.start))
    (h : Selection text marked selected declarations) :
    selected.Pairwise fun earlier line => ∀ i, InWindow text earlier i → ¬InWindow text line i := by
  refine (hmarked.sublist h.sublist).imp_of_mem fun {earlier line} hearlier hline hlt i => ?_
  rintro ⟨declaration, finish, hscan, -, hi⟩ ⟨-, -, -, hi', -⟩
  have := h.finish_le hmarked hearlier hline hlt hscan
  omega

/-- A marker that is not selected stands in the window of one that is. -/
theorem Selection.exists_window (h : Selection text marked selected declarations) {line : Line}
    (hline : line ∈ marked) (hselected : line ∉ selected) :
    ∃ marker ∈ selected, InWindow text marker line.start := by
  obtain ⟨last, declaration, finish, hlast, hscan, hfinish⟩ := (h.covered_iff line hline).1 hselected
  obtain ⟨hmem, hlt⟩ := List.mem_filter.1 (List.mem_of_getLast? hlast)
  exact ⟨last, hmem, declaration, finish, hscan, Nat.le_of_lt (of_decide_eq_true hlt), hfinish⟩

theorem pairwise_start_markers (text : List Char) :
    (markers text).Pairwise (·.start < ·.start) :=
  (Text.pairwise_start_lines text).filter _

/-- The lines of the declarations increase. -/
theorem Selection.pairwise_line (h : Selection text (markers text) selected declarations) :
    declarations.Pairwise (·.line < ·.line) := by
  have hnumbers : selected.Pairwise (·.number < ·.number) :=
    (Text.pairwise_number_lines text).sublist (h.sublist.trans List.filter_sublist)
  have hlines : (declarations.map (·.line)).Pairwise (· < ·) := by
    rw [h.lines_eq, List.pairwise_map]
    exact hnumbers.imp fun {a b} hab => Nat.succ_lt_succ hab
  exact List.pairwise_map.1 hlines

end Selections

/-! ### Whole sources -/

theorem scan_eq_ok_iff {source : Source} {exports : SourceExports} :
    source.scan = .ok exports ↔ source.findings.failure = none ∧
      exports = ⟨source.id, source.findings.declarations⟩ := by
  have hsource : source.findings.source = source.id := source_search ..
  rw [scan, Findings.result, Findings.failure?, hsource]
  cases source.findings.failure with
  | none => simp [eq_comm]
  | some failure => simp

theorem scan_eq_error_iff {source : Source} {failure : SourceFailure} :
    source.scan = .error failure ↔ source.findings.failure = some (failure.line, failure.cause) ∧
      failure.source = source.id := by
  have hsource : source.findings.source = source.id := source_search ..
  obtain ⟨id, line, cause⟩ := failure
  rw [scan, Findings.result, Findings.failure?, hsource]
  cases source.findings.failure with
  | none => simp
  | some found => simp [Prod.ext_iff, and_comm, eq_comm]

/-- What is found in a source accounts for its markers. -/
theorem outcome_findings (source : Source) :
    Outcome source.text.toList source.findings.declarations source.findings.failure :=
  outcome_search source.id (List.nil_append _).symm (Selection.nil _) (reach_nil _)

/-- Every marker is accounted for.  If all declarations of a source are readable, exactly one selection
of its marker lines gives them, and every other marker stands in the window of a selected one, that is
between it and the end of the declaration behind it.  Otherwise the failure is at the first selected
marker with nothing readable behind it. -/
theorem markers_accounted (source : Source) :
    let text := source.text.toList
    (∀ line ∈ lines text, line.StandsIn text) ∧
    (∀ exports, source.scan = .ok exports → exports.source = source.id ∧
      (∃! selected, Selection text (markers text) selected exports.declarations) ∧
      ∀ selected, Selection text (markers text) selected exports.declarations →
        exports.declarations.map (·.line) = selected.map (·.number + 1) ∧
        exports.declarations.Pairwise (·.line < ·.line) ∧
        selected.Pairwise (fun earlier line =>
          ∀ i, InWindow text earlier i → ¬InWindow text line i) ∧
        ∀ line ∈ markers text, line ∉ selected →
          ∃ marker ∈ selected, InWindow text marker line.start) ∧
    ∀ failure, source.scan = .error failure → failure.source = source.id ∧
      ∃ passed marker later, markers text = passed ++ marker :: later ∧
        (∃! selected, ∃ declarations, Selection text passed selected declarations) ∧
        (∀ selected declarations, Selection text passed selected declarations →
          ¬Covered text selected marker) ∧
        scanBehind text marker = .error failure.cause ∧ failure.line = marker.number + 1 := by
  intro text
  have houtcome : Outcome text _ _ := outcome_findings source
  have hmarkers := pairwise_start_markers text
  refine ⟨fun line hline => Text.standsIn_of_mem_lines hline, fun exports h => ?_,
    fun failure h => ?_⟩
  · obtain ⟨hnone, rfl⟩ := scan_eq_ok_iff.1 h
    rw [hnone] at houtcome
    obtain ⟨selected, hselection⟩ := houtcome
    refine ⟨rfl, ⟨selected, hselection, fun other hother => hother.unique hmarkers hselection⟩, ?_⟩
    intro selected hselection
    exact ⟨hselection.lines_eq, hselection.pairwise_line, hselection.pairwise_disjoint hmarkers,
      fun line hline hselected => hselection.exists_window hline hselected⟩
  · obtain ⟨hsome, hsource⟩ := scan_eq_error_iff.1 h
    rw [hsome] at houtcome
    obtain ⟨passed, marker, later, selected, hpassed, hselection, hcovered, hscan, hline⟩ := houtcome
    rw [hpassed] at hmarkers
    have hunique {other : List Line} {declarations : List Declaration}
        (hother : Selection text passed other declarations) : other = selected :=
      hother.unique (List.pairwise_append.1 hmarkers).1 hselection
    refine ⟨hsource, passed, marker, later, hpassed, ⟨selected, ⟨_, hselection⟩, ?_⟩, ?_, hscan,
      hline⟩
    · rintro other ⟨declarations, hother⟩
      exact hunique hother
    · intro other declarations hother
      rwa [hunique hother]

/-- The marker on the third line of a declaration is covered by it; a marker on the last line is
selected and has nothing behind it. -/
theorem markers_accounted_covered :
    (∃ exports, scan ⟨"a", "// [[export]]\nint f(é a,\n// [[export]]\nint b);\n"⟩ = .ok exports ∧
      (∃! selected, Selection "// [[export]]\nint f(é a,\n// [[export]]\nint b);\n".toList
        (markers "// [[export]]\nint f(é a,\n// [[export]]\nint b);\n".toList) selected
        exports.declarations) ∧
      exports.declarations.map (·.line) = [2] ∧
      (markers "// [[export]]\nint f(é a,\n// [[export]]\nint b);\n".toList).map (·.number) =
        [1, 3]) ∧
    ∃ passed marker later,
      markers "// [[export]]\nf();\n// [[export]]".toList = passed ++ marker :: later ∧
      (∃! selected, ∃ declarations,
        Selection "// [[export]]\nf();\n// [[export]]".toList passed selected declarations) ∧
      scanBehind "// [[export]]\nf();\n// [[export]]".toList marker = .error .unterminated ∧
      4 = marker.number + 1 := by
  have hlines : ((scan ⟨"a", "// [[export]]\nint f(é a,\n// [[export]]\nint b);\n"⟩).toOption.map
      fun exports => exports.declarations.map (·.line)) = some [2] := by
    decide +kernel
  have hfailure : scan ⟨"a", "// [[export]]\nf();\n// [[export]]"⟩ =
      .error ⟨"a", 4, .unterminated⟩ := by
    decide +kernel
  obtain ⟨-, passed, marker, later, hpassed, hunique, -, hscan, hline⟩ :=
    (markers_accounted ⟨"a", "// [[export]]\nf();\n// [[export]]"⟩).2.2 _ hfailure
  refine ⟨?_, passed, marker, later, hpassed, hunique, hscan, hline⟩
  cases hscan : scan ⟨"a", "// [[export]]\nint f(é a,\n// [[export]]\nint b);\n"⟩ with
  | error failure =>
      rw [hscan] at hlines
      contradiction
  | ok exports =>
      rw [hscan] at hlines
      injection hlines with hlines
      obtain ⟨-, hunique, -⟩ := (markers_accounted _).2.1 exports hscan
      exact ⟨exports, rfl, hunique, hlines, by decide +kernel⟩

end Source
end ExportIndex
