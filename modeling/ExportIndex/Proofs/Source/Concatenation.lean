import Mathlib.Data.List.TakeWhile
import ExportIndex.Source.Basic
import ExportIndex.Proofs.Declaration.Placement

/-!
# Sources one after the other

Scanning a source is a homomorphism for putting one text behind another, as long as the first has no
unfinished line.

* `search_skip`, `search_last` and `search_marker` are the three steps of a search.
* `search_moved` — lines behind whole lines give what they give at the start of a text, moved.
* `search_append` and `search_append_failure` — lines that are searched without running into the end
  of the text are searched alike when more text and more lines follow.
* `scan_concat` joins them for whole sources.
-/

namespace ExportIndex

open Text (Closed Line lines)

/-- A failure in a source with more lines before it. -/
def SourceFailure.moved (feeds : Nat) (failure : SourceFailure) : SourceFailure :=
  ⟨failure.source, failure.line + feeds, failure.cause.moved feeds⟩

namespace Source

/-- Findings with more lines before them. -/
def Findings.moved (feeds : Nat) (found : Findings) : Findings :=
  ⟨found.source, found.declarations.map (Declaration.moved feeds),
    found.failure.map fun (line, cause) => (line + feeds, cause.moved feeds)⟩

/-- Findings with more declarations before them. -/
def Findings.behind (earlier : List Declaration) (found : Findings) : Findings :=
  { found with declarations := earlier ++ found.declarations }

/-- Whether a search passes over a line: it belongs to a declaration already read, or marks none. -/
def passes (resume : Nat) (line : Line) : Bool :=
  line.start < resume || !isMarkerLine line.text

/-! ### Steps of a search -/

section Steps

variable {id : String} {text : List Char} {resume : Nat} {line : Line}

theorem search_skip (h : passes resume line = true) (later : List Line) :
    search id text resume (line :: later) = search id text resume later := by
  cases later with
  | nil => exact if_pos h
  | cons first later => exact if_pos h

theorem search_last (h : passes resume line = false) :
    search id text resume [line] = ⟨id, [], some (line.number + 1, .unterminated)⟩ :=
  if_neg (Bool.eq_false_iff.1 h)

theorem search_marker (h : passes resume line = false) (first : Line) (later : List Line) :
    search id text resume (line :: first :: later) =
      match Declaration.scan text first.start first.number with
      | .error error => ⟨id, [], some (first.number, error)⟩
      | .ok (declaration, finish) => (search id text finish (first :: later)).cons declaration :=
  if_neg (Bool.eq_false_iff.1 h)

end Steps

/-- Lines that all start late enough are searched alike, whatever has been read before them. -/
theorem search_resume (id : String) (text : List Char) {resume resume' : Nat} {rest : List Line}
    (h : ∀ line ∈ rest, resume ≤ line.start ∧ resume' ≤ line.start) :
    search id text resume rest = search id text resume' rest := by
  induction rest with
  | nil => rfl
  | cons line later ih =>
      have hlater : ∀ line ∈ later, resume ≤ line.start ∧ resume' ≤ line.start :=
        fun l hl => h l (List.mem_cons_of_mem line hl)
      obtain ⟨hline, hline'⟩ := h line List.mem_cons_self
      -- Where reading has come to is asked only here.
      have hpasses : passes resume line = passes resume' line := by
        rw [passes, passes, decide_eq_false (Nat.not_lt.2 hline),
          decide_eq_false (Nat.not_lt.2 hline')]
      cases hpass : passes resume line with
      | true => rw [search_skip hpass, search_skip (hpasses ▸ hpass), ih hlater]
      | false =>
          cases later with
          | nil => rw [search_last hpass, search_last (hpasses ▸ hpass)]
          | cons first later => rw [search_marker hpass, search_marker (hpasses ▸ hpass)]

/-- Lines behind whole lines give what they give at the start of a text, moved. -/
theorem search_moved (id : String) {before : List Char} (hclosed : Closed before)
    (text : List Char) (resume : Nat) (rest : List Line) :
    search id (before ++ text) (resume + before.length)
        (rest.map (Line.moved before.length (before.count '\n'))) =
      (search id text resume rest).moved (before.count '\n') := by
  induction rest generalizing resume with
  | nil => rfl
  | cons line later ih =>
      have hpasses : passes (resume + before.length) (line.moved before.length (before.count '\n')) =
          passes resume line := by
        simp [passes, Line.moved]
      rw [List.map_cons]
      cases hpass : passes resume line with
      | true => rw [search_skip hpass, search_skip (hpasses.trans hpass), ih]
      | false =>
          cases later with
          | nil =>
              rw [List.map_nil, search_last hpass, search_last (hpasses.trans hpass)]
              simp [Findings.moved, Line.moved, ScanError.moved]
              omega
          | cons first later =>
              rw [List.map_cons, search_marker hpass, search_marker (hpasses.trans hpass),
                ← List.map_cons]
              -- Behind the marker the scan starts at the moved line.
              have hscan := Declaration.scan_moved hclosed text first.start first.number
              simp only [Line.moved] at hscan ⊢
              rw [hscan]
              cases Declaration.scan text first.start first.number with
              | error error => rfl
              | ok scanned =>
                  obtain ⟨declaration, finish⟩ := scanned
                  simp only
                  rw [ih finish]
                  rfl

/-- Lines of a text whose declarations are all readable are searched alike when more follows. -/
theorem search_append (id : String) {text : List Char} (hclosed : Closed text) (more : List Char)
    {rest after : List Line} (hrest : ∀ line ∈ rest, line.start ≤ text.length)
    (hafter : ∀ line ∈ after, text.length ≤ line.start) {resume : Nat}
    (hresume : resume ≤ text.length) (h : (search id text resume rest).failure = none) :
    search id (text ++ more) resume (rest ++ after) =
      (search id (text ++ more) text.length after).behind (search id text resume rest).declarations := by
  induction rest generalizing resume with
  | nil =>
      -- All lines of the second text start behind the first, wherever its last declaration ended.
      exact search_resume id _ fun line hline =>
        ⟨Nat.le_trans hresume (hafter line hline), hafter line hline⟩
  | cons line later ih =>
      have hlater : ∀ line ∈ later, line.start ≤ text.length :=
        fun l hl => hrest l (List.mem_cons_of_mem line hl)
      cases hpass : passes resume line with
      | true =>
          rw [search_skip hpass] at h ⊢
          rw [List.cons_append, search_skip hpass, ih hlater hresume h]
      | false =>
          cases later with
          | nil =>
              rw [search_last hpass] at h
              contradiction
          | cons first later =>
              rw [search_marker hpass] at h ⊢
              cases hscan : Declaration.scan text first.start first.number with
              | error error =>
                  rw [hscan] at h
                  contradiction
              | ok scanned =>
                  obtain ⟨declaration, finish⟩ := scanned
                  rw [hscan] at h
                  have hfirst := hlater first List.mem_cons_self
                  have hread : Declaration.scan text first.start first.number ≠
                      .error .unterminated := by
                    rw [hscan]
                    simp
                  have hmore := Declaration.scan_append hclosed hfirst hread more
                  rw [List.cons_append, List.cons_append, search_marker hpass, hmore, hscan,
                    ← List.cons_append]
                  simp only
                  rw [ih hlater (Declaration.finish_le hscan) h]
                  rfl

/-- A declaration that cannot be read stays unreadable, unless it is the end of the text that cuts it
short. -/
theorem search_append_failure (id : String) {text : List Char} (hclosed : Closed text)
    (more : List Char) {rest : List Line} (hrest : ∀ line ∈ rest, line.start ≤ text.length)
    (after : List Line) {resume line : Nat} {cause : ScanError}
    (h : (search id text resume rest).failure = some (line, cause)) (hcause : cause ≠ .unterminated) :
    search id (text ++ more) resume (rest ++ after) = search id text resume rest := by
  induction rest generalizing resume with
  | nil => contradiction
  | cons head later ih =>
      have hlater : ∀ line ∈ later, line.start ≤ text.length :=
        fun l hl => hrest l (List.mem_cons_of_mem head hl)
      cases hpass : passes resume head with
      | true =>
          rw [search_skip hpass] at h
          rw [List.cons_append, search_skip hpass, search_skip hpass, ih hlater h]
      | false =>
          cases later with
          | nil =>
              rw [search_last hpass] at h
              injection h with h
              injection h with hline h
              exact absurd h.symm hcause
          | cons first later =>
              have hfirst := hlater first List.mem_cons_self
              rw [search_marker hpass] at h
              -- A scan that runs into the end of the text would be the failure itself.
              have hread : Declaration.scan text first.start first.number ≠
                  .error .unterminated := by
                intro hscan
                rw [hscan] at h
                injection h with h
                injection h with hline h
                exact hcause h.symm
              have hmore := Declaration.scan_append hclosed hfirst hread more
              rw [List.cons_append, List.cons_append, search_marker hpass, search_marker hpass, hmore,
                ← List.cons_append]
              cases hscan : Declaration.scan text first.start first.number with
              | error error => rfl
              | ok scanned =>
                  obtain ⟨declaration, finish⟩ := scanned
                  rw [hscan] at h
                  simp only
                  rw [ih hlater h]

theorem source_search (id : String) (text : List Char) (resume : Nat) (rest : List Line) :
    (search id text resume rest).source = id := by
  induction rest generalizing resume with
  | nil => rfl
  | cons line later ih =>
      cases hpass : passes resume line with
      | true => rw [search_skip hpass, ih]
      | false =>
          cases later with
          | nil => rw [search_last hpass]
          | cons first later =>
              rw [search_marker hpass]
              split
              · rfl
              · exact ih _

/-- What is found in a closed text with a second one behind it. -/
theorem findings_append (id : String) {before : String} (hclosed : Closed before.toList)
    (after : String) (h : (findings ⟨id, before⟩).failure = none) :
    findings ⟨id, before ++ after⟩ =
      ((findings ⟨id, after⟩).moved (before.toList.count '\n')).behind
        (findings ⟨id, before⟩).declarations := by
  have hstart : ∀ line ∈ lines before.toList, line.start ≤ before.toList.length := by
    intro line hline
    have := Text.start_of_mem_linesFrom hline
    omega
  have hlater : ∀ line ∈ (lines after.toList).map
      (Line.moved before.toList.length (before.toList.count '\n')),
      before.toList.length ≤ line.start := by
    intro line hline
    obtain ⟨original, -, rfl⟩ := List.mem_map.1 hline
    exact Nat.le_add_left _ _
  have hmoved := search_moved id hclosed after.toList 0 (lines after.toList)
  rw [Nat.zero_add] at hmoved
  rw [findings, String.toList_append, Text.lines_append hclosed,
    search_append id hclosed after.toList hstart hlater (Nat.zero_le _) h, hmoved]
  rfl

/-- Scanning a source whose lines are all finished and a second one behind it gives what scanning
each of them gives, the second one moved; what cannot be read in the first cannot be read at all. -/
theorem scan_concat (id before after : String) (hclosed : Closed before.toList) :
    (∀ exports, scan ⟨id, before⟩ = .ok exports →
      scan ⟨id, before ++ after⟩ =
        match scan ⟨id, after⟩ with
        | .ok later =>
          .ok ⟨id, exports.declarations ++
            later.declarations.map (Declaration.moved (before.toList.count '\n'))⟩
        | .error failure => .error (failure.moved (before.toList.count '\n'))) ∧
    ∀ failure, scan ⟨id, before⟩ = .error failure → failure.cause ≠ .unterminated →
      scan ⟨id, before ++ after⟩ = .error failure := by
  constructor
  · intro exports h
    cases hfailure : (findings ⟨id, before⟩).failure with
    | some failure => simp [scan, Findings.result, Findings.failure?, hfailure] at h
    | none =>
        obtain rfl : ⟨(findings ⟨id, before⟩).source, (findings ⟨id, before⟩).declarations⟩ = exports := by
          simpa [scan, Findings.result, Findings.failure?, hfailure] using h
        have hsource : (findings ⟨id, after⟩).source = id := source_search ..
        rw [scan, scan, findings_append id hclosed after hfailure]
        cases hlater : (findings ⟨id, after⟩).failure with
        | none => simp [Findings.result, Findings.failure?, Findings.behind, Findings.moved, hlater, hsource]
        | some failure =>
            simp [Findings.result, Findings.failure?, Findings.behind, Findings.moved, hlater,
              SourceFailure.moved]
  · intro failure h hcause
    have hstart : ∀ line ∈ lines before.toList, line.start ≤ before.toList.length := by
      intro line hline
      have := Text.start_of_mem_linesFrom hline
      omega
    cases hfailure : (findings ⟨id, before⟩).failure with
    | none => simp [scan, Findings.result, Findings.failure?, hfailure] at h
    | some found =>
        obtain ⟨line, cause⟩ := found
        obtain rfl : ⟨(findings ⟨id, before⟩).source, line, cause⟩ = failure := by
          simpa [scan, Findings.result, Findings.failure?, hfailure] using h
        have happend := search_append_failure id hclosed after.toList hstart
          ((lines after.toList).map (Line.moved before.toList.length (before.toList.count '\n')))
          hfailure hcause
        rw [← h, scan, scan, findings, String.toList_append, Text.lines_append hclosed, happend]
        rfl

/-- A flaw on the last line of a text is found behind other lines, and with more text behind it. -/
theorem scan_concat_flaw :
    Closed "// [[export]]\nint f();\n".toList ∧
      scan ⟨"a", "// [[export]]\nint f();\n" ++ "// [[export]]\nint) g();\n"⟩ =
        .error ⟨"a", 4, .flawed .unbalancedParens ⟨4, "int) g();"⟩⟩ ∧
      scan ⟨"a", "// [[export]]\nint) g();\n" ++ "// [[export]]\n"⟩ =
        .error ⟨"a", 2, .flawed .unbalancedParens ⟨2, "int) g();"⟩⟩ := by
  have hclosed : Closed "// [[export]]\nint f();\n".toList := .inr (by decide)
  have hclosed' : Closed "// [[export]]\nint) g();\n".toList := .inr (by decide)
  have hfirst : scan ⟨"a", "// [[export]]\nint f();\n"⟩ =
      .ok ⟨"a", [⟨"f", 2, ⟨"int", "int", 0, .none, .empty⟩, []⟩]⟩ := by
    decide +kernel
  have hsecond : scan ⟨"a", "// [[export]]\nint) g();\n"⟩ =
      .error ⟨"a", 2, .flawed .unbalancedParens ⟨2, "int) g();"⟩⟩ := by
    decide +kernel
  have hconcat := (scan_concat "a" _ "// [[export]]\nint) g();\n" hclosed).1 _ hfirst
  rw [hsecond] at hconcat
  exact ⟨hclosed, hconcat,
    (scan_concat "a" _ "// [[export]]\n" hclosed').2 _ hsecond (by simp)⟩

end Source
end ExportIndex
