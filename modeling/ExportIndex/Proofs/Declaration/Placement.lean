import Mathlib.Data.List.Basic
import ExportIndex.Proofs.Declaration.Extent
import ExportIndex.Proofs.Text.Lines

/-!
# Declarations in a longer text

A declaration is scanned alike wherever it stands: text behind it changes nothing, and whole lines in
front of it change only the numbers of lines and characters.

* `location_append` and `location_moved` say the same of the place of a flaw.
* `scan_append` — a scan that does not run into the end of the text is not affected by more text.
* `scan_moved` — behind whole lines a scan gives what it gives at the start of the text, moved.
-/

namespace ExportIndex

open Text (Closed Location)

/-- A location with more lines before it. -/
def Text.Location.moved (feeds : Nat) (location : Location) : Location :=
  { location with line := location.line + feeds }

/-- A scan error in a text with more lines before it. -/
def ScanError.moved (feeds : Nat) : ScanError → ScanError
  | .unterminated => .unterminated
  | .flawed flaw location => .flawed flaw (location.moved feeds)
  | .undoRefused => .undoRefused

/-- A declaration with more lines before it. -/
def Declaration.moved (feeds : Nat) (declaration : Declaration) : Declaration :=
  { declaration with line := declaration.line + feeds }

namespace Reader

/-- If the line that is shown is complete, it stays the same when more text follows. -/
theorem location_append {c : Char} {past rest : List Char} {undoable : Bool}
    (h : Closed (c :: rest)) (more : List Char) :
    location ⟨c :: past, rest ++ more, undoable⟩ = location ⟨c :: past, rest, undoable⟩ := by
  obtain ⟨body, later, hline, hbody⟩ := List.eq_append_cons_of_mem (h.mem (List.cons_ne_nil c rest))
  have hlater : c :: rest ++ more = body ++ '\n' :: (later ++ more) := by
    rw [hline, List.append_assoc, List.cons_append]
  simp only [location, List.head?_cons, Option.toList_some, List.singleton_append, ← List.cons_append]
  rw [hlater, hline, Text.takeWhile_feed hbody, Text.takeWhile_feed hbody]

/-- Whole lines before the text move a location and do not change the line that is shown. -/
theorem location_moved {before : List Char} (h : Closed before) (c : Char) (past rest : List Char)
    (undoable : Bool) :
    location ⟨c :: past ++ before.reverse, rest, undoable⟩ =
      (location ⟨c :: past, rest, undoable⟩).moved (before.count '\n') := by
  -- Either the line starts behind its own line feed, or the text before ends with one.
  have hline : (past ++ before.reverse).takeWhile (· != '\n') = past.takeWhile (· != '\n') := by
    by_cases hfeed : '\n' ∈ past
    · obtain ⟨body, later, rfl, hbody⟩ := List.eq_append_cons_of_mem hfeed
      rw [List.append_assoc, List.cons_append, Text.takeWhile_feed hbody, Text.takeWhile_feed hbody]
    · have hbefore : before.reverse.takeWhile (· != '\n') = [] := by
        rcases h with rfl | h
        · rfl
        · rw [List.getLast?_eq_head?_reverse] at h
          obtain ⟨rest, hrest⟩ := List.head?_eq_some_iff.1 h
          rw [hrest]
          rfl
      rw [List.takeWhile_append_of_pos fun d hd => by
        simpa using fun heq : d = '\n' => hfeed (heq ▸ hd), hbefore, List.append_nil]
      rw [← List.append_nil past, List.takeWhile_append_of_pos fun d hd => by
        simpa using fun heq : d = '\n' => hfeed (heq ▸ hd)]
      rfl
  simp [location, Location.moved, hline, List.count_append]
  omega

end Reader

namespace Declaration

/-- The line that a declaration is said to start on is only passed through. -/
theorem read_line (line feeds : Nat) (r : Reader) :
    read (line + feeds) r = ((read line r).1.map (Declaration.moved feeds), (read line r).2) := by
  rw [read_eq, read_eq]
  split
  · rfl
  · cases (readParameters true (Segment.read .head .empty r).reader).1 <;> rfl

theorem startAt_moved (before text : List Char) (start : Nat) :
    Reader.startAt (before ++ text) (start + before.length) =
      ⟨(text.take start).reverse ++ before.reverse, text.drop start, false⟩ := by
  rw [Reader.startAt, Nat.add_comm, List.take_length_add_append, List.drop_length_add_append,
    List.reverse_append]

/-- How a scan ends that reads no further than `consumed`. -/
theorem scan_of_consumes {line start : Nat} {text consumed rest : List Char}
    {result : Except Halt Declaration} (hrest : text.drop start = consumed ++ rest)
    (h : Reader.Consumes (read line) consumed result) :
    scan text start line =
      match result with
      | .ok declaration => .ok (declaration, consumed.length + (text.take start).length)
      | .error halt =>
        .error (halt.placed ⟨consumed.reverse ++ (text.take start).reverse, rest, true⟩) := by
  rw [scan, Reader.startAt, hrest, h]
  cases result with
  | error => rfl
  | ok => simp [Reader.position]

/-- A declaration ends inside its text. -/
theorem finish_le {text : List Char} {start line finish : Nat} {declaration : Declaration}
    (h : scan text start line = .ok (declaration, finish)) : finish ≤ text.length := by
  have := (finish_add_length_rest h).2
  omega

/-- A scan that does not run into the end of the text is not affected by more text. -/
theorem scan_append {text : List Char} (hclosed : Closed text) {start : Nat}
    (hstart : start ≤ text.length) {line : Nat} (h : scan text start line ≠ .error .unterminated)
    (more : List Char) : scan (text ++ more) start line = scan text start line := by
  rcases read_local line (.startAt text start) with hend | ⟨consumed, rest, hrest, hne, hread⟩
  · rw [scan] at h
    generalize read line (.startAt text start) = outcome at h hend
    obtain ⟨result, r⟩ := outcome
    obtain rfl : result = .error .unterminated := hend
    exact absurd rfl h
  · have hrest' : text.drop start = consumed ++ rest := hrest
    have hmore : (text ++ more).drop start = consumed ++ (rest ++ more) := by
      rw [List.drop_append_of_le_length hstart, hrest', List.append_assoc]
    generalize (read line (.startAt text start)).1 = result at hread
    rw [scan_of_consumes hrest' hread, scan_of_consumes hmore hread,
      List.take_append_of_le_length hstart]
    cases result with
    | ok => rfl
    | error halt =>
        cases halt with
        | unterminated => rfl
        | undoRefused => rfl
        | flawed flaw =>
            obtain rfl | ⟨init, c, rfl⟩ := List.eq_nil_or_concat' consumed
            · contradiction
            -- The line of the flaw holds the last character read, so the text behind does not reach it.
            have hline : Closed (c :: rest) := by
              rw [← List.take_append_drop start text, hrest', List.append_assoc,
                ← List.append_assoc] at hclosed
              exact hclosed.of_append
            simp only [Halt.placed, List.reverse_append, List.reverse_cons, List.reverse_nil,
              List.nil_append, List.cons_append]
            rw [Reader.location_append hline]

/-- Behind whole lines a scan gives what it gives at the start of the text, moved. -/
theorem scan_moved {before : List Char} (hclosed : Closed before) (text : List Char)
    (start line : Nat) :
    scan (before ++ text) (start + before.length) (line + before.count '\n') =
      match scan text start line with
      | .ok (declaration, finish) =>
        .ok (declaration.moved (before.count '\n'), finish + before.length)
      | .error error => .error (error.moved (before.count '\n')) := by
  have hrest : (Reader.startAt text start).rest =
      (Reader.startAt (before ++ text) (start + before.length)).rest := by
    rw [startAt_moved]
    rfl
  rw [scan, read_line]
  rcases (read_local line).same_rest hrest with ⟨h₁, h₂⟩ | ⟨consumed, rest, result, htext, hne, hread⟩
  · rw [scan]
    generalize read line (.startAt text start) = outcome₁ at h₁
    generalize read line (.startAt (before ++ text) (start + before.length)) = outcome₂ at h₂
    obtain ⟨result₁, r₁⟩ := outcome₁
    obtain ⟨result₂, r₂⟩ := outcome₂
    obtain rfl : result₁ = .error .unterminated := h₁
    obtain rfl : result₂ = .error .unterminated := h₂
    rfl
  · have htext' : text.drop start = consumed ++ rest := htext
    rw [scan_of_consumes htext' hread, startAt_moved, htext', hread]
    cases result with
    | ok declaration =>
        simp [Except.map, Reader.position]
        omega
    | error halt =>
        cases halt with
        | unterminated => rfl
        | undoRefused => rfl
        | flawed flaw =>
            obtain rfl | ⟨init, c, rfl⟩ := List.eq_nil_or_concat' consumed
            · contradiction
            simp only [Except.map, Halt.placed, ScanError.moved, List.reverse_append,
              List.reverse_cons, List.reverse_nil, List.nil_append, List.cons_append]
            rw [← List.append_assoc, ← List.cons_append, Reader.location_moved hclosed]

end Declaration
end ExportIndex
