import ExportIndex.Proofs.Declaration.Layout
import ExportIndex.Proofs.Declaration.Placement

/-!
# Declarations cut short

The outcome of a scan is decided by the characters that are read, and not before the last of them.

* `Reader.Local.unterminated_of_cut` — no text that can be consumed is the beginning of another.
* `current?_readParameters` — the last character of a parameter list is its closing parenthesis.
* `scan_decided` — the characters read give the same outcome in every text, and a text that is cut off
  among them ends too early.
-/

namespace ExportIndex

namespace Reader

/-- The last step read the character with index `p`. -/
def LastRead (r : Reader) (p : Nat) : Prop :=
  r.undoable = true ∧ r.position = p + 1

/-- A consumed text is needed to its last character: cut off before, it ends too early. -/
theorem Local.unterminated_of_cut {α : Type} {f : Reader → Except Halt α × Reader}
    (h : Local f) {text more : List Char} {a : Except Halt α} (hconsumes : Consumes f (text ++ more) a)
    (hmore : more ≠ []) (past : List Char) (undoable : Bool) :
    (f ⟨past, text, undoable⟩).1 = .error .unterminated := by
  rcases h ⟨past, text, undoable⟩ with hend | ⟨shorter, rest, htext, -, hshorter⟩
  · exact hend
  · -- Of the longer text the one reading would leave `rest ++ more`, and the other nothing.
    obtain rfl : text = shorter ++ rest := htext
    have hleft : (f ⟨past, shorter ++ (rest ++ more), undoable⟩).2.rest = rest ++ more := by
      rw [hshorter]
    have hnone : (f ⟨past, shorter ++ rest ++ more ++ [], undoable⟩).2.rest = [] := by
      rw [hconsumes]
    rw [List.append_nil, List.append_assoc, hleft] at hnone
    exact absurd (List.append_eq_nil_iff.1 hnone).2 hmore

end Reader

namespace Segment

/-- The last character of a segment that is read to its end is the delimiter. -/
theorem current?_read {part : Part} {s : Segment} {r : Reader} {delimiter : Delimiter}
    (h : (read part s r).result = .ok delimiter) :
    ∃ c, (read part s r).reader.current? = some c ∧
      Delimits part (read part s r).segment c delimiter := by
  rcases ends_or_unterminated part s r with hend | ⟨text, rest, hrest, hends⟩
  · rw [hend] at h
    contradiction
  · obtain ⟨past, _, undoable⟩ := r
    obtain rfl := hrest
    have hread := read_of_ends hends past rest undoable
    rw [h] at hends
    obtain ⟨-, hstop⟩ := hends
    cases hstop with
    | @delimiter c _ hdelimits =>
        refine ⟨c, ?_, hdelimits⟩
        rw [hread]
        simp [Reader.current?]

end Segment

namespace Declaration

/-- The last character of a parameter list is its closing parenthesis. -/
theorem current?_readParameters {first : Bool} {r : Reader} {parameters : List Parameter}
    (h : (readParameters first r).1 = .ok parameters) :
    (readParameters first r).2.current? = some ')' := by
  have hclosing {r : Reader} (h : (Segment.read .parameters .empty r).result = .ok .closing) :
      (Segment.read .parameters .empty r).reader.current? = some ')' := by
    obtain ⟨c, hcurrent, hdelimits⟩ := Segment.current?_read h
    cases hdelimits
    exact hcurrent
  fun_induction readParameters first r generalizing parameters with
  | case1 => contradiction
  | case2 first r slot delimiter hresult =>
      rename_i hblank
      obtain rfl : delimiter = .closing := by
        simp only [Bool.and_eq_true, beq_iff_eq] at hblank
        exact hblank.1.2
      exact hclosing hresult
  | case3 => contradiction
  | case4 first r slot name type hnamed hresult => exact hclosing hresult
  | case5 first r slot delimiter hresult hblank name type hnamed hclosing later =>
      rename_i ih
      cases hlater : later.1 with
      | error halt => simp [hlater, Except.map] at h
      | ok rest => exact ih hlater

/-- The last character of a declaration is the closing parenthesis of its parameter list. -/
theorem current?_read {line : Nat} {r : Reader} {declaration : Declaration}
    (h : (read line r).1 = .ok declaration) : (read line r).2.current? = some ')' := by
  obtain ⟨delimiter, parameters, -, -, hlist, -, -⟩ := exists_of_read_ok h
  have hcurrent : (readParameters true (Segment.read .head .empty r).reader).2.current? = some ')' :=
    current?_readParameters (by rw [hlist])
  rw [hlist] at hcurrent
  exact hcurrent

theorem scan_eq_unterminated_iff {text : List Char} {start line : Nat} :
    scan text start line = .error .unterminated ↔
      (scan text start line).mapError ScanError.halt = .error .unterminated := by
  cases scan text start line with
  | ok found => exact iff_of_false nofun nofun
  | error error =>
      cases error with
      | unterminated => exact iff_of_true rfl rfl
      | flawed flaw location => exact iff_of_false nofun nofun
      | undoRefused => exact iff_of_false nofun nofun

/-- The characters of a text from `start` up to `finish`, and no fewer, decide what a scan answers. -/
structure DecidedBy (text : List Char) (start finish line : Nat)
    (answer : Except Halt Declaration) : Prop where
  /-- The answer is the same wherever these characters stand. -/
  moved (text' : List Char) (start' : Nat)
    (hsame : text'.extract start' (start' + (finish - start)) = text.extract start finish) :
    (scan text' start' line).mapError ScanError.halt =
      answer.map (·, start' + (finish - start))
  /-- A text that is cut off before the last of them ends too early. -/
  cut (k : Nat) (hk : k < finish) : scan (text.take k) start line = .error .unterminated

section Consumed

variable {line start : Nat} {text consumed rest : List Char} {result : Except Halt Declaration}

/-- The characters that are consumed lie inside the text. -/
theorem start_add_length_le (hrest : text.drop start = consumed ++ rest) (hne : consumed ≠ []) :
    start + consumed.length ≤ text.length := by
  have hlength := congrArg List.length hrest
  have := List.length_pos_iff.2 hne
  rw [List.length_drop, List.length_append] at hlength
  omega

/-- The answer of a scan is decided by the characters that are consumed. -/
theorem mapError_scan_of_consumes (hrest : text.drop start = consumed ++ rest) (hne : consumed ≠ [])
    (h : Reader.Consumes (read line) consumed result) :
    (scan text start line).mapError ScanError.halt =
      result.map (·, start + consumed.length) := by
  have := start_add_length_le hrest hne
  have hposition : consumed.length + min start text.length = start + consumed.length := by omega
  rw [mapError_scan, Reader.startAt, hrest, h]
  simp [Reader.position, hposition]

/-- The last character that is read is the last one that is consumed. -/
theorem lastRead_of_consumes (hrest : text.drop start = consumed ++ rest) (hne : consumed ≠ [])
    (h : Reader.Consumes (read line) consumed result) :
    (read line (.startAt text start)).2.LastRead (start + (consumed.length - 1)) := by
  have := start_add_length_le hrest hne
  have := List.length_pos_iff.2 hne
  rw [Reader.startAt, hrest, h]
  refine ⟨rfl, ?_⟩
  rw [Reader.position, List.length_append, List.length_reverse, List.length_reverse,
    List.length_take]
  omega

/-- The same characters at any place of another text. -/
theorem exists_drop_of_extract (hrest : text.drop start = consumed ++ rest) {text' : List Char}
    {start' : Nat} (h : text'.extract start' (start' + consumed.length) =
      text.extract start (start + consumed.length)) :
    ∃ rest', text'.drop start' = consumed ++ rest' := by
  rw [List.extract_eq_take_drop, List.extract_eq_take_drop, Nat.add_sub_cancel_left,
    Nat.add_sub_cancel_left, hrest, List.take_left] at h
  have hsplit := List.take_append_drop consumed.length (text'.drop start')
  rw [h] at hsplit
  exact ⟨_, hsplit.symm⟩

/-- A text that is cut off among the characters of a declaration ends too early. -/
theorem scan_take_of_consumes (hrest : text.drop start = consumed ++ rest) (hne : consumed ≠ [])
    (h : Reader.Consumes (read line) consumed result) {k : Nat} (hk : k < start + consumed.length) :
    scan (text.take k) start line = .error .unterminated := by
  have hcut : k - start < consumed.length := by
    have := List.length_pos_iff.2 hne
    omega
  rw [← List.take_append_drop (k - start) consumed] at h
  have hmore : consumed.drop (k - start) ≠ [] := by
    rw [ne_eq, List.drop_eq_nil_iff]
    omega
  rw [scan_eq_unterminated_iff, mapError_scan, Reader.startAt, List.drop_take, hrest,
    List.take_append_of_le_length (Nat.le_of_lt hcut),
    (read_local line).unterminated_of_cut h hmore]
  rfl

/-- The characters that are consumed decide the answer. -/
theorem decidedBy_of_consumes (hrest : text.drop start = consumed ++ rest) (hne : consumed ≠ [])
    (h : Reader.Consumes (read line) consumed result) :
    DecidedBy text start (start + consumed.length) line result where
  moved text' start' hsame := by
    rw [Nat.add_sub_cancel_left] at hsame ⊢
    obtain ⟨rest', hrest'⟩ := exists_drop_of_extract hrest hsame
    exact mapError_scan_of_consumes hrest' hne h
  cut _ hk := scan_take_of_consumes hrest hne h hk

end Consumed

/-- A scan that does not run into the end of the text consumes the characters up to the last one
read. -/
theorem exists_consumed {text : List Char} {start line : Nat}
    (h : scan text start line ≠ .error .unterminated) :
    ∃ consumed rest result, text.drop start = consumed ++ rest ∧ consumed ≠ [] ∧
      Reader.Consumes (read line) consumed result := by
  rcases read_local line (.startAt text start) with hend | ⟨consumed, rest, hrest, hne, hconsumes⟩
  · rw [ne_eq, scan_eq_unterminated_iff, mapError_scan, hend] at h
    exact absurd rfl h
  · exact ⟨consumed, rest, _, hrest, hne, hconsumes⟩

/-- A text that ends before its declaration does so all the more when it is cut off. -/
theorem scan_take_of_unterminated {text : List Char} {start line : Nat}
    (h : scan text start line = .error .unterminated) (k : Nat) :
    scan (text.take k) start line = .error .unterminated := by
  by_contra hcut
  obtain ⟨consumed, rest, result, hrest, hne, hconsumes⟩ := exists_consumed hcut
  -- What is consumed of the cut text would be consumed of the whole one.
  have hwhole : text.drop start = consumed ++ (rest ++ (text.drop start).drop (k - start)) := by
    rw [← List.append_assoc, ← hrest, List.drop_take, List.take_append_drop]
  rw [scan_eq_unterminated_iff] at h hcut
  rw [mapError_scan_of_consumes hrest hne hconsumes,
    ← mapError_scan_of_consumes hwhole hne hconsumes] at hcut
  exact hcut h

/-- A declaration that is found is what the characters up to its end make. -/
theorem exists_consumed_of_ok {text : List Char} {start line finish : Nat}
    {declaration : Declaration} (h : scan text start line = .ok (declaration, finish)) :
    ∃ consumed rest, text.drop start = consumed ++ rest ∧ consumed ≠ [] ∧
      Reader.Consumes (read line) consumed (.ok declaration) ∧ finish = start + consumed.length := by
  obtain ⟨consumed, rest, result, hrest, hne, hconsumes⟩ := exists_consumed (by rw [h]; simp)
  have hresult := mapError_scan_of_consumes hrest hne hconsumes
  rw [h] at hresult
  cases result with
  | error halt => contradiction
  | ok found =>
      obtain ⟨rfl, rfl⟩ := Prod.mk.inj (Except.ok.inj hresult)
      exact ⟨consumed, rest, hrest, hne, hconsumes, rfl⟩

/-- A flaw that is found is what the characters up to the last one read make. -/
theorem exists_consumed_of_flaw {text : List Char} {start line : Nat} {flaw : Flaw}
    {location : Text.Location} (h : scan text start line = .error (.flawed flaw location)) :
    ∃ consumed rest, text.drop start = consumed ++ rest ∧ consumed ≠ [] ∧
      Reader.Consumes (read line) consumed (.error (.flawed flaw)) := by
  obtain ⟨consumed, rest, result, hrest, hne, hconsumes⟩ := exists_consumed (by rw [h]; simp)
  have hresult := mapError_scan_of_consumes hrest hne hconsumes
  rw [h] at hresult
  cases result with
  | ok found => contradiction
  | error halt =>
      obtain rfl : .flawed flaw = halt := Except.error.inj hresult
      exact ⟨consumed, rest, hrest, hne, hconsumes⟩

/-- The character before the end of a declaration closes its parameter list. -/
theorem getElem?_finish {text : List Char} {start line finish : Nat} {declaration : Declaration}
    (h : scan text start line = .ok (declaration, finish)) : text[finish - 1]? = some ')' := by
  obtain ⟨hread, hfinish⟩ := finish_add_length_rest h
  have hcurrent := current?_read hread
  have htext : (read line (.startAt text start)).2.text = text :=
    ((read_local line).text (by rw [hread]; simp)).trans (Reader.text_startAt text start)
  generalize (read line (.startAt text start)).2 = r at hcurrent htext hfinish
  obtain ⟨past, rest, undoable⟩ := r
  obtain ⟨past, rfl⟩ := List.head?_eq_some_iff.1 hcurrent
  obtain rfl : past.reverse ++ ')' :: rest = text := by simpa [Reader.text] using htext
  obtain rfl : finish = past.reverse.length + 1 := by
    simp at hfinish ⊢
    omega
  simp

/-- What scanning finds is decided by the characters that are read, and not before the last of them:
those up to the closing parenthesis of a declaration, or up to the last one read before a flaw.  A text
that ends too early does so all the more when it is cut off. -/
theorem scan_decided (text : List Char) (start line : Nat) :
    (∀ declaration finish, scan text start line = .ok (declaration, finish) →
      start < finish ∧ text[finish - 1]? = some ')' ∧
        DecidedBy text start finish line (.ok declaration)) ∧
    (∀ flaw location, scan text start line = .error (.flawed flaw location) →
      ∃ p, (read line (.startAt text start)).2.LastRead p ∧ start ≤ p ∧ p < text.length ∧
        DecidedBy text start (p + 1) line (.error (.flawed flaw))) ∧
    (scan text start line = .error .unterminated →
      ∀ k, scan (text.take k) start line = .error .unterminated) := by
  refine ⟨fun declaration finish h => ?_, fun flaw location h => ?_, scan_take_of_unterminated⟩
  · have hclosing := getElem?_finish h
    obtain ⟨consumed, rest, hrest, hne, hconsumes, rfl⟩ := exists_consumed_of_ok h
    exact ⟨Nat.lt_add_of_pos_right (List.length_pos_iff.2 hne), hclosing,
      decidedBy_of_consumes hrest hne hconsumes⟩
  · obtain ⟨consumed, rest, hrest, hne, hconsumes⟩ := exists_consumed_of_flaw h
    have hpos := List.length_pos_iff.2 hne
    have hlength := start_add_length_le hrest hne
    have hlast : start + (consumed.length - 1) + 1 = start + consumed.length := by omega
    refine ⟨start + (consumed.length - 1), lastRead_of_consumes hrest hne hconsumes,
      Nat.le_add_right _ _, by omega, ?_⟩
    rw [hlast]
    exact decidedBy_of_consumes hrest hne hconsumes

/-- In `f(/**/)` the declaration ends with its closing parenthesis and no cut before it is enough, not
even one inside the comment; in `f(/x)` the character behind the slash is the last one read. -/
theorem scan_decided_comment :
    scan "int f(/**/);".toList 0 1 =
        .ok (⟨"f", 1, ⟨"int", "int", 0, .none, .empty⟩, []⟩, 11) ∧
      scan "// int f(/**/)".toList 3 1 =
        .ok (⟨"f", 1, ⟨"int", "int", 0, .none, .empty⟩, []⟩, 14) ∧
      scan ("int f(/**/);".toList.take 9) 0 1 = .error .unterminated ∧
      scan (("int f(/**/);".toList.take 9).take 7) 0 1 = .error .unterminated ∧
      scan "int f(/x);".toList 0 1 = .error (.flawed .malformedComment ⟨1, "int f(/x);"⟩) ∧
      scan ("int f(/x);".toList.take 7) 0 1 = .error .unterminated := by
  have hscan : scan "int f(/**/);".toList 0 1 =
      .ok (⟨"f", 1, ⟨"int", "int", 0, .none, .empty⟩, []⟩, 11) := by
    decide +kernel
  have hflaw : scan "int f(/x);".toList 0 1 =
      .error (.flawed .malformedComment ⟨1, "int f(/x);"⟩) := by
    decide +kernel
  obtain ⟨-, -, hdecided⟩ := (scan_decided "int f(/**/);".toList 0 1).1 _ _ hscan
  have hmoved := hdecided.moved "// int f(/**/)".toList 3 (by decide)
  have hcut := (scan_decided _ 0 1).2.2 (hdecided.cut 9 (by decide)) 7
  obtain ⟨p, ⟨-, hlast⟩, -, -, hdecidedFlaw⟩ :=
    (scan_decided "int f(/x);".toList 0 1).2.1 _ _ hflaw
  have hposition : (read 1 (.startAt "int f(/x);".toList 0)).2.position = 8 := by
    decide +kernel
  exact ⟨hscan, scan_eq_ok_iff.2 hmoved, hdecided.cut 9 (by decide), hcut, hflaw,
    hdecidedFlaw.cut 7 (by omega)⟩

end Declaration
end ExportIndex
