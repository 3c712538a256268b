import ExportIndex.Proofs.Declaration.Slots
import ExportIndex.Proofs.Declaration.Truncation

/-!
# Where a declaration is flawed

A declaration that cannot be read is read up to the character that gives its flaw away.

* `Reader.shows_of_lastRead` — the line that a reader shows is that of the last character it has read.
* `Spoils` lists the characters that give a flaw away: an unmatched bracket, the character behind a
  slash that opens no comment, and the delimiter of a segment without a name or with an ambiguous type.
* `Leads` is what stands before a segment, and `Fails` how the reading of it ends.
* `fails_of_readParameters` and `fails_of_read` — reading stops in a segment that fails, behind a head
  and slots that do not.
* `flawedAt_of_scan` — the flaw that a scan answers with is at the last character it has read, and the
  location is the line of that character.
-/

namespace ExportIndex

/-- The location is the line of a text that holds the character with index `i`. -/
structure Text.Location.Shows (text : List Char) (i : Nat) (location : Text.Location) : Prop where
  number : location.line = 1 + (text.take i).count '\n'
  line : ∃ line ∈ Text.lines text, line.number = location.line ∧
    location.text = String.ofList line.body

/-- A reader shows the line of the last character it has read. -/
theorem Reader.shows_of_lastRead {r : Reader} {q : Nat} (h : r.LastRead q) :
    r.location.Shows r.text q := by
  obtain ⟨past, rest, undoable⟩ := r
  obtain ⟨-, hposition⟩ := h
  cases past with
  | nil => contradiction
  | cons c past =>
      obtain rfl : past.reverse.length = q := by simpa [position] using hposition
      have htext : Reader.text ⟨c :: past, rest, undoable⟩ = past.reverse ++ c :: rest := by
        simp [Reader.text]
      obtain ⟨line, hline, hbody⟩ := Text.exists_line past.reverse rest c
      rw [List.count_reverse] at hline
      rw [List.reverse_reverse] at hbody
      rw [htext]
      constructor
      · simp [location]
      · refine ⟨line, List.mem_of_getElem? hline, ?_, ?_⟩
        · rw [Text.number_of_getElem?_lines hline, Nat.add_comm]
          rfl
        · rw [hbody]
          rfl

namespace Declaration

open Segment (Delimits Refuses Run)

/-- What a segment without any token lacks. -/
def unnamed : Part → Flaw
  | .head => .unnamedFunction
  | .parameters => .unnamedParameter

/-- The last characters that are read of a flawed segment, and its flaw. -/
inductive Spoils (part : Part) (s : Segment) : List Char → Flaw → Prop
  | bracket {c : Char} {flaw : Flaw} (hrefuses : Refuses part s c flaw) : Spoils part s [c] flaw
  | slash {c : Char} (hslash : c ≠ '/') (hstar : c ≠ '*') : Spoils part s ['/', c] .malformedComment
  | delimiter {c : Char} {delimiter : Delimiter} {flaw : Flaw}
      (hdelimits : Delimits part s c delimiter) (hnamed : namedType (unnamed part) s = .error flaw) :
      Spoils part s [c] flaw

/-- How the reading of a segment can fail that leaves `rest` of the text. -/
inductive Fails (part : Part) (text rest : List Char) : Halt → Prop
  | unterminated : Fails part text rest .unterminated
  | flawed {segment last : List Char} {s : Segment} {flaw : Flaw}
      (htext : text = segment ++ (last ++ rest)) (hrun : Run part .empty segment s)
      (hspoils : Spoils part s last flaw) : Fails part text rest (.flawed flaw)

/-- What is read before a segment: nothing before the head, and before a slot the head and the slots
before it. -/
inductive Leads : Part → List Char → Prop
  | head : Leads .head []
  | slot {head : List Char} {name : String} {type : CType} {slots : List (List Char)}
      {parameters : List Parameter} (hhead : Holds .head head name type)
      (hslots : HoldsEach slots parameters) :
      Leads .parameters (head ++ '(' :: slots.flatMap (· ++ [',']))

/-- The text is read from `start` to a segment that is flawed, and the character with index `q` is the
last one that is read of it. -/
def FlawedAt (text : List Char) (start q : Nat) (flaw : Flaw) : Prop :=
  ∃ part passed segment last rest s, text.drop start = passed ++ (segment ++ (last ++ rest)) ∧
    q + 1 = start + (passed ++ (segment ++ last)).length ∧ Leads part passed ∧
    Run part .empty segment s ∧ Spoils part s last flaw

/-! ### Segments -/

section Segments

variable {part : Part} {r : Reader}

/-- A segment that is not read to its delimiter fails. -/
theorem fails_of_result {halt : Halt} (h : (Segment.read part .empty r).result = .error halt) :
    Fails part r.rest (Segment.read part .empty r).reader.rest halt := by
  rcases Segment.ends_or_unterminated part .empty r with hend | ⟨text, rest, hrest, hends⟩
  · obtain rfl : halt = .unterminated := Except.error.inj (h.symm.trans hend)
    exact .unterminated
  · obtain ⟨past, _, undoable⟩ := r
    obtain rfl := hrest
    have hread := Segment.read_of_ends hends past rest undoable
    rw [h] at hends
    generalize (Segment.read part .empty _).segment = s at hends
    obtain ⟨hrun, hstop⟩ := hends
    rw [hread]
    cases hstop with
    | flaw hstep =>
        exact .flawed (List.append_assoc ..) hrun (.bracket (Segment.step_eq_flaw_iff.1 hstep))
    | comment hslash hstar => exact .flawed (List.append_assoc ..) hrun (.slash hslash hstar)

/-- A segment that is read to its delimiter fails if it gives no name and type. -/
theorem fails_of_namedType {delimiter : Delimiter} {flaw : Flaw}
    (h : (Segment.read part .empty r).result = .ok delimiter)
    (hnamed : namedType (unnamed part) (Segment.read part .empty r).segment = .error flaw) :
    Fails part r.rest (Segment.read part .empty r).reader.rest (.flawed flaw) := by
  obtain ⟨text, c, hrest, hrun, hdelimits⟩ := Segment.exists_run_of_ok h
  exact .flawed hrest hrun (.delimiter hdelimits hnamed)

end Segments

/-! ### Declarations -/

/-- A parameter list that cannot be read is read to a slot that fails. -/
theorem fails_of_readParameters {first : Bool} {r : Reader} {halt : Halt}
    (h : (readParameters first r).1 = .error halt) :
    ∃ slots parameters behind, HoldsEach slots parameters ∧
      r.rest = slots.flatMap (· ++ [',']) ++ behind ∧
        Fails .parameters behind (readParameters first r).2.rest halt := by
  fun_induction readParameters first r with
  | case1 first r slot halt' hresult =>
      obtain rfl : halt' = halt := Except.error.inj h
      exact ⟨[], [], r.rest, .nil, rfl, fails_of_result hresult⟩
  | case2 => contradiction
  | case3 first r slot delimiter hresult hblank flaw hnamed =>
      obtain rfl : .flawed flaw = halt := Except.error.inj h
      exact ⟨[], [], r.rest, .nil, rfl, fails_of_namedType hresult hnamed⟩
  | case4 => contradiction
  | case5 first r slot delimiter hresult hblank name type hnamed hclosing later =>
      rename_i ih
      obtain ⟨text, c, hrest, hrun, hdelimits⟩ := Segment.exists_run_of_ok hresult
      cases hlater : later.1 with
      | ok more => simp [hlater, Except.map] at h
      | error halt' =>
          obtain rfl : halt' = halt := by simpa [hlater, Except.map] using h
          obtain ⟨slots, parameters, behind, hslots, hbehind, hfails⟩ := ih hlater
          -- Behind a delimiter that does not close the list there is a comma.
          cases hdelimits with
          | opening hpart => contradiction
          | closing => contradiction
          | comma _ htop =>
              refine ⟨text :: slots, ⟨name, type⟩ :: parameters, behind,
                .cons ⟨_, hrun, htop, namedType_eq_ok hnamed⟩ hslots, ?_, hfails⟩
              rw [hrest, List.flatMap_cons, List.append_assoc, List.append_assoc, ← hbehind]
              rfl

/-- A declaration that cannot be read is read to a segment that fails. -/
theorem fails_of_read {line : Nat} {r : Reader} {halt : Halt} (h : (read line r).1 = .error halt) :
    ∃ part passed behind, Leads part passed ∧ r.rest = passed ++ behind ∧
      Fails part behind (read line r).2.rest halt := by
  rw [read] at h ⊢
  simp only at h ⊢
  split at h
  · rename_i halt' hresult
    obtain rfl : halt' = halt := Except.error.inj h
    exact ⟨.head, [], r.rest, .head, rfl, fails_of_result hresult⟩
  · rename_i delimiter hresult
    split at h
    · rename_i flaw hnamed
      obtain rfl : .flawed flaw = halt := Except.error.inj h
      exact ⟨.head, [], r.rest, .head, rfl, fails_of_namedType hresult hnamed⟩
    · rename_i name returnType hnamed
      cases hlist : (readParameters true (Segment.read .head .empty r).reader).1 with
      | ok parameters => simp [hlist, Except.map] at h
      | error halt' =>
          obtain rfl : halt' = halt := by simpa [hlist, Except.map] using h
          obtain ⟨text, c, hrest, hrun, hdelimits⟩ := Segment.exists_run_of_ok hresult
          obtain ⟨slots, parameters, behind, hslots, hbehind, hfails⟩ := fails_of_readParameters hlist
          cases hdelimits with
          | comma hpart => contradiction
          | closing hpart => contradiction
          | opening _ htop =>
              refine ⟨.parameters, _, behind, .slot ⟨_, hrun, htop, namedType_eq_ok hnamed⟩ hslots, ?_,
                hfails⟩
              rw [hrest, hbehind, List.append_assoc]
              rfl

/-- No scan is refused a step back. -/
theorem scan_ne_undoRefused (text : List Char) (start line : Nat) :
    scan text start line ≠ .error .undoRefused := by
  intro h
  rw [scan] at h
  cases hread : read line (.startAt text start) with
  | mk result r =>
      rw [hread] at h
      cases result with
      | ok declaration => contradiction
      | error halt =>
          obtain ⟨part, passed, behind, -, -, hfails⟩ := fails_of_read (congrArg Prod.fst hread)
          have hplaced := Except.error.inj h
          cases hfails with
          | unterminated => contradiction
          | flawed => contradiction

/-! ### The offending character -/

/-- A stray slash stands right before the character that tells it from a comment. -/
theorem Spoils.eq_slash {part : Part} {s : Segment} {last : List Char}
    (h : Spoils part s last .malformedComment) : ∃ c, last = ['/', c] := by
  cases h with
  | bracket hrefuses => contradiction
  | slash => exact ⟨_, rfl⟩
  | delimiter hdelimits hnamed =>
      rw [namedType] at hnamed
      split at hnamed
      · cases part <;> contradiction
      · split at hnamed <;> simp at hnamed

theorem FlawedAt.slash {text : List Char} {start q : Nat}
    (h : FlawedAt text start q .malformedComment) : text[q - 1]? = some '/' := by
  obtain ⟨part, passed, segment, last, rest, s, hdrop, hq, -, -, hspoils⟩ := h
  obtain ⟨c, rfl⟩ := hspoils.eq_slash
  have hindex : q - 1 = start + (passed ++ segment).length := by
    simp only [List.length_append, List.length_cons, List.length_nil] at hq ⊢
    omega
  rw [hindex, ← List.getElem?_drop, hdrop, ← List.append_assoc, List.getElem?_append_right (Nat.le_refl _),
    Nat.sub_self]
  rfl

theorem FlawedAt.start_le {text : List Char} {start q : Nat} {flaw : Flaw}
    (h : FlawedAt text start q flaw) : start ≤ q := by
  obtain ⟨part, passed, segment, last, rest, s, -, hq, -, -, hspoils⟩ := h
  have hlast : last ≠ [] := by
    cases hspoils <;> simp
  have := List.length_pos_iff.2 hlast
  simp only [List.length_append] at hq
  omega

/-- What is consumed up to a flaw ends in a segment that is flawed. -/
theorem flawedAt_of_consumes {text consumed rest : List Char} {start line : Nat} {flaw : Flaw}
    (hrest : text.drop start = consumed ++ rest) (hne : consumed ≠ [])
    (h : Reader.Consumes (read line) consumed (.error (.flawed flaw))) :
    FlawedAt text start (start + (consumed.length - 1)) flaw := by
  have hread := h [] rest false
  obtain ⟨part, passed, behind, hleads, hpassed, hfails⟩ := fails_of_read (congrArg Prod.fst hread)
  rw [hread] at hfails
  cases hfails with
  | @flawed segment last s _ hbehind hrun hspoils =>
      have hsame : consumed ++ rest = passed ++ (segment ++ last) ++ rest := by
        simpa [hbehind] using hpassed
      obtain rfl := List.append_cancel_right hsame
      have := List.length_pos_iff.2 hne
      exact ⟨part, passed, segment, last, rest, s, by simpa using hrest, by omega, hleads, hrun, hspoils⟩

/-- A flaw is located where the reader is when it is noticed. -/
theorem location_of_scan {text : List Char} {start line : Nat} {flaw : Flaw}
    {location : Text.Location} (h : scan text start line = .error (.flawed flaw location)) :
    location = (read line (.startAt text start)).2.location := by
  rw [scan] at h
  generalize read line (.startAt text start) = outcome at h ⊢
  obtain ⟨result, r⟩ := outcome
  cases result with
  | ok => contradiction
  | error halt =>
      have hplaced : halt.placed r = .flawed flaw location := Except.error.inj h
      cases halt with
      | unterminated => contradiction
      | undoRefused => contradiction
      | flawed => exact (ScanError.flawed.inj hplaced).2.symm

/-- A scan that finds a flaw has read the character that gives it away and none behind it, and locates
it on the line of that character. -/
theorem flawedAt_of_scan {text : List Char} {start line : Nat} {flaw : Flaw}
    {location : Text.Location} (h : scan text start line = .error (.flawed flaw location)) :
    ∃ q, (read line (.startAt text start)).2.LastRead q ∧ q < text.length ∧
      FlawedAt text start q flaw ∧ location.Shows text q := by
  obtain ⟨consumed, rest, hrest, hne, hconsumes⟩ := exists_consumed_of_flaw h
  have hlast := lastRead_of_consumes hrest hne hconsumes
  have hlength := start_add_length_le hrest hne
  have hpos := List.length_pos_iff.2 hne
  have htext : (read line (.startAt text start)).2.text = text := by
    rw [Reader.startAt, hrest, hconsumes]
    simp [Reader.text, ← hrest]
  refine ⟨start + (consumed.length - 1), hlast, by omega, flawedAt_of_consumes hrest hne hconsumes, ?_⟩
  have hshows := Reader.shows_of_lastRead hlast
  rw [htext] at hshows
  rwa [location_of_scan h]

end Declaration
end ExportIndex
