import ExportIndex.Declaration.Scan
import ExportIndex.Proofs.Segment.Run

/-!
# How far a declaration reaches

What is read of a declaration is decided by the characters that are read, and by nothing around them.

* `headVerdict` and `slotVerdict` say what a segment that has been read means for the declaration;
  `read_eq` and `readParameters_eq` take reading apart into segments and verdicts.
* `Reader.Consumes f text a` says that `f` reads exactly `text` and answers `a`, wherever the text
  stands.
* `read_local` — unless the text ends first, reading a declaration consumes a text in this sense.
* `finish_add_length_rest` counts the end of a declaration from behind.
-/

namespace ExportIndex

/-- Reads exactly `text` and answers `a`, whatever stands before and behind it. -/
def Reader.Consumes {α : Type} (f : Reader → α × Reader) (text : List Char) (a : α) : Prop :=
  ∀ past rest undoable, f ⟨past, text ++ rest, undoable⟩ = (a, ⟨text.reverse ++ past, rest, true⟩)

/-- Consumes some text, unless the text ends first. -/
def Reader.Local {α : Type} (f : Reader → Except Halt α × Reader) : Prop :=
  ∀ r, (f r).1 = .error .unterminated ∨
    ∃ text rest, r.rest = text ++ rest ∧ text ≠ [] ∧ Reader.Consumes f text (f r).1

/-- What is read of a text does not depend on what stands before it. -/
theorem Reader.Local.same_rest {α : Type} {f : Reader → Except Halt α × Reader}
    (h : Reader.Local f) {r₁ r₂ : Reader} (hrest : r₁.rest = r₂.rest) :
    ((f r₁).1 = .error .unterminated ∧ (f r₂).1 = .error .unterminated) ∨
      ∃ text rest a, r₁.rest = text ++ rest ∧ text ≠ [] ∧ Reader.Consumes f text a := by
  rcases h r₁ with h₁ | ⟨text, rest, htext, hne, hconsumes⟩
  · rcases h r₂ with h₂ | ⟨text, rest, htext, hne, hconsumes⟩
    · exact .inl ⟨h₁, h₂⟩
    · exact .inr ⟨text, rest, _, hrest.trans htext, hne, hconsumes⟩
  · exact .inr ⟨text, rest, _, htext, hne, hconsumes⟩

/-- Reading leaves the text as it is. -/
theorem Reader.Local.text {α : Type} {f : Reader → Except Halt α × Reader} (h : Reader.Local f)
    {r : Reader} (hresult : (f r).1 ≠ .error .unterminated) : (f r).2.text = r.text := by
  rcases h r with hend | ⟨text, rest, hrest, -, hconsumes⟩
  · exact absurd hend hresult
  · obtain ⟨past, _, undoable⟩ := r
    obtain rfl := hrest
    rw [hconsumes]
    simp [Reader.text]

namespace Segment

theorem Ends.ne_nil {part : Part} {s s' : Segment} {text : List Char}
    {result : Except Halt Delimiter} (h : Ends part s text result s') : text ≠ [] := by
  obtain ⟨-, hstop⟩ := h
  cases hstop <;> simp

end Segment

namespace Declaration

/-! ### Verdicts -/

/-- What a head that has been read means: the name and the return type. -/
def headVerdict (result : Except Halt Delimiter) (s : Segment) : Except Halt (String × CType) :=
  match result with
  | .error halt => .error halt
  | .ok _ => (namedType .unnamedFunction s).mapError .flawed

/-- What a slot that has been read means for the parameter list. -/
inductive SlotVerdict where
  /-- The list is complete, or cannot be read. -/
  | done (result : Except Halt (List Parameter))
  /-- The list goes on behind a parameter. -/
  | next (parameter : Parameter)

/-- What a slot that has been read means; `first` tells whether it is the first of its list. -/
def slotVerdict (first : Bool) (result : Except Halt Delimiter) (s : Segment) : SlotVerdict :=
  match result with
  | .error halt => .done (.error halt)
  | .ok delimiter =>
    if first && delimiter == .closing && s.isEmpty then .done (.ok [])
    else
      match namedType .unnamedParameter s with
      | .error flaw => .done (.error (.flawed flaw))
      | .ok (name, type) =>
        if delimiter = .closing then .done (.ok [⟨name, type⟩]) else .next ⟨name, type⟩

/-- A parameter list is read slot by slot. -/
theorem readParameters_eq (first : Bool) (r : Reader) :
    readParameters first r =
      match slotVerdict first (Segment.read .parameters .empty r).result
        (Segment.read .parameters .empty r).segment with
      | .done result => (result, (Segment.read .parameters .empty r).reader)
      | .next parameter =>
        ((readParameters false (Segment.read .parameters .empty r).reader).1.map (parameter :: ·),
          (readParameters false (Segment.read .parameters .empty r).reader).2) := by
  rw [readParameters]
  simp only [slotVerdict]
  split
  · rename_i halt hresult
    rw [hresult]
  · rename_i delimiter hresult
    rw [hresult]
    simp only
    split
    · rfl
    · cases hnamed : namedType .unnamedParameter (Segment.read .parameters .empty r).segment with
      | error flaw => rfl
      | ok named =>
          simp only
          split <;> rfl

/-- A declaration is read head first. -/
theorem read_eq (line : Nat) (r : Reader) :
    read line r =
      match headVerdict (Segment.read .head .empty r).result (Segment.read .head .empty r).segment with
      | .error halt => (.error halt, (Segment.read .head .empty r).reader)
      | .ok (name, returnType) =>
        ((readParameters true (Segment.read .head .empty r).reader).1.map fun parameters =>
            ⟨name, line, returnType, if Parameter.isVoidList parameters then [] else parameters⟩,
          (readParameters true (Segment.read .head .empty r).reader).2) := by
  rw [read]
  simp only [headVerdict]
  cases hresult : (Segment.read .head .empty r).result with
  | error halt => rfl
  | ok delimiter =>
      cases hnamed : namedType .unnamedFunction (Segment.read .head .empty r).segment with
      | error flaw => rfl
      | ok named => rfl

/-- A named segment has its name behind the fragments of its type. -/
theorem exists_of_namedType {unnamed : Flaw} {s : Segment} {name : String} {type : CType}
    (h : namedType unnamed s = .ok (name, type)) :
    ∃ fragments, s.flush.tokens = name :: fragments ∧
      CType.classify? fragments.reverse s.tags = some type := by
  rw [namedType, Segment.split?] at h
  cases htokens : s.flush.tokens with
  | nil => simp [htokens] at h
  | cons last fragments =>
      cases htype : CType.classify? fragments.reverse s.tags with
      | none => simp [htokens, htype] at h
      | some found =>
          obtain ⟨rfl, rfl⟩ : last = name ∧ found = type := by simpa [htokens, htype] using h
          exact ⟨fragments, rfl, htype⟩

/-- What a declaration that is read has been made of. -/
theorem exists_of_read_ok {line : Nat} {r : Reader} {declaration : Declaration}
    (h : (read line r).1 = .ok declaration) :
    ∃ delimiter parameters,
      (Segment.read .head .empty r).result = .ok delimiter ∧
      namedType .unnamedFunction (Segment.read .head .empty r).segment =
        .ok (declaration.name, declaration.returnType) ∧
      readParameters true (Segment.read .head .empty r).reader = (.ok parameters, (read line r).2) ∧
      declaration.line = line ∧
      declaration.parameters = if Parameter.isVoidList parameters then [] else parameters := by
  rw [read] at h ⊢
  simp only at h ⊢
  split at h
  · contradiction
  · rename_i delimiter hresult
    split at h
    · contradiction
    · rename_i name returnType hnamed
      cases hlist : readParameters true (Segment.read .head .empty r).reader with
      | mk list r' =>
          rw [hlist] at h
          cases list with
          | error halt => contradiction
          | ok parameters =>
              obtain rfl : _ = declaration := by simpa [Except.map] using h
              exact ⟨delimiter, parameters, hresult, hnamed, rfl, rfl, rfl⟩

/-! ### Locality -/

theorem consumes_of_done {first : Bool} {text : List Char} {result : Except Halt Delimiter}
    {s : Segment} {verdict : Except Halt (List Parameter)}
    (hends : Segment.Ends .parameters .empty text result s)
    (hverdict : slotVerdict first result s = .done verdict) :
    Reader.Consumes (readParameters first) text verdict := by
  intro past rest undoable
  rw [readParameters_eq, Segment.read_of_ends hends past rest undoable, hverdict]

theorem readParameters_of_next {first : Bool} {text : List Char} {result : Except Halt Delimiter}
    {s : Segment} {parameter : Parameter} (hends : Segment.Ends .parameters .empty text result s)
    (hverdict : slotVerdict first result s = .next parameter) (past rest : List Char)
    (undoable : Bool) :
    readParameters first ⟨past, text ++ rest, undoable⟩ =
      ((readParameters false ⟨text.reverse ++ past, rest, true⟩).1.map (parameter :: ·),
        (readParameters false ⟨text.reverse ++ past, rest, true⟩).2) := by
  rw [readParameters_eq, Segment.read_of_ends hends past rest undoable, hverdict]

theorem consumes_of_next {first : Bool} {text more : List Char}
    {result : Except Halt Delimiter} {s : Segment} {parameter : Parameter}
    {later : Except Halt (List Parameter)} (hends : Segment.Ends .parameters .empty text result s)
    (hverdict : slotVerdict first result s = .next parameter)
    (hlater : Reader.Consumes (readParameters false) more later) :
    Reader.Consumes (readParameters first) (text ++ more) (later.map (parameter :: ·)) := by
  intro past rest undoable
  rw [List.append_assoc, readParameters_of_next hends hverdict, hlater, List.reverse_append,
    List.append_assoc]

/-- Reading a parameter list consumes a text, unless the text ends first. -/
theorem readParameters_local (first : Bool) : Reader.Local (readParameters first) := by
  intro r
  rcases Segment.ends_or_unterminated .parameters .empty r with h | ⟨text, rest, hrest, hends⟩
  · rw [readParameters_eq, h]
    exact .inl rfl
  · obtain ⟨past, _, undoable⟩ := r
    obtain rfl := hrest
    cases hverdict : slotVerdict first _ _ with
    | done verdict =>
        have hconsumes := consumes_of_done hends hverdict
        rw [hconsumes]
        exact .inr ⟨text, rest, rfl, hends.ne_nil, hconsumes⟩
    | next parameter =>
        -- The slot is not empty, so the list behind it is shorter.
        have : text ≠ [] := hends.ne_nil
        rw [readParameters_of_next hends hverdict]
        rcases readParameters_local false ⟨text.reverse ++ past, rest, true⟩ with h | h
        · rw [h]
          exact .inl rfl
        · obtain ⟨more, rest', rfl, -, hmore⟩ := h
          refine .inr ⟨text ++ more, rest', ?_, by simp [this], consumes_of_next hends hverdict hmore⟩
          simp
termination_by r => r.rest.length
decreasing_by
  subst_vars
  simp [List.length_pos_iff, this]

theorem read_of_head_ok {line : Nat} {text : List Char} {result : Except Halt Delimiter}
    {s : Segment} {named : String × CType} (hends : Segment.Ends .head .empty text result s)
    (hverdict : headVerdict result s = .ok named) (past rest : List Char) (undoable : Bool) :
    read line ⟨past, text ++ rest, undoable⟩ =
      ((readParameters true ⟨text.reverse ++ past, rest, true⟩).1.map fun parameters =>
          ⟨named.1, line, named.2, if Parameter.isVoidList parameters then [] else parameters⟩,
        (readParameters true ⟨text.reverse ++ past, rest, true⟩).2) := by
  rw [read_eq, Segment.read_of_ends hends past rest undoable, hverdict]

/-- The head of a declaration and its parameter list are consumed one after the other. -/
theorem consumes_read {line : Nat} {text more : List Char} {result : Except Halt Delimiter}
    {s : Segment} {named : String × CType} {list : Except Halt (List Parameter)}
    (hends : Segment.Ends .head .empty text result s) (hverdict : headVerdict result s = .ok named)
    (hlist : Reader.Consumes (readParameters true) more list) :
    Reader.Consumes (read line) (text ++ more) (list.map fun parameters =>
      ⟨named.1, line, named.2, if Parameter.isVoidList parameters then [] else parameters⟩) := by
  intro past rest undoable
  rw [List.append_assoc, read_of_head_ok hends hverdict, hlist, List.reverse_append,
    List.append_assoc]

theorem consumes_of_head_error (line : Nat) {text : List Char} {result : Except Halt Delimiter}
    {s : Segment} {halt : Halt} (hends : Segment.Ends .head .empty text result s)
    (hverdict : headVerdict result s = .error halt) :
    Reader.Consumes (read line) text (.error halt) := by
  intro past rest undoable
  rw [read_eq, Segment.read_of_ends hends past rest undoable, hverdict]

/-- Reading a declaration consumes a text, unless the text ends first. -/
theorem read_local (line : Nat) : Reader.Local (read line) := by
  intro r
  rcases Segment.ends_or_unterminated .head .empty r with h | ⟨text, rest, hrest, hends⟩
  · rw [read_eq, h]
    exact .inl rfl
  · obtain ⟨past, _, undoable⟩ := r
    obtain rfl := hrest
    cases hverdict : headVerdict _ _ with
    | error halt =>
        have hconsumes := consumes_of_head_error line hends hverdict
        rw [hconsumes]
        exact .inr ⟨text, rest, rfl, hends.ne_nil, hconsumes⟩
    | ok named =>
        rw [read_of_head_ok hends hverdict]
        rcases readParameters_local true ⟨text.reverse ++ past, rest, true⟩ with h | h
        · rw [h]
          exact .inl rfl
        · obtain ⟨more, rest', rfl, -, hmore⟩ := h
          refine .inr ⟨text ++ more, rest', by simp, by simp [hends.ne_nil], ?_⟩
          exact consumes_read hends hverdict hmore

/-- Where a declaration ends, by what is left of the text behind it. -/
theorem finish_add_length_rest {text : List Char} {start line finish : Nat}
    {declaration : Declaration} (h : scan text start line = .ok (declaration, finish)) :
    (read line (.startAt text start)).1 = .ok declaration ∧
      finish + (read line (.startAt text start)).2.rest.length = text.length := by
  -- Reading keeps the text, so the index of the end and the length of what is left add up to it.
  have htext (hresult : (read line (.startAt text start)).1 ≠ .error .unterminated) :
      (read line (.startAt text start)).2.text = text :=
    ((read_local line).text hresult).trans (Reader.text_startAt text start)
  rw [scan] at h
  generalize read line (.startAt text start) = outcome at h htext
  obtain ⟨result, r⟩ := outcome
  cases result with
  | error halt => contradiction
  | ok found =>
      injection h with h
      obtain ⟨rfl, rfl⟩ := Prod.mk.inj h
      have hlength := r.position_add_length_rest
      rw [htext (by simp)] at hlength
      exact ⟨rfl, hlength⟩

end Declaration
end ExportIndex
