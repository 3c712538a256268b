import Mathlib.Order.Interval.Set.Defs
import ExportIndex.Proofs.Text.Lines
import ExportIndex.Reader

/-!
# What has been asked of a reader

A reader is asked four things: to read on, to show the last character, to take it back, and to tell its
line.  What it answers to any sequence of calls is decided by its text, by the place it began at, and by
the answers before.

* `perform` is one call, with its answer; `after` and `answers` run over a sequence of calls.
* `kept` are the characters that have been read and not taken back, and `HasUndo` says that one has been
  read since the last step back.
* `Records` is what holds of a reader and its answers at every time (`records_perform`).
* `standsAfter_calls` — how a reader stands after any calls, and what it answers to the next one.
-/

namespace ExportIndex
namespace Reader

/-- What can be asked of a reader. -/
inductive Call where
  | next
  | current
  | undo
  | location
  deriving DecidableEq, Repr

/-- What a reader answers. -/
inductive Answer where
  /-- The next character, which is read now. -/
  | read (c : Char)
  /-- There is no next character. -/
  | ended
  /-- The character just before the reader. -/
  | current (c : Option Char)
  /-- The last character has been taken back. -/
  | undone
  /-- The last character cannot be taken back. -/
  | refused
  | located (location : Text.Location)
  deriving DecidableEq, Repr

/-- Whether a character has been read. -/
def Answer.isRead : Answer → Bool
  | .read _ => true
  | _ => false

/-- Whether the call has failed. -/
def Answer.isFailure : Answer → Bool
  | .ended => true
  | .refused => true
  | _ => false

/-- The answer to a call, and the reader behind it; a call that fails leaves the reader as it was. -/
def perform (r : Reader) : Call → Answer × Reader
  | .next =>
    match r.next? with
    | some (c, r') => (.read c, r')
    | none => (.ended, r)
  | .current => (.current r.current?, r)
  | .undo =>
    match r.undo? with
    | some r' => (.undone, r')
    | none => (.refused, r)
  | .location => (.located r.location, r)

/-- The reader behind a sequence of calls. -/
def after (r : Reader) : List Call → Reader
  | [] => r
  | call :: calls => (r.perform call).2.after calls

/-- The answers to a sequence of calls. -/
def answers (r : Reader) : List Call → List Answer
  | [] => []
  | call :: calls => (r.perform call).1 :: (r.perform call).2.answers calls

@[simp] theorem after_nil (r : Reader) : r.after [] = r :=
  rfl

@[simp] theorem after_cons (r : Reader) (call : Call) (calls : List Call) :
    r.after (call :: calls) = (r.perform call).2.after calls :=
  rfl

@[simp] theorem answers_nil (r : Reader) : r.answers [] = [] :=
  rfl

@[simp] theorem answers_cons (r : Reader) (call : Call) (calls : List Call) :
    r.answers (call :: calls) = (r.perform call).1 :: (r.perform call).2.answers calls :=
  rfl

theorem after_append (r : Reader) (calls more : List Call) :
    r.after (calls ++ more) = (r.after calls).after more := by
  induction calls generalizing r with
  | nil => rfl
  | cons call calls ih => exact ih (r.perform call).2

theorem answers_append (r : Reader) (calls more : List Call) :
    r.answers (calls ++ more) = r.answers calls ++ (r.after calls).answers more := by
  induction calls generalizing r with
  | nil => rfl
  | cons call calls ih => exact congrArg ((r.perform call).1 :: ·) (ih (r.perform call).2)

/-! ### What the answers tell -/

/-- The characters that have been read and not taken back: a step back takes away the last one. -/
def kept (answers : List Answer) : List Char :=
  answers.foldl (fun chars answer =>
    match answer with
    | .read c => chars ++ [c]
    | .undone => chars.dropLast
    | _ => chars) []

/-- A character has been read, and no step back has been made since. -/
def HasUndo (answers : List Answer) : Prop :=
  ∃ before c later, answers = before ++ .read c :: later ∧ .undone ∉ later

section Answers

variable {answers : List Answer} {answer : Answer} {c : Char}

@[simp] theorem kept_nil : kept [] = [] :=
  rfl

theorem kept_read (answers : List Answer) (c : Char) :
    kept (answers ++ [.read c]) = kept answers ++ [c] := by
  rw [kept, List.foldl_append]
  rfl

theorem kept_undone (answers : List Answer) :
    kept (answers ++ [.undone]) = (kept answers).dropLast := by
  rw [kept, List.foldl_append]
  rfl

/-- Any other answer keeps what has been read. -/
theorem kept_idle (hread : answer.isRead = false) (hundone : answer ≠ .undone) :
    kept (answers ++ [answer]) = kept answers := by
  rw [kept, List.foldl_append]
  cases answer with
  | read c => contradiction
  | undone => contradiction
  | ended => rfl
  | current c => rfl
  | refused => rfl
  | located location => rfl

theorem hasUndo_read (answers : List Answer) (c : Char) : HasUndo (answers ++ [.read c]) :=
  ⟨answers, c, [], rfl, List.not_mem_nil⟩

theorem not_hasUndo_undone (answers : List Answer) : ¬HasUndo (answers ++ [.undone]) := by
  rintro ⟨before, c, later, heq, hnone⟩
  -- The step back would be the read itself or stand behind it.
  have hlast : (Answer.read c :: later).getLast? = some .undone := by
    have := congrArg List.getLast? heq
    simpa [List.getLast?_append] using this.symm
  rw [List.getLast?_cons] at hlast
  cases hlater : later.getLast? with
  | none => simp [hlater] at hlast
  | some answer =>
      obtain rfl : answer = .undone := by simpa [hlater] using hlast
      exact hnone (List.mem_of_getLast? hlater)

/-- Any other answer leaves it open whether a step back can be made. -/
theorem hasUndo_idle (hread : answer.isRead = false) (hundone : answer ≠ .undone) :
    HasUndo (answers ++ [answer]) ↔ HasUndo answers := by
  constructor
  · rintro ⟨before, c, later, heq, hnone⟩
    rcases List.eq_nil_or_concat later with rfl | ⟨init, last, rfl⟩
    · obtain ⟨-, rfl⟩ := List.append_inj' heq rfl |>.imp_right List.singleton_inj.1
      contradiction
    · rw [List.concat_eq_append] at heq hnone
      rw [← List.cons_append, ← List.append_assoc] at heq
      exact ⟨before, c, init, (List.append_inj' heq rfl).1, fun h => hnone (List.mem_append_left _ h)⟩
  · rintro ⟨before, c, later, rfl, hnone⟩
    refine ⟨before, c, later ++ [answer], by simp, ?_⟩
    rw [List.mem_append, List.mem_singleton, not_or]
    exact ⟨hnone, hundone.symm⟩

end Answers

/-! ### The record of a reader -/

/-- How a reader that began at `start` has come to where it is, told by its answers. -/
structure Records (text : List Char) (start : Nat) (answers : List Answer) (r : Reader) : Prop where
  stays : r.text = text
  past : r.past.reverse = text.take start ++ kept answers
  count : (kept answers).length + answers.count .undone = answers.countP Answer.isRead
  undoable : r.undoable = true ↔ HasUndo answers
  /-- What can be taken back has been read since the beginning. -/
  kept_ne : HasUndo answers → kept answers ≠ []

section Records

variable {text : List Char} {start : Nat} {answers : List Answer} {r : Reader}

theorem records_startAt (text : List Char) (start : Nat) :
    Records text start [] (startAt text start) := by
  have hnone : ¬HasUndo [] := by
    rintro ⟨before, c, later, heq, -⟩
    simp at heq
  constructor
  · exact text_startAt text start
  · simp [startAt]
  · rfl
  · simpa [startAt] using hnone
  · exact fun h => absurd h hnone

theorem Records.read (h : Records text start answers r) {c : Char} {r' : Reader}
    (hnext : r.next? = some (c, r')) : Records text start (answers ++ [.read c]) r' := by
  obtain ⟨hrest, hr⟩ := next?_eq_some_iff.1 hnext
  constructor
  · rw [text_next? hnext, h.stays]
  · rw [hr, kept_read, List.reverse_cons, h.past, List.append_assoc]
  · have := h.count
    rw [kept_read, List.length_append, List.count_append, List.countP_append]
    simp [Answer.isRead]
    omega
  · rw [hr]
    exact iff_of_true rfl (hasUndo_read answers c)
  · intro _
    rw [kept_read]
    simp

theorem Records.undone (h : Records text start answers r) {r' : Reader}
    (hundo : r.undo? = some r') : Records text start (answers ++ [.undone]) r' := by
  obtain ⟨hundoable, c, hpast, hrest, hr⟩ := undo?_eq_some_iff.1 hundo
  -- What is taken back is the last character that was kept.
  obtain ⟨init, last, hkept⟩ : ∃ init last, kept answers = init ++ [last] := by
    rcases List.eq_nil_or_concat (kept answers) with hnil | ⟨init, last, hkept⟩
    · exact absurd hnil (h.kept_ne (h.undoable.1 hundoable))
    · exact ⟨init, last, by rw [hkept, List.concat_eq_append]⟩
  constructor
  · rw [text_undo? hundo, h.stays]
  · have hreverse := h.past
    rw [hpast, hkept, List.reverse_cons, ← List.append_assoc] at hreverse
    rw [kept_undone, hkept, List.dropLast_concat]
    exact (List.append_inj' hreverse rfl).1
  · have := h.count
    rw [hkept, List.length_append] at this
    rw [kept_undone, hkept, List.dropLast_concat, List.count_append, List.countP_append]
    simp [Answer.isRead] at this ⊢
    omega
  · rw [hr]
    exact iff_of_false Bool.false_ne_true (not_hasUndo_undone answers)
  · exact fun hhas => absurd hhas (not_hasUndo_undone answers)

/-- A call that moves the reader neither way leaves its record as it is. -/
theorem Records.idle (h : Records text start answers r) (answer : Answer)
    (hread : answer.isRead = false) (hundone : answer ≠ .undone) :
    Records text start (answers ++ [answer]) r := by
  constructor
  · exact h.stays
  · rw [kept_idle hread hundone, h.past]
  · rw [kept_idle hread hundone, List.count_append, List.countP_append]
    simpa [hread, List.count_singleton, hundone] using h.count
  · rw [hasUndo_idle hread hundone, h.undoable]
  · rw [hasUndo_idle hread hundone, kept_idle hread hundone]
    exact h.kept_ne

/-- Every call goes on with the record. -/
theorem records_perform (h : Records text start answers r) (call : Call) :
    Records text start (answers ++ [(r.perform call).1]) (r.perform call).2 := by
  cases call with
  | next =>
      cases hnext : r.next? with
      | none => simpa [perform, hnext] using h.idle .ended rfl nofun
      | some pair => simpa [perform, hnext] using h.read hnext
  | current => exact h.idle _ rfl nofun
  | undo =>
      cases hundo : r.undo? with
      | none => simpa [perform, hundo] using h.idle .refused rfl nofun
      | some r' => simpa [perform, hundo] using h.undone hundo
  | location => exact h.idle _ rfl nofun

theorem records_after (h : Records text start answers r) (calls : List Call) :
    Records text start (answers ++ r.answers calls) (r.after calls) := by
  induction calls generalizing answers r with
  | nil => rwa [answers_nil, List.append_nil]
  | cons call calls ih =>
      rw [answers_cons, List.append_cons]
      exact ih (records_perform h call)

end Records

/-! ### How a reader stands -/

/-- How a reader that began at `start` of a text and gave these answers stands, and what it answers to
the next call. -/
structure StandsAfter (text : List Char) (start : Nat) (answers : List Answer) (r : Reader) : Prop where
  /-- Every character read counts one forward, every step back one less. -/
  position : r.position + answers.count .undone =
    min start text.length + answers.countP Answer.isRead
  inside : r.position ∈ Set.Icc (min start text.length) text.length
  /-- What has been read and not taken back is the text between the beginning and the reader. -/
  kept : kept answers = (text.take r.position).drop (min start text.length)
  /-- A call that fails leaves the reader where it is and as it is. -/
  failing : ∀ call, (r.perform call).1.isFailure = true → (r.perform call).2 = r
  next : (r.perform .next).1 = text[r.position]?.elim .ended .read
  current : (r.perform .current).1 = .current (text.take r.position).getLast?
  undo : (r.perform .undo).1 = .undone ↔ HasUndo answers
  /-- The reader shows the line of the character just before it, or of the first one at the start. -/
  location : ∃ line, (text.splitOn '\n')[(text.take (r.position - 1)).count '\n']? = some line ∧
    (r.perform .location).1 =
      .located ⟨1 + (text.take (r.position - 1)).count '\n', String.ofList line⟩

theorem take_position_text (r : Reader) : r.text.take r.position = r.past.reverse := by
  rw [text, position, ← List.length_reverse, List.take_left]

theorem getElem?_position_text (r : Reader) : r.text[r.position]? = r.rest.head? := by
  rw [text, position, ← List.length_reverse, List.getElem?_append_right (Nat.le_refl _), Nat.sub_self,
    List.head?_eq_getElem?]

theorem perform_next (r : Reader) : (r.perform .next).1 = r.rest.head?.elim .ended .read := by
  rw [perform, next?]
  cases r.rest with
  | nil => rfl
  | cons c rest => rfl

theorem perform_undo_iff (r : Reader) :
    (r.perform .undo).1 = .undone ↔ r.undoable = true ∧ r.past ≠ [] := by
  rw [perform, undo?]
  cases r.past with
  | nil => simp
  | cons c past => cases r.undoable <;> simp

/-- A call that fails leaves the reader where it is. -/
theorem perform_of_isFailure {r : Reader} {call : Call} (h : (r.perform call).1.isFailure = true) :
    (r.perform call).2 = r := by
  unfold perform at h ⊢
  split at h
  · split at h
    · contradiction
    · simp only [*]
  · rfl
  · split at h
    · contradiction
    · simp only [*]
  · rfl

/-- The line that a reader shows is a piece of the text, cut at its line feeds. -/
theorem exists_location (r : Reader) :
    ∃ line, (r.text.splitOn '\n')[(r.text.take (r.position - 1)).count '\n']? = some line ∧
      r.location = ⟨1 + (r.text.take (r.position - 1)).count '\n', String.ofList line⟩ := by
  -- The text parts in front of the character just before the reader.
  have htext : r.text = r.past.tail.reverse ++ (r.past.head?.toList ++ r.rest) := by
    rw [text]
    cases r.past with
    | nil => rfl
    | cons c past => simp
  have hbefore : r.text.take (r.position - 1) = r.past.tail.reverse := by
    rw [htext, position, ← List.length_tail, ← List.length_reverse, List.take_left]
  have hpiece := Text.getElem?_splitOn r.past.tail.reverse (r.past.head?.toList ++ r.rest)
  rw [← htext, List.reverse_reverse] at hpiece
  rw [hbefore]
  refine ⟨_, hpiece, ?_⟩
  rw [List.count_reverse]
  rfl

section Records

variable {text : List Char} {start : Nat} {answers : List Answer} {r : Reader}

/-- A reader stands as far behind its beginning as characters have been kept. -/
theorem Records.position_eq (h : Records text start answers r) :
    r.position = min start text.length + (Reader.kept answers).length := by
  have hlength := congrArg List.length h.past
  rwa [List.length_reverse, List.length_append, List.length_take] at hlength

theorem Records.standsAfter (h : Records text start answers r) : StandsAfter text start answers r := by
  have hposition := h.position_eq
  have htake : text.take r.position = text.take start ++ Reader.kept answers := by
    rw [← h.past, ← h.stays, take_position_text]
  constructor
  · have := h.count
    omega
  · have := r.position_add_length_rest
    rw [h.stays] at this
    constructor <;> omega
  · rw [htake, ← List.length_take, List.drop_left]
  · exact fun call => perform_of_isFailure
  · rw [perform_next, ← getElem?_position_text, h.stays]
  · rw [htake, ← h.past, List.getLast?_reverse]
    rfl
  · rw [perform_undo_iff, h.undoable]
    refine ⟨And.left, fun hhas => ⟨hhas, fun hnil => h.kept_ne hhas ?_⟩⟩
    have hpast := h.past
    rw [hnil] at hpast
    exact (List.append_eq_nil_iff.1 hpast.symm).2
  · obtain ⟨line, hline, hlocation⟩ := r.exists_location
    rw [h.stays] at hline hlocation
    exact ⟨line, hline, congrArg Answer.located hlocation⟩

end Records

/-- After any calls a new reader stands where its answers say, between the place it began at and the end
of the text, and its text, its place and its answers decide what it answers to the next call. -/
theorem standsAfter_calls (text : List Char) (start : Nat) (calls : List Call) :
    StandsAfter text start ((startAt text start).answers calls) ((startAt text start).after calls) :=
  (records_after (records_startAt text start) calls).standsAfter

/-- At the end of the text the last character can still be taken back, but only once. -/
example : (startAt ['q'] 0).answers [.next, .next, .location, .undo, .undo] =
    [.read 'q', .ended, .located ⟨1, "q"⟩, .undone, .refused] := by
  decide

end Reader
end ExportIndex
