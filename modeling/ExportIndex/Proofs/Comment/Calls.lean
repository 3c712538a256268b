import ExportIndex.Proofs.Comment.Closing
import ExportIndex.Proofs.Reader.History

/-!
# What a comment asks of the reader

While a comment is read, the reader is asked to read on and to take a character back, and nothing else.

* `Reader.Performs r calls r'` — the calls lead from `r` to `r'`, and none of them is refused.
* `Loop` is a loop of the comment reader with the calls of its turns; `Loop.performs_calls` carries what
  one turn performs over a whole run of the loop.
* `calls` are the calls of a whole comment, and `performs_calls` says that they are performed and lead to
  the place where the comment is left.
* `Turn.Advances` — a turn ends behind the place where it began, unless reading fails in it.  The turns of
  all three loops do, also where they take a character back.
-/

namespace ExportIndex
namespace Reader

/-- The calls lead from one reader to another, and none of them is refused. -/
structure Performs (r : Reader) (calls : List Call) (r' : Reader) : Prop where
  leads : r.after calls = r'
  granted : .refused ∉ r.answers calls

section Performs

variable {r r₁ r' : Reader} {calls more : List Call} {c : Char}

theorem Performs.nil (r : Reader) : r.Performs [] r :=
  ⟨rfl, List.not_mem_nil⟩

theorem Performs.append (h : r.Performs calls r₁) (hmore : r₁.Performs more r') :
    r.Performs (calls ++ more) r' := by
  constructor
  · rw [after_append, h.leads, hmore.leads]
  · rw [answers_append, h.leads, List.mem_append, not_or]
    exact ⟨h.granted, hmore.granted⟩

/-- A character is read, and the calls go on behind it. -/
theorem Performs.next (hnext : r.next? = some (c, r₁)) (h : r₁.Performs calls r') :
    r.Performs (.next :: calls) r' := by
  have hperform : r.perform .next = (.read c, r₁) := by
    rw [perform, hnext]
  constructor
  · rw [after_cons, hperform, h.leads]
  · rw [answers_cons, hperform]
    simpa using h.granted

/-- At the end of the text the reader stays where it is. -/
theorem performs_ended (hnext : r.next? = none) : r.Performs [.next] r := by
  have hperform : r.perform .next = (.ended, r) := by
    rw [perform, hnext]
  constructor
  · rw [after_cons, hperform, after_nil]
  · rw [answers_cons, hperform]
    simp

/-- A character is taken back, and the calls go on in front of it. -/
theorem Performs.undo (hundo : r.undo? = some r₁) (h : r₁.Performs calls r') :
    r.Performs (.undo :: calls) r' := by
  have hperform : r.perform .undo = (.undone, r₁) := by
    rw [perform, hundo]
  constructor
  · rw [after_cons, hperform, h.leads]
  · rw [answers_cons, hperform]
    simpa using h.granted

end Performs

/-- One reader stands before another in the same text. -/
structure Precedes (r r' : Reader) : Prop where
  text : r'.text = r.text
  position : r.position < r'.position

theorem precedes_of_next? {r r' : Reader} {c : Char} (h : r.next? = some (c, r')) : r.Precedes r' := by
  refine ⟨text_next? h, ?_⟩
  rw [(next?_eq_some_iff.1 h).2]
  exact Nat.lt_succ_self _

theorem Precedes.trans {r r₁ r' : Reader} (h : r.Precedes r₁) (h' : r₁.Precedes r') : r.Precedes r' :=
  ⟨h'.text.trans h.text, h.position.trans h'.position⟩

end Reader

namespace Comment

open Reader (Call)

/-! ### Turns -/

/-- The reader behind a turn; `place` is that of a state. -/
def Turn.reader {σ : Type} (place : σ → Reader) : Turn σ → Reader
  | .done reading => reading.reader
  | .again s => place s

/-- A turn that began at `r` has moved on, or reading has failed in it, but not for a step back. -/
def Turn.Advances {σ : Type} (place : σ → Reader) (r : Reader) : Turn σ → Prop
  | .done ⟨none, _, r'⟩ => r.Precedes r'
  | .done ⟨some halt, _, _⟩ => halt ≠ .undoRefused
  | .again s => r.Precedes (place s)

/-- What is left of a turn without its tags. -/
def Turn.outline {σ : Type} (place : σ → Reader) : Turn σ → Turn Reader
  | .done reading => .done ⟨reading.halt, [], reading.reader⟩
  | .again s => .again (place s)

theorem Turn.reader_outline {σ : Type} (place : σ → Reader) (turn : Turn σ) :
    (turn.outline place).reader id = turn.reader place := by
  cases turn <;> rfl

theorem Turn.advances_outline {σ : Type} (place : σ → Reader) (r : Reader) (turn : Turn σ) :
    (turn.outline place).Advances id r ↔ turn.Advances place r := by
  rcases turn with ⟨_ | halt, tags, r'⟩ | s <;> exact Iff.rfl

/-- The calls of a turn over a block: behind a star one more character is read, which is taken back
unless it is a slash. -/
def blockTurnCalls (r : Reader) : List Call :=
  .next ::
    match r.next? with
    | none => []
    | some (c, r₁) =>
      if c = '*' then
        .next ::
          match r₁.next? with
          | none => []
          | some (d, _) => if d = '/' then [] else [.undo]
      else []

theorem performs_lineTurn (tags : List String) (r : Reader) :
    r.Performs [.next] ((lineTurn tags r).reader id) := by
  unfold lineTurn
  cases hnext : r.next? with
  | none => exact Reader.performs_ended hnext
  | some pair =>
      have hread : r.Performs [.next] pair.2 := .next hnext (.nil _)
      simp only
      split
      · exact hread
      · exact hread

theorem advances_lineTurn (tags : List String) (r : Reader) : (lineTurn tags r).Advances id r := by
  unfold lineTurn
  cases hnext : r.next? with
  | none => exact nofun
  | some pair =>
      have hmoved : r.Precedes pair.2 := Reader.precedes_of_next? hnext
      simp only
      split
      · exact hmoved
      · exact hmoved

theorem performs_blockTurn (tags : List String) (r : Reader) :
    r.Performs (blockTurnCalls r) ((blockTurn tags r).reader id) := by
  unfold blockTurnCalls blockTurn
  cases hnext : r.next? with
  | none => exact Reader.performs_ended hnext
  | some pair =>
      obtain ⟨c, r₁⟩ := pair
      by_cases hc : c = '*'
      · simp only [if_pos hc]
        cases hmore : r₁.next? with
        | none => exact .next hnext (Reader.performs_ended hmore)
        | some pair =>
            obtain ⟨d, r₂⟩ := pair
            by_cases hd : d = '/'
            · simp only [if_pos hd]
              exact .next hnext (.next hmore (.nil r₂))
            · have hundo := Reader.undo?_of_next? hmore
              simp only [if_neg hd, hundo]
              exact .next hnext (.next hmore (.undo hundo (.nil _)))
      · simp only [if_neg hc]
        exact .next hnext (.nil r₁)

/-- A turn that takes a character back has read two, so it moves on as well. -/
theorem advances_blockTurn (tags : List String) (r : Reader) : (blockTurn tags r).Advances id r := by
  unfold blockTurn
  cases hnext : r.next? with
  | none => exact nofun
  | some pair =>
      obtain ⟨c, r₁⟩ := pair
      have hone : r.Precedes r₁ := Reader.precedes_of_next? hnext
      by_cases hc : c = '*'
      · simp only [if_pos hc]
        cases hmore : r₁.next? with
        | none => exact nofun
        | some pair =>
            obtain ⟨d, r₂⟩ := pair
            by_cases hd : d = '/'
            · simp only [if_pos hd]
              exact hone.trans (Reader.precedes_of_next? hmore)
            · have hundo := Reader.undo?_of_next? hmore
              simp only [if_neg hd, hundo]
              exact ⟨hone.text, hone.position⟩
      · simp only [if_neg hc]
        exact hone

/-- But for the tags a turn over a tag block is one over a plain block: no star is a blank. -/
theorem outline_tagTurn (s : TagState) :
    (tagTurn s).outline TagState.reader = (blockTurn s.tags s.reader).outline id := by
  have hstar : Text.isBlank '*' = false := by decide
  unfold tagTurn blockTurn
  cases s.reader.next? with
  | none => rfl
  | some pair =>
      obtain ⟨c, r₁⟩ := pair
      by_cases hc : c = '*'
      · simp only [hc, hstar]
        cases r₁.next? with
        | none => rfl
        | some pair =>
            obtain ⟨d, r₂⟩ := pair
            by_cases hd : d = '/'
            · simp [hd, Turn.outline]
            · cases hundo : r₂.undo? <;> simp [hd, hundo, Turn.outline]
      · simp only [if_neg hc]
        split <;> rfl

theorem performs_tagTurn (s : TagState) :
    s.reader.Performs (blockTurnCalls s.reader) ((tagTurn s).reader TagState.reader) := by
  rw [← Turn.reader_outline, outline_tagTurn, Turn.reader_outline]
  exact performs_blockTurn s.tags s.reader

theorem advances_tagTurn (s : TagState) : (tagTurn s).Advances TagState.reader s.reader := by
  rw [← Turn.advances_outline, outline_tagTurn, Turn.advances_outline]
  exact advances_blockTurn s.tags s.reader

/-! ### Loops -/

/-- A loop of the comment reader, with the calls that its turns make. -/
structure Loop (σ : Type) where
  turn : σ → Turn σ
  run : σ → Reading
  /-- The reader that a state holds. -/
  place : σ → Reader
  turnCalls : σ → List Call
  run_done : ∀ {s : σ} {reading : Reading}, turn s = .done reading → run s = reading
  run_again : ∀ {s s' : σ}, turn s = .again s' → run s = run s'
  shrinks : ∀ {s s' : σ}, turn s = .again s' → (place s').rest.length < (place s).rest.length
  performs : ∀ s, (place s).Performs (turnCalls s) ((turn s).reader place)

/-- The calls of all turns, from the given state on. -/
def Loop.calls {σ : Type} (loop : Loop σ) (s : σ) : List Call :=
  match _h : loop.turn s with
  | .done _ => loop.turnCalls s
  | .again s' => loop.turnCalls s ++ loop.calls s'
termination_by (loop.place s).rest.length
decreasing_by exact loop.shrinks _h

theorem Loop.performs_calls {σ : Type} (loop : Loop σ) (s : σ) :
    (loop.place s).Performs (loop.calls s) (loop.run s).reader := by
  fun_induction loop.calls s with
  | case1 s reading h =>
      have hturn := loop.performs s
      rw [h] at hturn
      rw [loop.run_done h]
      exact hturn
  | case2 s s' h ih =>
      have hturn := loop.performs s
      rw [h] at hturn
      rw [loop.run_again h]
      exact hturn.append ih

def lineLoop (tags : List String) : Loop Reader where
  turn := lineTurn tags
  run := readLine tags
  place := id
  turnCalls _ := [.next]
  run_done := readLine_done
  run_again := readLine_again
  shrinks := length_rest_lineTurn
  performs := performs_lineTurn tags

def blockLoop (tags : List String) : Loop Reader where
  turn := blockTurn tags
  run := readBlock tags
  place := id
  turnCalls := blockTurnCalls
  run_done := readBlock_done
  run_again := readBlock_again
  shrinks := length_rest_blockTurn
  performs := performs_blockTurn tags

def tagLoop : Loop TagState where
  turn := tagTurn
  run := readTags
  place := TagState.reader
  turnCalls s := blockTurnCalls s.reader
  run_done := readTags_done
  run_again := readTags_again
  shrinks := length_rest_tagTurn
  performs := performs_tagTurn

/-! ### Whole comments -/

/-- The calls of a tag block from behind its two stars. -/
def tagBlockCalls (tags : List String) (r : Reader) : List Call :=
  .next ::
    match r.next? with
    | none => []
    | some (c, r₁) =>
      if c = '/' then []
      else
        .undo ::
          match r₁.undo? with
          | none => []
          | some r₂ => tagLoop.calls ⟨"", tags, r₂⟩

/-- The calls of the comment that opens with the slash just read. -/
def calls (nesting : Nat) (tags : List String) (r : Reader) : List Call :=
  .next ::
    match r.next? with
    | none => []
    | some (c, r₁) =>
      if c = '/' then (lineLoop tags).calls r₁
      else if c = '*' then
        .next ::
          match r₁.next? with
          | none => []
          | some (d, r₂) =>
            if d = '*' ∧ nesting = 0 then tagBlockCalls tags r₂
            else
              .undo ::
                match r₂.undo? with
                | none => []
                | some r₃ => (blockLoop tags).calls r₃
      else []

theorem performs_tagBlockCalls (tags : List String) (r : Reader) :
    r.Performs (tagBlockCalls tags r) (readTagBlock tags r).reader := by
  unfold tagBlockCalls readTagBlock
  cases hnext : r.next? with
  | none => exact Reader.performs_ended hnext
  | some pair =>
      obtain ⟨c, r₁⟩ := pair
      by_cases hc : c = '/'
      · simp only [if_pos hc]
        exact .next hnext (.nil r₁)
      · have hundo := Reader.undo?_of_next? hnext
        simp only [if_neg hc, hundo]
        exact .next hnext (.undo hundo (tagLoop.performs_calls ⟨"", tags, _⟩))

/-- No call of a comment is refused, and together they lead to where the comment is left. -/
theorem performs_calls (nesting : Nat) (tags : List String) (r : Reader) :
    r.Performs (calls nesting tags r) (read nesting tags r).reader := by
  unfold calls read
  cases hnext : r.next? with
  | none => exact Reader.performs_ended hnext
  | some pair =>
      obtain ⟨c, r₁⟩ := pair
      by_cases hslash : c = '/'
      · simp only [if_pos hslash]
        exact .next hnext ((lineLoop tags).performs_calls r₁)
      · by_cases hstar : c = '*'
        · simp only [if_neg hslash, if_pos hstar]
          cases hmore : r₁.next? with
          | none => exact .next hnext (Reader.performs_ended hmore)
          | some pair =>
              obtain ⟨d, r₂⟩ := pair
              by_cases htag : d = '*' ∧ nesting = 0
              · simp only [if_pos htag]
                exact .next hnext (.next hmore (performs_tagBlockCalls tags r₂))
              · have hundo := Reader.undo?_of_next? hmore
                simp only [if_neg htag, hundo]
                exact .next hnext (.next hmore (.undo hundo ((blockLoop tags).performs_calls _)))
        · simp only [if_neg hslash, if_neg hstar]
          exact .next hnext (.nil r₁)

/-- Inside brackets both stars of `**` are looked behind, and the character found there is taken back. -/
example : calls 1 [] (.startAt "**a*/".toList 0) =
    [.next, .next, .undo, .next, .next, .undo, .next, .next, .next] := by
  decide +kernel

/-- A comment is left in its text, not in front of the place where it was begun, and never for a step
back that is refused. -/
theorem read_advances (nesting : Nat) (tags : List String) (r : Reader) :
    (read nesting tags r).reader.text = r.text ∧
      r.position ≤ (read nesting tags r).reader.position ∧
        (read nesting tags r).halt ≠ some .undoRefused := by
  obtain ⟨past, text, undoable⟩ := r
  obtain ⟨halt, last, left, v, htext, houtcome, hhalt, hreader⟩ :=
    outcome_read nesting tags past text undoable
  refine ⟨?_, ?_, ?_⟩
  · rw [hreader, htext]
    simp [Reader.text]
  · rw [hreader]
    simp [Reader.position]
  · rw [hhalt]
    generalize last.length = finish at houtcome
    cases houtcome <;> simp

end Comment
end ExportIndex
