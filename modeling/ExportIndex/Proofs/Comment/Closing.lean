import Mathlib.Order.Bounds.Basic
import ExportIndex.Proofs.Comment.Extent

/-!
# Where a comment ends

The character behind its first slash tells how a comment is closed: a line comment by the next line
feed, a block by the next star with a slash behind it.  Brackets around the comment and the tags in it
make no difference.

* `closingMark?` is the mark that closes a comment, and `placesOf` are the places where a mark stands.
* `Outcome` lists how the reading of a comment can end, told by the places in the text; no text has two
  outcomes (`Outcome.unique`).
* `exists_isLeast_of_after?`, `notMem_placesOf_of_after?` — a comment that is closed is closed by the
  first of its marks, and one that is not closed has none.
* `read_iff_outcome` — reading a comment has exactly the outcome of its text.
-/

namespace ExportIndex
namespace Comment

/-- The mark that closes a comment whose second character is the given one. -/
def closingMark? : Char → Option (List Char)
  | '/' => some ['\n']
  | '*' => some ['*', '/']
  | _ => none

/-- The places of a text, from the index `first` on, where a mark stands. -/
def placesOf (mark text : List Char) (first : Nat) : Set Nat :=
  {i | first ≤ i ∧ mark <+: text.drop i}

/-- How the reading of a comment ends, and at which index, if the character behind its first slash is
the one with index `start`. -/
inductive Outcome (text : List Char) (start : Nat) : Option Halt → Nat → Prop
  /-- The comment ends with the first of its marks behind that character. -/
  | closed {c : Char} {mark : List Char} {i : Nat} (hopen : text[start]? = some c)
      (hmark : closingMark? c = some mark) (hfirst : IsLeast (placesOf mark text (start + 1)) i) :
      Outcome text start none (i + mark.length)
  /-- Without a mark the text ends first. -/
  | unclosed {c : Char} {mark : List Char} (hopen : text[start]? = some c)
      (hmark : closingMark? c = some mark) (hnone : ∀ i, i ∉ placesOf mark text (start + 1)) :
      Outcome text start (some .unterminated) text.length
  | nothing (hend : text[start]? = none) : Outcome text start (some .unterminated) text.length
  /-- Any other character opens no comment. -/
  | malformed {c : Char} (hopen : text[start]? = some c) (hmark : closingMark? c = none) :
      Outcome text start (some (.flawed .malformedComment)) (start + 1)

variable {mark text rest : List Char} {c : Char} {i first start : Nat}

/-! ### Places of a mark -/

/-- What stands before a text moves the places of a mark. -/
theorem add_mem_placesOf_append (before : List Char) :
    before.length + i ∈ placesOf mark (before ++ text) (before.length + first) ↔
      i ∈ placesOf mark text first := by
  simp [placesOf, List.drop_length_add_append]

theorem isLeast_placesOf_append (before : List Char) (h : IsLeast (placesOf mark text first) i) :
    IsLeast (placesOf mark (before ++ text) (before.length + first)) (before.length + i) := by
  refine ⟨(add_mem_placesOf_append before).2 h.1, fun j hj => ?_⟩
  obtain ⟨k, rfl⟩ := Nat.exists_eq_add_of_le (Nat.le_of_add_right_le hj.1)
  exact Nat.add_le_add_left (h.2 ((add_mem_placesOf_append before).1 hj)) _

theorem notMem_placesOf_append (before : List Char) (h : ∀ i, i ∉ placesOf mark text first) (i : Nat) :
    i ∉ placesOf mark (before ++ text) (before.length + first) := by
  intro hi
  obtain ⟨k, rfl⟩ := Nat.exists_eq_add_of_le (Nat.le_of_add_right_le hi.1)
  exact h k ((add_mem_placesOf_append before).1 hi)

/-- A mark that does not stand at the first place stands at a later one, if at all. -/
theorem placesOf_cons (h : ¬mark <+: c :: text) :
    placesOf mark (c :: text) 0 = placesOf mark ([c] ++ text) ([c].length + 0) := by
  ext i
  cases i with
  | zero => simp [placesOf, h]
  | succ i => simp [placesOf]

/-- A comment that is closed is closed by the first of its marks. -/
theorem exists_isLeast_of_afterFeed? (h : afterFeed? text = some rest) :
    ∃ i, IsLeast (placesOf ['\n'] text 0) i ∧ i + 1 + rest.length = text.length := by
  fun_induction afterFeed? text with
  | case1 => contradiction
  | case2 text =>
      obtain rfl : text = rest := by simpa using h
      refine ⟨0, ⟨by simp [placesOf], fun _ _ => Nat.zero_le _⟩, ?_⟩
      rw [List.length_cons]
      omega
  | case3 c text hc ih =>
      obtain ⟨i, hi, hlength⟩ := ih h
      rw [placesOf_cons (by simpa [eq_comm] using hc)]
      refine ⟨_, isLeast_placesOf_append [c] hi, ?_⟩
      simp only [List.length_cons, List.length_nil]
      omega

theorem exists_isLeast_of_afterClose? (h : afterClose? text = some rest) :
    ∃ i, IsLeast (placesOf ['*', '/'] text 0) i ∧ i + 2 + rest.length = text.length := by
  fun_induction afterClose? text with
  | case1 => contradiction
  | case2 => contradiction
  | case3 c d text hcd =>
      obtain rfl : text = rest := by simpa using h
      obtain ⟨rfl, rfl⟩ := hcd
      refine ⟨0, ⟨by simp [placesOf], fun _ _ => Nat.zero_le _⟩, ?_⟩
      simp only [List.length_cons]
      omega
  | case4 c d text hcd ih =>
      obtain ⟨i, hi, hlength⟩ := ih h
      rw [placesOf_cons (by simpa [eq_comm] using hcd)]
      refine ⟨_, isLeast_placesOf_append [c] hi, ?_⟩
      simp only [List.length_cons, List.length_nil] at hlength ⊢
      omega

theorem exists_isLeast_of_after? (hmark : closingMark? c = some mark)
    (h : after? (c :: text) = some rest) :
    ∃ i, IsLeast (placesOf mark text 0) i ∧ i + mark.length + rest.length = text.length := by
  unfold closingMark? at hmark
  split at hmark
  · obtain rfl := Option.some.inj hmark
    exact exists_isLeast_of_afterFeed? h
  · obtain rfl := Option.some.inj hmark
    exact exists_isLeast_of_afterClose? h
  · contradiction

theorem notMem_placesOf_of_afterFeed? (h : afterFeed? text = none) (i : Nat) :
    i ∉ placesOf ['\n'] text 0 := by
  fun_induction afterFeed? text generalizing i with
  | case1 => simp [placesOf]
  | case2 => contradiction
  | case3 c text hc ih =>
      rw [placesOf_cons (by simpa [eq_comm] using hc)]
      exact notMem_placesOf_append [c] (ih h) i

theorem notMem_placesOf_of_afterClose? (h : afterClose? text = none) (i : Nat) :
    i ∉ placesOf ['*', '/'] text 0 := by
  induction text generalizing i with
  | nil => simp [placesOf]
  | cons c text ih =>
      obtain ⟨hrest, hopen⟩ := afterClose?_cons_eq_none h
      have hno : ¬['*', '/'] <+: c :: text := by
        rintro ⟨more, hmore⟩
        obtain ⟨rfl, rfl⟩ := List.cons.inj hmore
        exact hopen rfl rfl
      rw [placesOf_cons hno]
      exact notMem_placesOf_append [c] (ih hrest) i

/-- A text that closes no block does not hold the mark of a block. -/
theorem not_infix_of_afterClose? (h : afterClose? text = none) : ¬['*', '/'] <:+: text := by
  rintro ⟨before, after, rfl⟩
  refine notMem_placesOf_of_afterClose? h before.length ⟨Nat.zero_le _, ?_⟩
  simp

/-- A comment that is not closed has none of its marks. -/
theorem notMem_placesOf_of_after? (hmark : closingMark? c = some mark)
    (h : after? (c :: text) = none) (i : Nat) : i ∉ placesOf mark text 0 := by
  unfold closingMark? at hmark
  split at hmark
  · obtain rfl := Option.some.inj hmark
    exact notMem_placesOf_of_afterFeed? h i
  · obtain rfl := Option.some.inj hmark
    exact notMem_placesOf_of_afterClose? h i
  · contradiction

/-! ### Outcomes -/

theorem closingMark?_eq_none_iff : closingMark? c = none ↔ c ≠ '/' ∧ c ≠ '*' := by
  unfold closingMark?
  split <;> simp_all

theorem after?_eq_none (h : closingMark? c = none) : after? (c :: text) = none := by
  obtain ⟨hslash, hstar⟩ := closingMark?_eq_none_iff.1 h
  unfold after?
  split <;> simp_all

/-- No text has two outcomes. -/
theorem Outcome.unique {halt halt' : Option Halt} {finish finish' : Nat}
    (h : Outcome text start halt finish) (h' : Outcome text start halt' finish') :
    halt = halt' ∧ finish = finish' := by
  -- Both have the same character and so the same mark, and a mark has at most one least place.
  cases h <;> cases h' <;> grind [IsLeast.unique, IsLeast]

/-- What stands before a comment moves its outcome. -/
theorem Outcome.append {halt : Option Halt} {finish : Nat} (h : Outcome text 0 halt finish)
    (before : List Char) :
    Outcome (before ++ text) before.length halt (before.length + finish) := by
  have hfirst : (before ++ text)[before.length]? = text[0]? := by
    rw [List.getElem?_append_right (Nat.le_refl _), Nat.sub_self]
  cases h with
  | closed hopen hmark hleast =>
      rw [← Nat.add_assoc]
      exact .closed (hfirst.trans hopen) hmark (isLeast_placesOf_append before hleast)
  | unclosed hopen hmark hnone =>
      rw [← List.length_append]
      exact .unclosed (hfirst.trans hopen) hmark (notMem_placesOf_append before hnone)
  | nothing hend =>
      rw [← List.length_append]
      exact .nothing (hfirst.trans hend)
  | malformed hopen hmark => exact .malformed (hfirst.trans hopen) hmark

/-- A whole comment ends where its text does. -/
theorem IsBody.outcome {body : List Char} (h : IsBody body) (rest : List Char) :
    Outcome (body ++ rest) 0 none body.length := by
  cases body with
  | nil => contradiction
  | cons c body =>
      have hafter := h.after?_append rest
      rw [List.cons_append] at hafter ⊢
      cases hmark : closingMark? c with
      | none => simp [after?_eq_none hmark] at hafter
      | some mark =>
          obtain ⟨i, hi, hlength⟩ := exists_isLeast_of_after? hmark hafter
          have hfinish : (c :: body).length = 1 + i + mark.length := by
            rw [List.length_append] at hlength
            rw [List.length_cons]
            omega
          rw [hfinish]
          exact .closed rfl hmark (isLeast_placesOf_append [c] hi)

/-- Reading ends with the outcome of the text behind the reader, and the text stays as it is. -/
theorem outcome_read (nesting : Nat) (tags : List String) (past text : List Char) (undoable : Bool) :
    ∃ halt last left v, text = last ++ left ∧ Outcome text 0 halt last.length ∧
      (read nesting tags ⟨past, text, undoable⟩).halt = halt ∧
      (read nesting tags ⟨past, text, undoable⟩).reader = ⟨last.reverse ++ past, left, v⟩ := by
  cases text with
  | nil => exact ⟨_, [], [], undoable, rfl, .nothing rfl, rfl, rfl⟩
  | cons c text =>
      cases hmark : closingMark? c with
      | none =>
          obtain ⟨hslash, hstar⟩ := closingMark?_eq_none_iff.1 hmark
          have hread := read_malformed hslash hstar nesting tags past text undoable
          exact ⟨_, [c], text, true, rfl, .malformed rfl hmark, congrArg Reading.halt hread,
            congrArg Reading.reader hread⟩
      | some mark =>
          cases hafter : after? (c :: text) with
          | none =>
              have hopen : ∀ d rest, c :: text = d :: rest → d = '/' ∨ d = '*' := by
                rintro d rest ⟨rfl, rfl⟩
                by_contra hd
                rw [not_or, ← closingMark?_eq_none_iff, hmark] at hd
                contradiction
              obtain ⟨v, hread⟩ := read_unterminated hafter hopen nesting tags past undoable
              refine ⟨_, c :: text, [], v, (List.append_nil _).symm, ?_, congrArg Reading.halt hread,
                congrArg Reading.reader hread⟩
              exact .unclosed rfl hmark
                (notMem_placesOf_append [c] (notMem_placesOf_of_after? hmark hafter))
          | some rest =>
              obtain ⟨body, htext, hbody⟩ := exists_body hafter
              have hread := read_body hbody nesting tags past rest undoable
              rw [htext]
              exact ⟨_, body, rest, true, rfl, hbody.outcome rest, congrArg Reading.halt hread,
                congrArg Reading.reader hread⟩

/-- A comment is read to the place that its text tells, whatever brackets are open around it and
whatever tags have been met: just behind the first of its marks, to the end of a text without one, or
just behind a character that opens no comment.  The reader stays in its text. -/
theorem read_iff_outcome (nesting : Nat) (tags : List String) (r : Reader) :
    (read nesting tags r).reader.text = r.text ∧
      ∀ (halt : Option Halt) (finish : Nat), Outcome r.text r.position halt finish ↔
        (read nesting tags r).halt = halt ∧ (read nesting tags r).reader.position = finish := by
  obtain ⟨past, text, undoable⟩ := r
  obtain ⟨halt, last, left, v, htext, houtcome, hhalt, hreader⟩ :=
    outcome_read nesting tags past text undoable
  have hposition : (read nesting tags ⟨past, text, undoable⟩).reader.position =
      past.reverse.length + last.length := by
    rw [hreader]
    simp [Reader.position, Nat.add_comm]
  have hends : Outcome (Reader.text ⟨past, text, undoable⟩) (Reader.position ⟨past, text, undoable⟩)
      halt (past.reverse.length + last.length) := by
    have hmoved := houtcome.append past.reverse
    rwa [List.length_reverse] at hmoved ⊢
  refine ⟨?_, fun halt' finish => ⟨fun h => ?_, ?_⟩⟩
  · rw [hreader, htext]
    simp [Reader.text]
  · obtain ⟨hsame, hfinish⟩ := hends.unique h
    exact ⟨hhalt.trans hsame, hposition.trans hfinish⟩
  · rintro ⟨rfl, rfl⟩
    rwa [hhalt, hposition]

/-- Inside brackets a tag block ends where it does outside, here behind a run of stars. -/
example : ∀ nesting ∈ [0, 1],
    (read nesting [] (.startAt "f(/** a **/x".toList 3)).reader.position = 11 := by
  decide +kernel

end Comment
end ExportIndex
