import ExportIndex.Proofs.Comment.Calls
import ExportIndex.Proofs.Declaration.Flaws
import ExportIndex.Proofs.Segment.Brackets

/-!
# What a declaration asks of the reader

A declaration is read in turns, each of which asks the reader for one character or for a comment.

* `Segment.calls` and `calls` are the calls that a segment and a declaration make, in order, and
  `performs_calls` says that none of them is refused and that they lead to where reading stops.
* `Segment.Turn.Advances` — a turn ends behind the place where it began, unless reading fails in it.
* `Reader.Abides` — a run keeps within its text and does not go back behind the place it began at.
* `scan_abides` — the readers of comments and of declarations abide in every run and advance in every
  turn of their loops.
-/

namespace ExportIndex

open Reader (Call)

namespace Segment

/-- The reader behind a turn. -/
def Turn.reader : Turn → Reader
  | .done reading => reading.reader
  | .again _ r => r

/-- A turn that began at `r` has moved on, or reading has failed in it, but not for a step back. -/
def Turn.Advances (r : Reader) : Turn → Prop
  | .done ⟨.ok _, _, r'⟩ => r.Precedes r'
  | .done ⟨.error halt, _, _⟩ => halt ≠ .undoRefused
  | .again _ r' => r.Precedes r'

/-- The calls of a turn: one for its character, and those of the comment that this opens. -/
def turnCalls (part : Part) (s : Segment) (r : Reader) : List Call :=
  .next ::
    match r.next? with
    | none => []
    | some (c, r₁) =>
      match s.step part c with
      | .comment s₁ => Comment.calls s₁.nesting s₁.tags r₁
      | _ => []

/-- The calls of a segment. -/
def calls (part : Part) (s : Segment) (r : Reader) : List Call :=
  match _h : s.turn part r with
  | .done _ => s.turnCalls part r
  | .again s₁ r₁ => s.turnCalls part r ++ calls part s₁ r₁
termination_by r.rest.length
decreasing_by exact length_rest_turn _h

theorem reader_commentTurn (s : Segment) (r : Reader) :
    (s.commentTurn r).reader = (Comment.read s.nesting s.tags r).reader := by
  simp only [commentTurn]
  split <;> rfl

theorem performs_turn (part : Part) (s : Segment) (r : Reader) :
    r.Performs (s.turnCalls part r) (s.turn part r).reader := by
  unfold turnCalls turn
  cases hnext : r.next? with
  | none => exact Reader.performs_ended hnext
  | some pair =>
      obtain ⟨c, r₁⟩ := pair
      simp only
      cases hstep : s.step part c with
      | comment s₁ =>
          simp only [reader_commentTurn]
          exact .next hnext (Comment.performs_calls ..)
      | more s₁ => exact .next hnext (.nil r₁)
      | done delimiter => exact .next hnext (.nil r₁)
      | flaw flaw => exact .next hnext (.nil r₁)

theorem advances_commentTurn {s : Segment} {r r₁ : Reader} (hone : r.Precedes r₁) :
    (s.commentTurn r₁).Advances r := by
  obtain ⟨htext, hmoved, hhalt⟩ := Comment.read_advances s.nesting s.tags r₁
  simp only [commentTurn]
  split
  · rename_i halt heq
    rw [heq] at hhalt
    exact fun h => hhalt (congrArg some h)
  · exact ⟨htext.trans hone.text, Nat.lt_of_lt_of_le hone.position hmoved⟩

theorem advances_turn (part : Part) (s : Segment) (r : Reader) : (s.turn part r).Advances r := by
  unfold turn
  cases hnext : r.next? with
  | none => exact nofun
  | some pair =>
      obtain ⟨c, r₁⟩ := pair
      have hone : r.Precedes r₁ := Reader.precedes_of_next? hnext
      simp only
      cases s.step part c with
      | more s₁ => exact hone
      | comment s₁ => exact advances_commentTurn hone
      | done delimiter => exact hone
      | flaw flaw => exact nofun

theorem performs_calls (part : Part) (s : Segment) (r : Reader) :
    r.Performs (calls part s r) (read part s r).reader := by
  fun_induction calls part s r with
  | case1 s r reading hturn =>
      have hperforms := performs_turn part s r
      rw [hturn] at hperforms
      rw [read_done hturn]
      exact hperforms
  | case2 s r s₁ r₁ hturn ih =>
      have hperforms := performs_turn part s r
      rw [hturn] at hperforms
      rw [read_again hturn]
      exact hperforms.append ih

end Segment

namespace Declaration

theorem exists_ok_of_next {first : Bool} {result : Except Halt Delimiter} {s : Segment}
    {parameter : Parameter} (h : slotVerdict first result s = .next parameter) :
    ∃ delimiter, result = .ok delimiter := by
  cases result with
  | error halt => contradiction
  | ok delimiter => exact ⟨delimiter, rfl⟩

/-- The calls of a parameter list. -/
def listCalls (first : Bool) (r : Reader) : List Call :=
  let slot := Segment.read .parameters .empty r
  match _h : slotVerdict first slot.result slot.segment with
  | .done _ => Segment.calls .parameters .empty r
  | .next _ => Segment.calls .parameters .empty r ++ listCalls false slot.reader
termination_by r.rest.length
decreasing_by
  obtain ⟨delimiter, hresult⟩ := exists_ok_of_next _h
  exact Segment.length_rest_read hresult

/-- The calls of a declaration. -/
def calls (r : Reader) : List Call :=
  let head := Segment.read .head .empty r
  match headVerdict head.result head.segment with
  | .error _ => Segment.calls .head .empty r
  | .ok _ => Segment.calls .head .empty r ++ listCalls true head.reader

theorem performs_listCalls (first : Bool) (r : Reader) :
    r.Performs (listCalls first r) (readParameters first r).2 := by
  fun_induction listCalls first r with
  | case1 first r slot result hverdict =>
      rw [readParameters_eq, hverdict]
      exact Segment.performs_calls .parameters .empty r
  | case2 first r slot parameter hverdict ih =>
      rw [readParameters_eq, hverdict]
      exact (Segment.performs_calls .parameters .empty r).append ih

/-- No call of a declaration is refused, and together they lead to where reading stops. -/
theorem performs_calls (line : Nat) (r : Reader) : r.Performs (calls r) (read line r).2 := by
  have hhead := Segment.performs_calls .head .empty r
  rw [calls, read_eq]
  cases headVerdict (Segment.read .head .empty r).result (Segment.read .head .empty r).segment with
  | error halt => exact hhead
  | ok named => exact hhead.append (performs_listCalls true _)

end Declaration

/-- A run from a new reader at `start` to the reader `r`: no call is refused, and at every moment the
reader stands between the place where it began and the end of the text. -/
structure Reader.Abides (text : List Char) (start : Nat) (calls : List Call) (r : Reader) : Prop where
  performs : (startAt text start).Performs calls r
  inside : ∀ before, before <+: calls →
    ((startAt text start).after before).position ∈ Set.Icc (min start text.length) text.length

theorem Reader.Performs.abides {text : List Char} {start : Nat} {calls : List Call} {r : Reader}
    (h : (startAt text start).Performs calls r) : Abides text start calls r := by
  refine ⟨h, fun before _ => ?_⟩
  exact (records_after (records_startAt text start) before).standsAfter.inside

namespace Declaration

/-- Reading a comment or a declaration never asks for a step back that is refused, never lowers the
counter of open parentheses below zero, and never leaves the text or goes back behind the place it began
at.  Every turn of a loop moves on or fails, also where it takes a character back. -/
theorem scan_abides (text : List Char) (start line nesting : Nat) (tags : List String) :
    let r := Reader.startAt text start
    (Reader.Abides text start (Comment.calls nesting tags r) (Comment.read nesting tags r).reader ∧
      (Comment.read nesting tags r).halt ≠ some .undoRefused) ∧
    (Reader.Abides text start (calls r) (read line r).2 ∧
      scan text start line ≠ .error .undoRefused) ∧
    (∀ part s c s', Segment.step part s c = .more s' →
      s'.paren + [c].count ')' = s.paren + [c].count '(') ∧
    (∀ part s r, (Segment.turn part s r).Advances r) ∧
    (∀ tags r, (Comment.lineTurn tags r).Advances id r) ∧
    (∀ tags r, (Comment.blockTurn tags r).Advances id r) ∧
    (∀ s, (Comment.tagTurn s).Advances Comment.TagState.reader s.reader) := by
  intro r
  refine ⟨⟨?_, ?_⟩, ⟨?_, ?_⟩, ?_, ?_, ?_, ?_, ?_⟩
  · exact (Comment.performs_calls nesting tags r).abides
  · exact (Comment.read_advances nesting tags r).2.2
  · exact (performs_calls line r).abides
  · exact scan_ne_undoRefused text start line
  · intro part s c s' hstep
    exact (Segment.step_eq_more_iff.1 hstep).counts.2
  · exact Segment.advances_turn
  · exact Comment.advances_lineTurn
  · exact Comment.advances_blockTurn
  · exact Comment.advances_tagTurn

end Declaration
end ExportIndex
