import ExportIndex.Proofs.Declaration.Layout

/-!
# Comments in a declaration

A comment changes nothing in a declaration but the tags of the type it stands at: outside all brackets
it is a space, and inside brackets it is nothing.

* `gap` is what a comment stands for.
* `taggedAlike_of_comment` — in a segment, a comment is read as its gap, with its tags.
* `scan_commented` — a comment at any point that scanning a declaration passes.
-/

namespace ExportIndex
namespace Declaration

open Segment (Run Ends TaggedAlike)

/-! ### A comment in a segment -/

/-- What a comment stands for when `nesting` brackets are open around it. -/
def gap (nesting : Nat) : List Char :=
  if nesting = 0 then [' '] else []

theorem run_gap {part : Part} (s : Segment) : Run part s (gap s.nesting) s.beforeComment := by
  rw [gap, Segment.beforeComment]
  split
  · rename_i htop
    exact Segment.run_space s htop
  · exact .refl s

/-- A comment in a segment is read as the gap it stands for, with its tags. -/
theorem taggedAlike_of_comment {part : Part} {segment body : List Char} {s : Segment}
    (hrun : Run part .empty segment s) (hbody : Comment.IsBody body) (rest past : List Char)
    (undoable : Bool) :
    TaggedAlike (Comment.tagsOf s.nesting body)
      (Segment.read part .empty ⟨past, segment ++ (gap s.nesting ++ rest), undoable⟩)
      (Segment.read part .empty ⟨past, segment ++ ('/' :: body ++ rest), undoable⟩) := by
  obtain ⟨v, hv⟩ := Segment.read_of_run (hrun.trans (run_gap s)) past rest undoable
  obtain ⟨v', hv'⟩ := Segment.read_of_run (hrun.trans (Segment.Move.comment hbody).run) past rest
    undoable
  rw [← List.append_assoc, hv, ← List.append_assoc, hv']
  refine Segment.taggedAlike_retag (s := s.beforeComment) (fun tag => ?_) rfl
  rw [Segment.tags_beforeComment, List.mem_append]

/-! ### A comment in a text -/

/-- A comment is the gap it stands for, with its tags added to the type of its place. -/
theorem scan_of_comment {text segment body : List Char} {start p n : Nat} {place : Place}
    {s : Segment} (hstart : start ≤ p) (hend : p ≤ text.length)
    (hpasses : Passes ((text.take p).drop start) place segment s) (hbody : Comment.IsBody body)
    (hlength : body.length + 1 = (gap s.nesting).length + n) (line : Nat) :
    (scan (text.take p ++ ('/' :: body ++ text.drop p)) start line).mapError ScanError.halt =
      ((scan (text.take p ++ (gap s.nesting ++ text.drop p)) start line).mapError ScanError.halt).map
        fun (declaration, finish) =>
          (declaration.tagged (Comment.tagsOf s.nesting body) place, finish + n) := by
  have hmaps := maps_of_passes hpasses (fun past undoable =>
    taggedAlike_of_comment hpasses.run hbody (text.drop p) past undoable) line
    (text.take start).reverse false
  rw [← startAt_insert hstart hend, ← startAt_insert hstart hend] at hmaps
  refine scan_of_map (f := (·.tagged _ place)) ?_ hmaps.result hmaps.rest
  simp only [List.length_append, List.length_cons]
  omega

/-- A comment at a point that scanning passes is a space if the point is outside all brackets, and
nothing otherwise: the declaration is the same, or the scan fails alike.  Only a tag block outside all
brackets adds tags, its words, and only to the type of the segment that the point lies in. -/
theorem scan_commented {text segment body : List Char} {start p : Nat} {place : Place} {s : Segment}
    (hstart : start ≤ p) (hend : p ≤ text.length)
    (hpasses : Passes ((text.take p).drop start) place segment s) (hbody : Comment.IsBody body) (line : Nat) :
    (s.nesting = 0 → ∃ tags,
      ((∃ inner, body = '*' :: '*' :: (inner ++ ['*', '/']) ∧ tags = Comment.words inner) ∨
        (∀ more, body = '*' :: '*' :: more → more = ['/']) ∧ tags = []) ∧
      (scan (text.take p ++ ('/' :: body ++ text.drop p)) start line).mapError ScanError.halt =
        ((scan (text.take p ++ ' ' :: text.drop p) start line).mapError ScanError.halt).map
          fun (declaration, finish) => (declaration.tagged tags place, finish + body.length)) ∧
    (s.nesting ≠ 0 →
      (scan (text.take p ++ ('/' :: body ++ text.drop p)) start line).mapError ScanError.halt =
        ((scan text start line).mapError ScanError.halt).map
          fun (declaration, finish) => (declaration, finish + ('/' :: body).length)) := by
  constructor
  · intro htop
    have hgap : gap s.nesting = [' '] := if_pos htop
    refine ⟨Comment.tagsOf 0 body, hbody.tagsOf_zero, ?_⟩
    rw [scan_of_comment hstart hend hpasses hbody (n := body.length) (by rw [hgap]; exact Nat.add_comm ..),
      hgap, htop]
    rfl
  · intro hnested
    have hgap : gap s.nesting = [] := if_neg hnested
    rw [scan_of_comment hstart hend hpasses hbody (n := body.length + 1)
      (by rw [hgap]; exact (Nat.zero_add _).symm), hgap, Comment.tagsOf_of_ne hnested]
    simp only [tagged_nil, List.nil_append, List.take_append_drop, List.length_cons]

/-- In `T f(U<a>b)` a tag block behind `U` is a space and tags the parameter; behind `U<` it is nothing. -/
theorem scan_commented_block :
    let found (full : String) (tags : TagSet) : Declaration :=
      ⟨"f", 1, ⟨"T", "T", 0, .none, .empty⟩, [⟨"b", ⟨full, full, 0, .none, tags⟩⟩]⟩
    scan "T f(U <a>b)".toList 0 1 = .ok (found "U <a>" .empty, 11) ∧
      scan "T f(U/** in */<a>b)".toList 0 1 = .ok (found "U <a>" (.ofList ["in"]), 19) ∧
      scan "T f(U<a>b)".toList 0 1 = .ok (found "U<a>" .empty, 10) ∧
      scan "T f(U</** in */a>b)".toList 0 1 = .ok (found "U<a>" .empty, 19) := by
  intro found
  -- The head and the two points of the slot.
  have hhead : Run .head .empty ['T', ' ', 'f'] ⟨"f", ["T"], [], 0, 0, false⟩ := by
    refine .move (.char (.ordinary ?_ ?_ ?_ ?_))
      (.move (.char (.blank ?_)) (.move (.char (.ordinary ?_ ?_ ?_ ?_)) (.refl _)))
    all_goals decide
  have houter : Run .parameters .empty ['U'] ⟨"U", [], [], 0, 0, false⟩ := by
    refine .move (.char (.ordinary ?_ ?_ ?_ ?_)) (.refl _)
    all_goals decide
  have hinner : Run .parameters .empty ['U', '<'] ⟨"U<", [], [], 1, 0, false⟩ :=
    houter.trans (.move (.char .openAngle) (.refl _))
  have hpasses {slot : List Char} {s : Segment} (hrun : Run .parameters .empty slot s) :
      Passes ("T f(".toList ++ slot) (.slot 0) slot s :=
    .slot (.intro hhead (.delimiter (.opening rfl rfl)))
      (rfl : namedType .unnamedFunction ⟨"f", ["T"], [], 0, 0, false⟩ = .ok ("f", _)) (.here hrun)
  have hbody : Comment.IsBody "** in */".toList := by
    rw [Comment.IsBody]
    decide
  have hspaced : scan "T f(U <a>b)".toList 0 1 = .ok (found "U <a>" .empty, 11) := by decide +kernel
  have hplain : scan "T f(U<a>b)".toList 0 1 = .ok (found "U<a>" .empty, 10) := by decide +kernel
  refine ⟨hspaced, ?_, hplain, ?_⟩
  · obtain ⟨tags, ⟨inner, hsame, rfl⟩ | ⟨hother, -⟩, hscan⟩ :=
      (@scan_commented "T f(U<a>b)".toList _ _ 0 5 _ _ (Nat.zero_le 5) (by decide) (hpasses houter) hbody
        1).1 rfl
    · obtain rfl : " in ".toList = inner :=
        List.append_cancel_right (List.cons.inj (List.cons.inj hsame).2).2
      refine scan_eq_ok_iff.2 (hscan.trans ?_)
      rw [show scan ("T f(U<a>b)".toList.take 5 ++ ' ' :: "T f(U<a>b)".toList.drop 5) 0 1 = _ from hspaced]
      decide +kernel
    · exact absurd (hother " in */".toList rfl) (by decide)
  · have hscan := (@scan_commented "T f(U<a>b)".toList _ _ 0 6 _ _ (Nat.zero_le 6) (by decide)
      (hpasses hinner) hbody 1).2 (by decide)
    refine scan_eq_ok_iff.2 (hscan.trans ?_)
    rw [hplain]
    rfl

end Declaration
end ExportIndex
