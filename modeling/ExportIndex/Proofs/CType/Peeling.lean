import Mathlib.Data.List.Basic
import Mathlib.Data.List.TakeWhile
import ExportIndex.CType.Fragment

/-!
# Fragments stripped from both ends

Stars come off the front of a fragment first, then marks off its end, and with each mark the blanks
that it leaves at that end.

* `Unstars` and `Unmarks` are these strips as relations, one constructor for each kind of step;
  `Strips` is one after the other.
* `strips_iff` — what a fragment is taken apart into is what the strips leave of it.
* `Strips.exists_append` — nothing but marks and blanks is stripped off, and every mark is kept count
  of; `Strips.core_eq` tells the core of a text that ends in marks.
-/

namespace ExportIndex
namespace CType

open Text (isBlank trimStart trimEnd)

/-- How a mark is written. -/
def Marker.spelling : Marker → List Char
  | .star => ['*']
  | .lvalue => ['&']
  | .rvalue => ['&', '&']

theorem Marker.mem_spelling {marker : Marker} {c : Char} (h : c ∈ marker.spelling) :
    c = '*' ∨ c = '&' := by
  cases marker with
  | star => exact .inl (by simpa [spelling] using h)
  | lvalue => exact .inr (by simpa [spelling] using h)
  | rvalue => exact .inr (by simpa [spelling] using h)

namespace Fragment

/-- Takes the stars off the front of a text, with the blanks behind each. -/
inductive Unstars : List Char → Nat → List Char → Prop
  | done {text : List Char} (h : text.head? ≠ some '*') : Unstars text 0 text
  | star {text core : List Char} {stars : Nat} (h : Unstars (trimStart text) stars core) :
      Unstars ('*' :: text) (stars + 1) core

/-- Takes the marks off the end of a text, with the blanks before each.  Two ampersands side by side
are one mark. -/
inductive Unmarks : List Char → List Marker → List Char → Prop
  | done {text : List Char} (h : ∀ c ∈ text.getLast?, ¬(c = '*' ∨ c = '&')) : Unmarks text [] text
  | mark {text core : List Char} {marker : Marker} {markers : List Marker}
      (hlongest : marker = .lvalue → text.getLast? ≠ some '&')
      (h : Unmarks (trimEnd text) markers core) :
      Unmarks (text ++ marker.spelling) (marker :: markers) core

/-- Takes a text apart: first the stars in front, then the marks at the end. -/
def Strips (text : List Char) (fragment : Fragment) : Prop :=
  ∃ unstarred, Unstars text fragment.leadingStars unstarred ∧
    Unmarks unstarred fragment.markers fragment.core.toList

/-! ### The strips as functions -/

/-- Behind a star the blanks are skipped. -/
theorem peelStars_true (text : List Char) : peelStars true text = peelStars false (trimStart text) := by
  induction text with
  | nil => rfl
  | cons c rest ih =>
      by_cases hblank : isBlank c = true
      · have hstar : c ≠ '*' := by
          rintro rfl
          exact absurd hblank (by decide)
        rw [peelStars, if_neg hstar, if_pos (by simpa using hblank), ih, trimStart, trimStart,
          List.dropWhile_cons_of_pos hblank]
      · rw [trimStart, List.dropWhile_cons_of_neg hblank]
        simp [peelStars, hblank]

theorem peelStars_of_unstars {text core : List Char} {stars : Nat} (h : Unstars text stars core) :
    peelStars false text = (stars, core) := by
  induction h with
  | @done text h =>
      cases text with
      | nil => rfl
      | cons c rest =>
          have hstar : c ≠ '*' := fun hc => h (congrArg some hc)
          simp [peelStars, hstar]
  | star _ ih => simp [peelStars, peelStars_true, ih]

theorem exists_unstars (text : List Char) : ∃ stars core, Unstars text stars core := by
  by_cases hstar : text.head? = some '*'
  · obtain ⟨rest, rfl⟩ := List.head?_eq_some_iff.1 hstar
    obtain ⟨stars, core, h⟩ := exists_unstars (trimStart rest)
    exact ⟨stars + 1, core, .star h⟩
  · exact ⟨0, text, .done hstar⟩
termination_by text.length
decreasing_by
  subst_vars
  have := (List.dropWhile_suffix (l := rest) isBlank).length_le
  rw [trimStart, List.length_cons]
  omega

/-- Before a mark the blanks are skipped. -/
theorem peelMarkers_true (reversed : List Char) :
    peelMarkers true reversed = peelMarkers false (trimStart reversed) := by
  induction reversed with
  | nil => rfl
  | cons c rest ih =>
      by_cases hblank : isBlank c = true
      · have hmark : c ≠ '*' ∧ c ≠ '&' := by
          constructor
          all_goals
            rintro rfl
            exact absurd hblank (by decide)
        rw [peelMarkers, if_neg hmark.1, if_neg hmark.2, if_pos (by simpa using hblank), ih, trimStart,
          trimStart, List.dropWhile_cons_of_pos hblank]
        exact fun _ hc _ => hmark.2 hc
      · rw [trimStart, List.dropWhile_cons_of_neg hblank]
        unfold peelMarkers
        split <;> simp_all

theorem peelMarkers_spelling {marker : Marker} {reversed : List Char}
    (hlongest : marker = .lvalue → reversed.head? ≠ some '&') :
    peelMarkers false (marker.spelling ++ reversed) =
      (marker :: (peelMarkers true reversed).1, (peelMarkers true reversed).2) := by
  cases marker with
  | star => rfl
  | rvalue => rfl
  | lvalue =>
      cases reversed with
      | nil => rfl
      | cons c rest =>
          have hc : c ≠ '&' := fun hc => hlongest rfl (congrArg some hc)
          show peelMarkers false ('&' :: c :: rest) = _
          rw [peelMarkers]
          · rfl
          · rintro _ - heq
            exact hc (List.cons.inj heq).1

theorem peelMarkers_of_unmarks {text core : List Char} {markers : List Marker}
    (h : Unmarks text markers core) : peelMarkers false text.reverse = (markers, core.reverse) := by
  induction h with
  | @done text h =>
      rw [List.getLast?_eq_head?_reverse] at h
      cases hreverse : text.reverse with
      | nil => rfl
      | cons c rest =>
          rw [hreverse] at h
          have hmark := h c rfl
          rw [not_or] at hmark
          rw [peelMarkers, if_neg hmark.1, if_neg hmark.2]
          · rfl
          · exact fun _ hc _ => hmark.2 hc
  | @mark text core marker markers hlongest _ ih =>
      have hspelling : marker.spelling.reverse = marker.spelling := by cases marker <;> rfl
      rw [trimEnd, List.reverse_reverse] at ih
      rw [List.getLast?_eq_head?_reverse] at hlongest
      rw [List.reverse_append, hspelling, peelMarkers_spelling hlongest, peelMarkers_true, trimStart, ih]

theorem exists_unmarks (text : List Char) : ∃ markers core, Unmarks text markers core := by
  by_cases hstar : text.getLast? = some '*'
  · obtain ⟨init, rfl⟩ := List.getLast?_eq_some_iff.1 hstar
    obtain ⟨markers, core, h⟩ := exists_unmarks (trimEnd init)
    have hmark : Unmarks (init ++ Marker.star.spelling) (.star :: markers) core := .mark nofun h
    exact ⟨_, core, hmark⟩
  by_cases hamp : text.getLast? = some '&'
  · obtain ⟨init, rfl⟩ := List.getLast?_eq_some_iff.1 hamp
    by_cases hsecond : init.getLast? = some '&'
    · obtain ⟨init, rfl⟩ := List.getLast?_eq_some_iff.1 hsecond
      obtain ⟨markers, core, h⟩ := exists_unmarks (trimEnd init)
      have hmark : Unmarks (init ++ Marker.rvalue.spelling) (.rvalue :: markers) core := .mark nofun h
      rw [List.append_assoc]
      exact ⟨_, core, hmark⟩
    · obtain ⟨markers, core, h⟩ := exists_unmarks (trimEnd init)
      have hmark : Unmarks (init ++ Marker.lvalue.spelling) (.lvalue :: markers) core :=
        .mark (fun _ => hsecond) h
      exact ⟨_, core, hmark⟩
  · refine ⟨[], text, .done ?_⟩
    rintro c hc (rfl | rfl)
    · exact hstar hc
    · exact hamp hc
termination_by text.length
decreasing_by
  all_goals
    subst_vars
    have := (List.dropWhile_suffix (l := init.reverse) isBlank).length_le
    simp only [trimEnd, List.length_reverse, List.length_append, List.length_cons] at this ⊢
    omega

/-- A text is taken apart into what the strips leave of it. -/
theorem strips_iff {text : String} {fragment : Fragment} :
    Strips text.toList fragment ↔ ofString text = fragment := by
  have hof {fragment : Fragment} (h : Strips text.toList fragment) : ofString text = fragment := by
    obtain ⟨unstarred, hstars, hmarks⟩ := h
    simp only [ofString, peelStars_of_unstars hstars, peelMarkers_of_unmarks hmarks]
    simp
  refine ⟨hof, ?_⟩
  rintro rfl
  obtain ⟨stars, unstarred, hstars⟩ := exists_unstars text.toList
  obtain ⟨markers, core, hmarks⟩ := exists_unmarks unstarred
  have hstrips : Strips text.toList ⟨stars, String.ofList core, markers⟩ :=
    ⟨unstarred, hstars, by simpa using hmarks⟩
  rwa [hof hstrips]

theorem strips_ofString (text : String) : Strips text.toList (ofString text) :=
  strips_iff.2 rfl

/-! ### What is stripped off -/

/-- The marks that are stripped off, in the order they are written. -/
def marks (fragment : Fragment) : List Char :=
  List.replicate fragment.leadingStars '*' ++ fragment.markers.reverse.flatMap Marker.spelling

/-- The stars among the marks are those that are counted. -/
theorem count_star_marks (fragment : Fragment) : fragment.marks.count '*' = fragment.stars := by
  have hmarkers (markers : List Marker) :
      (markers.flatMap Marker.spelling).count '*' = markers.count .star := by
    induction markers with
    | nil => rfl
    | cons marker markers ih =>
        rw [List.flatMap_cons, List.count_append, ih]
        cases marker with
        | star => rw [List.count_cons_self, Nat.add_comm]; rfl
        | lvalue => rw [List.count_cons_of_ne (by decide)]; exact Nat.zero_add _
        | rvalue => rw [List.count_cons_of_ne (by decide)]; exact Nat.zero_add _
  rw [marks, List.count_append, List.count_replicate_self, hmarkers, List.count_reverse, stars]

/-- The ampersands among the marks are those of the reference markers. -/
theorem ampersand_mem_marks {fragment : Fragment} :
    '&' ∈ fragment.marks ↔ ∃ marker ∈ fragment.markers, marker ≠ .star := by
  have hspelling (marker : Marker) : '&' ∈ marker.spelling ↔ marker ≠ .star := by
    cases marker <;> decide
  simp [marks, List.mem_replicate, hspelling]

theorem filter_takeWhile_isBlank (text : List Char) :
    (text.takeWhile isBlank).filter (!isBlank ·) = [] := by
  rw [List.filter_eq_nil_iff]
  intro c hc
  simpa using List.mem_takeWhile_imp hc

theorem Unstars.exists_append {text core : List Char} {stars : Nat} (h : Unstars text stars core) :
    ∃ front, text = front ++ core ∧ front.filter (!isBlank ·) = List.replicate stars '*' := by
  induction h with
  | done => exact ⟨[], rfl, rfl⟩
  | @star text core stars _ ih =>
      obtain ⟨front, hfront, hstars⟩ := ih
      refine ⟨'*' :: (text.takeWhile isBlank ++ front), ?_, ?_⟩
      · rw [List.cons_append, List.append_assoc, ← hfront, Text.takeWhile_append_trimStart]
      · rw [List.filter_cons_of_pos (by decide), List.filter_append, filter_takeWhile_isBlank, hstars]
        rfl

theorem Unmarks.exists_append {text core : List Char} {markers : List Marker}
    (h : Unmarks text markers core) :
    ∃ back, text = core ++ back ∧
      back.filter (!isBlank ·) = markers.reverse.flatMap Marker.spelling := by
  induction h with
  | done => exact ⟨[], (List.append_nil _).symm, rfl⟩
  | @mark text core marker markers _ _ ih =>
      obtain ⟨back, hback, hmarks⟩ := ih
      have hspelling : marker.spelling.filter (!isBlank ·) = marker.spelling := by
        cases marker <;> rfl
      have htext : text = trimEnd text ++ (text.reverse.takeWhile isBlank).reverse := by
        rw [trimEnd, ← List.reverse_append, List.takeWhile_append_dropWhile, List.reverse_reverse]
      refine ⟨back ++ (text.reverse.takeWhile isBlank).reverse ++ marker.spelling, ?_, ?_⟩
      · rw [← List.append_assoc, ← List.append_assoc, ← hback, ← htext]
      · rw [List.filter_append, List.filter_append, List.filter_reverse, filter_takeWhile_isBlank,
          hmarks, hspelling]
        simp

/-- No mark is left at the end. -/
theorem Unmarks.not_mark {text core : List Char} {markers : List Marker} (h : Unmarks text markers core) :
    ∀ c ∈ core.getLast?, ¬(c = '*' ∨ c = '&') := by
  induction h with
  | done h => exact h
  | mark _ _ ih => exact ih

/-- If a text ends in marks, and neither a mark nor a blank stands before them, just these come off. -/
theorem Unmarks.core_eq {body run core : List Char} {markers : List Marker}
    (h : Unmarks (body ++ run) markers core) (hrun : ∀ c ∈ run, c = '*' ∨ c = '&')
    (hlast : ∀ c ∈ body.getLast?, ¬(c = '*' ∨ c = '&') ∧ isBlank c = false) : core = body := by
  obtain ⟨back, hback, hmarks⟩ := h.exists_append
  rcases List.append_eq_append_iff.1 hback with ⟨more, hcore, hmore⟩ | ⟨more, hbody, hmore⟩
  · -- A longer core would end in one of the marks.
    obtain rfl | ⟨init, c, rfl⟩ := List.eq_nil_or_concat' more
    · simpa using hcore
    · refine absurd (hrun c ?_) (h.not_mark c ?_)
      · simp [hmore]
      · simp [hcore]
  · -- A longer body would end in a character that comes off.
    obtain rfl | ⟨init, c, rfl⟩ := List.eq_nil_or_concat' more
    · simpa using hbody.symm
    · obtain ⟨hmark, hblank⟩ := hlast c (by simp [hbody])
      have hmem : c ∈ markers.reverse.flatMap Marker.spelling := by
        rw [← hmarks]
        exact List.mem_filter.2 ⟨by simp [hmore], by simpa using hblank⟩
      obtain ⟨marker, -, hmarker⟩ := List.mem_flatMap.1 hmem
      exact absurd (Marker.mem_spelling hmarker) hmark

/-- No star is left in front. -/
theorem Unstars.head?_ne {text core : List Char} {stars : Nat} (h : Unstars text stars core) :
    core.head? ≠ some '*' := by
  induction h with
  | done h => exact h
  | star _ ih => exact ih

theorem Unstars.eq_of_head?_ne {text core : List Char} {stars : Nat} (h : Unstars text stars core)
    (hhead : text.head? ≠ some '*') : core = text := by
  cases h with
  | done => rfl
  | star => exact absurd rfl hhead

section Strips

variable {text : List Char} {fragment : Fragment}

theorem Strips.not_mark (h : Strips text fragment) :
    ∀ c ∈ fragment.core.toList.getLast?, ¬(c = '*' ∨ c = '&') := by
  obtain ⟨unstarred, -, hmarks⟩ := h
  exact hmarks.not_mark

theorem Strips.head?_ne (h : Strips text fragment) : fragment.core.toList.head? ≠ some '*' := by
  obtain ⟨unstarred, hstars, hmarks⟩ := h
  obtain ⟨back, hback, -⟩ := hmarks.exists_append
  intro hhead
  apply hstars.head?_ne
  rw [hback, List.head?_append, hhead]
  rfl

/-- Nothing but blanks and the marks that are counted is stripped off. -/
theorem Strips.exists_append (h : Strips text fragment) :
    ∃ front back, text = front ++ (fragment.core.toList ++ back) ∧
      (front ++ back).filter (!isBlank ·) = fragment.marks := by
  obtain ⟨unstarred, hstars, hmarks⟩ := h
  obtain ⟨front, rfl, hfront⟩ := hstars.exists_append
  obtain ⟨back, rfl, hback⟩ := hmarks.exists_append
  exact ⟨front, back, rfl, by rw [List.filter_append, hfront, hback, marks]⟩

/-- Every character but a blank is in the core or among the marks. -/
theorem Strips.count (h : Strips text fragment) {c : Char} (hc : isBlank c = false) :
    text.count c = fragment.marks.count c + fragment.core.toList.count c := by
  obtain ⟨front, back, rfl, hmarks⟩ := h.exists_append
  rw [← hmarks, List.count_filter (by simpa using hc)]
  simp only [List.count_append]
  omega

/-- The core of a text that ends in marks is what stands before them, unless that begins with a star
or ends in a mark or a blank. -/
theorem Strips.core_eq {body run : List Char} (h : Strips (body ++ run) fragment)
    (hrun : ∀ c ∈ run, c = '*' ∨ c = '&') (hhead : body.head? ≠ some '*')
    (hlast : ∀ c ∈ body.getLast?, ¬(c = '*' ∨ c = '&') ∧ isBlank c = false) :
    fragment.core.toList = body := by
  obtain ⟨unstarred, hstars, hmarks⟩ := h
  by_cases hbody : body = []
  · -- What the stars leave of nothing but marks is nothing but marks.
    subst hbody
    obtain ⟨front, hfront, -⟩ := hstars.exists_append
    have hunstarred : ∀ c ∈ unstarred, c = '*' ∨ c = '&' := by
      intro c hc
      apply hrun c
      rw [← List.nil_append run, hfront]
      exact List.mem_append_right front hc
    have hall : Unmarks ([] ++ unstarred) fragment.markers fragment.core.toList := hmarks
    exact hall.core_eq hunstarred nofun
  · -- No star comes off the front.
    obtain rfl : unstarred = body ++ run := by
      apply hstars.eq_of_head?_ne
      rwa [List.head?_append_of_ne_nil body hbody]
    exact hmarks.core_eq hrun hlast

end Strips

end Fragment
end CType
end ExportIndex
