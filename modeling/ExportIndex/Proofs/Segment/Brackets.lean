import ExportIndex.Proofs.Comment.Outside
import ExportIndex.Proofs.Segment.Pieces

/-!
# Brackets outside comments

The two counters of a segment start at zero in every segment.  What they say about the text can be
counted in its characters outside comments.

* `Brackets.of_run` — each counter is the number of brackets that were opened and not closed outside
  comments, so that `nesting` is zero just behind a text that is `IsBalanced`.
* `Run.whole` — a run leaves no comment open.
* `Run.exists_of_mem` — every character outside comments was a step of the run, from the segment that
  the text before it leads to.
* `pieces_uncommented_eq_nil_iff` — a run makes no token exactly if it passes only blanks and comments.
-/

namespace ExportIndex
namespace Segment

open Comment (outside plain Whole)
open Text (isBlank)

/-- As many angle brackets close in a text as open, and as many parentheses. -/
def IsBalanced (text : List Char) : Prop :=
  text.count '<' = text.count '>' ∧ text.count '(' = text.count ')'

instance (text : List Char) : Decidable (IsBalanced text) :=
  inferInstanceAs (Decidable (_ ∧ _))

theorem IsBalanced.append {text more : List Char} (h : IsBalanced text) :
    IsBalanced (text ++ more) ↔ IsBalanced more := by
  obtain ⟨hangle, hparen⟩ := h
  simp only [IsBalanced, List.count_append]
  omega

variable {part : Part} {s s' : Segment} {text seen : List Char}

/-! ### The counters of a segment -/

theorem Brackets.empty : Brackets .empty [] :=
  ⟨rfl, rfl⟩

/-- No bracket is open exactly behind a balanced text. -/
theorem Brackets.balanced_iff (h : Brackets s text) : IsBalanced text ↔ s.nesting = 0 := by
  have hangle := h.angle
  have hparen := h.paren
  unfold IsBalanced nesting
  omega

/-- Each bracket counts one up or one down, and no counter is at zero when it is to go down. -/
theorem Advance.counts {c : Char} (h : Advance part s c s') :
    s'.angle + [c].count '>' = s.angle + [c].count '<' ∧
      s'.paren + [c].count ')' = s.paren + [c].count '(' := by
  have hplain {t : Segment} {c : Char} (hc : c ≠ '<' ∧ c ≠ '>' ∧ c ≠ '(' ∧ c ≠ ')')
      (hangle : t.angle = s.angle) (hparen : t.paren = s.paren) :
      t.angle + [c].count '>' = s.angle + [c].count '<' ∧
        t.paren + [c].count ')' = s.paren + [c].count '(' := by
    obtain ⟨hless, hgreater, hopen, hclose⟩ := hc
    simp [hangle, hparen, hless, hgreater, hopen, hclose]
  cases h with
  | blank hblank =>
      have hc := not_bracket_of_isBlank hblank
      unfold pushBlank
      split
      · exact hplain hc (angle_flush s) (paren_flush s)
      · exact hplain hc rfl rfl
  | openAngle => exact ⟨rfl, rfl⟩
  | closeAngle hangle => exact ⟨hangle.symm, rfl⟩
  | openParen _ => exact ⟨rfl, rfl⟩
  | closeParen hparen => exact ⟨rfl, hparen.symm⟩
  | marker hmarker _ =>
      exact hplain (not_bracket_of_isMarker hmarker) (angle_reopen s) (paren_reopen s)
  | ordinary _ hc _ _ =>
      unfold pushOrdinary
      split
      · exact hplain hc.2 (angle_flush s) (paren_flush s)
      · exact hplain hc.2 rfl rfl

theorem Brackets.of_advance (h : Brackets s seen) {c : Char} (hadvance : Advance part s c s') :
    Brackets s' (seen ++ [c]) := by
  obtain ⟨hangle, hparen⟩ := hadvance.counts
  exact h.concat hangle hparen

theorem Brackets.absorb (h : Brackets s seen) (body : List Char) : Brackets (s.absorb body) seen := by
  unfold Segment.absorb beforeComment
  split
  · exact ⟨(angle_flush s).symm ▸ h.angle, (paren_flush s).symm ▸ h.paren⟩
  · exact ⟨h.angle, h.paren⟩

/-- Behind a run the brackets are those of the characters that it passes outside comments. -/
theorem Brackets.of_run (h : Brackets s seen) (hrun : Run part s text s') :
    Brackets s' (seen ++ Comment.plain text) := by
  induction hrun generalizing seen with
  | refl => simpa using h
  | move hmove _ ih =>
      cases hmove with
      | char hadvance =>
          rw [List.singleton_append, Comment.plain_cons hadvance.ne_slash, List.append_cons]
          exact ih (h.of_advance hadvance)
      | @comment body hbody =>
          rw [(Comment.whole_comment hbody).plain_append, Comment.plain_comment hbody,
            List.nil_append]
          exact ih (h.absorb body)

/-- A text that is read through is balanced exactly if no bracket is open behind it. -/
theorem Run.balanced_iff (h : Run part .empty text s) : IsBalanced (plain text) ↔ s.nesting = 0 :=
  (Brackets.empty.of_run h).balanced_iff

/-! ### The places of a run -/

theorem Move.whole (h : Move part s text s') : Whole text := by
  cases h with
  | char hadvance => exact Comment.whole_char hadvance.ne_slash
  | comment hbody => exact Comment.whole_comment hbody

/-- A run leaves no comment open. -/
theorem Run.whole (h : Run part s text s') : Whole text := by
  induction h with
  | refl => exact Comment.whole_nil
  | move hmove _ ih => exact hmove.whole.append ih

/-- Every character outside comments was a step of the run. -/
theorem Run.exists_of_mem (h : Run part s text s') {index i : Nat} {c : Char}
    (hmem : (i, c) ∈ outside index text) :
    ∃ before after s₁ s₂, text = before ++ c :: after ∧ i = index + before.length ∧
      Run part s before s₁ ∧ Advance part s₁ c s₂ := by
  induction h generalizing index with
  | refl =>
      rw [outside] at hmem
      simp at hmem
  | @move s s₁ s' move rest hmove _ ih =>
      have hfurther (hrest : (i, c) ∈ outside (index + move.length) rest) :
          ∃ before after s₁ s₂, move ++ rest = before ++ c :: after ∧ i = index + before.length ∧
            Run part s before s₁ ∧ Advance part s₁ c s₂ := by
        obtain ⟨before, after, s₂, s₃, rfl, rfl, hrun, hadvance⟩ := ih hrest
        exact ⟨move ++ before, after, s₂, s₃, by simp, by simp [Nat.add_assoc], .move hmove hrun,
          hadvance⟩
      cases hmove with
      | char hadvance =>
          rw [List.singleton_append, Comment.outside_cons index hadvance.ne_slash] at hmem
          rcases List.mem_cons.1 hmem with heq | hrest
          · obtain ⟨rfl, rfl⟩ := Prod.mk.inj heq
            exact ⟨[], rest, s, s₁, rfl, rfl, .refl s, hadvance⟩
          · exact hfurther hrest
      | comment hbody =>
          rw [Comment.outside_comment index hbody] at hmem
          exact hfurther hmem

/-! ### Brackets and commas that a segment goes on behind -/

/-- A head goes on behind an opening parenthesis only inside brackets, and a bracket is open then. -/
theorem Advance.of_opening (h : Advance part s '(' s') :
    ¬(part = .head ∧ s.nesting = 0) ∧ s'.nesting ≠ 0 := by
  cases h with
  | blank hblank => exact absurd hblank (by decide)
  | openParen hinner => exact ⟨hinner, Nat.succ_ne_zero _⟩
  | marker hmarker _ => exact absurd hmarker (by decide)
  | ordinary _ hplain _ _ => exact absurd rfl hplain.2.2.2.1

theorem Advance.nesting_ne_of_comma (h : Advance .parameters s ',' s') : s.nesting ≠ 0 := by
  cases h with
  | blank hblank => exact absurd hblank (by decide)
  | marker hmarker _ => exact absurd hmarker (by decide)
  | ordinary _ _ hcomma _ => exact fun htop => hcomma rfl ⟨rfl, htop⟩

theorem Advance.paren_ne_of_closing (h : Advance part s ')' s') : s.paren ≠ 0 := by
  cases h with
  | blank hblank => exact absurd hblank (by decide)
  | closeParen hparen => omega
  | marker hmarker _ => exact absurd hmarker (by decide)
  | ordinary _ hplain _ _ => exact absurd rfl hplain.2.2.2.2

/-! ### Texts without tokens -/

/-- A text has no pieces exactly if it has only blanks. -/
theorem pieces_eq_nil_iff (text : List Char) : pieces text = [] ↔ ∀ c ∈ text, isBlank c = true := by
  have hkept : pieces text = [] ↔ ∀ p ∈ positions text, p.isGap = true := by
    rw [pieces, List.map_eq_nil_iff, List.splitBy_eq_nil, kept, List.filter_eq_nil_iff]
    simp
  rw [hkept]
  constructor
  · intro hgaps c hc
    obtain ⟨i, hi, rfl⟩ := List.getElem_of_mem hc
    have hgap := hgaps _ (List.mem_mapIdx.2 ⟨i, hi, rfl⟩)
    rw [Position.isGap, Bool.and_eq_true] at hgap
    exact hgap.1
  · intro hblank p hp
    obtain ⟨i, hi, rfl⟩ := List.mem_mapIdx.1 hp
    -- Among blanks no bracket is ever open.
    have hnone {bracket : Char} (hbracket : isBlank bracket = false) :
        (text.take (i + 1)).count bracket = 0 := by
      rw [List.count_eq_zero]
      intro hmem
      have := hblank bracket (List.mem_of_mem_take hmem)
      simp [hbracket] at this
    have hopen : openBrackets (text.take (i + 1)) = 0 := by
      rw [openBrackets, hnone (by decide : isBlank '<' = false),
        hnone (by decide : isBlank '(' = false), Nat.zero_sub, Nat.zero_sub]
    rw [Position.isGap, hblank _ (List.getElem_mem hi), hopen]
    rfl

theorem blank_uncommentedFrom_iff (h : Run part s text s') (seen : List Char) :
    (∀ c ∈ uncommentedFrom seen text, isBlank c = true) ↔
      (∀ c ∈ seen, isBlank c = true) ∧ ∀ c ∈ plain text, isBlank c = true := by
  have hspace : isBlank ' ' = true := by decide
  induction h generalizing seen with
  | refl =>
      rw [uncommentedFrom]
      simp
  | move hmove _ ih =>
      cases hmove with
      | char hadvance =>
          rw [List.singleton_append, uncommentedFrom_char seen hadvance.ne_slash,
            Comment.plain_cons hadvance.ne_slash]
          refine (ih _).trans ?_
          simp [or_imp, forall_and, and_assoc]
      | comment hbody =>
          rw [uncommentedFrom_comment seen hbody, (Comment.whole_comment hbody).plain_append,
            Comment.plain_comment hbody, List.nil_append]
          refine (ih _).trans ?_
          split
          · simp [or_imp, forall_and, hspace]
          · rfl

/-- A run makes no token exactly if it passes only blanks and comments. -/
theorem pieces_uncommented_eq_nil_iff (h : Run part s text s') :
    pieces (uncommented text) = [] ↔ ∀ c ∈ plain text, isBlank c = true := by
  rw [pieces_eq_nil_iff, uncommented, blank_uncommentedFrom_iff h]
  simp

end Segment
end ExportIndex
