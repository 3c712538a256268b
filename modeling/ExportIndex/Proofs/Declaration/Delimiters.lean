import ExportIndex.Proofs.Declaration.Pieces
import ExportIndex.Proofs.Segment.Brackets

/-!
# The delimiters of a declaration

A scan counts brackets from zero in every segment.  The delimiters it stops at can be told without
that, by counting in the whole declaration.

* `isOpening`, `isClosing` and `isSeparator` tell a delimiter by the brackets before it; `opening?`,
  `closing?` and `separators` pick the delimiters among the characters outside comments, and `slotsAt`
  is what the separators leave of the parameter list.
* `IsSegment.count_lt_of_mem`, `IsSegment.not_balanced_of_mem` — inside a segment no parenthesis and no
  comma stands where a delimiter could.
* `opening?_eq`, `closing?_eq`, `separators_eq` and `slotsAt_eq` — of a text made of a head and slots
  these are the delimiters and the slots.
* `scan_delimiters` — a scan finds exactly these delimiters, and nothing where one of several slots is
  blank.
-/

namespace ExportIndex
namespace Declaration

open Comment (outside plain Whole)
open Segment (Advance Brackets IsBalanced pieces uncommented)
open Text (isBlank)

/-! ### Delimiters by counting -/

/-- An opening parenthesis before which all from `start` on is balanced. -/
def isOpening (text : List Char) (start : Nat) (p : Nat × Char) : Bool :=
  p.2 = '(' ∧ IsBalanced (plain (text.extract start p.1))

/-- A closing parenthesis behind `opening`, with as many parentheses closed as opened from `opening`
through it. -/
def isClosing (text : List Char) (opening : Nat) (p : Nat × Char) : Bool :=
  opening < p.1 ∧ p.2 = ')' ∧
    (plain (text.extract opening (p.1 + 1))).count '(' =
      (plain (text.extract opening (p.1 + 1))).count ')'

/-- A comma before which all from `first` on is balanced. -/
def isSeparator (text : List Char) (first : Nat) (p : Nat × Char) : Bool :=
  p.2 = ',' ∧ IsBalanced (plain (text.extract first p.1))

/-- The opening parenthesis of the parameter list: the first one outside comments, from `start` on. -/
def opening? (text : List Char) (start : Nat) : Option Nat :=
  ((outside start (text.drop start)).find? (isOpening text start)).map Prod.fst

/-- The closing parenthesis of the list that opens at `opening`: the first one outside comments. -/
def closing? (text : List Char) (start opening : Nat) : Option Nat :=
  ((outside start (text.drop start)).find? (isClosing text opening)).map Prod.fst

/-- The commas outside comments that separate the slots between `opening` and `closing`. -/
def separators (text : List Char) (start opening closing : Nat) : List Nat :=
  ((outside start (text.drop start)).filter fun p =>
    decide (opening < p.1 ∧ p.1 < closing) && isSeparator text (opening + 1) p).map Prod.fst

/-- What the given indices leave of a text from `first` up to `last`. -/
def stretches (text : List Char) (first : Nat) : List Nat → Nat → List (List Char)
  | [], last => [text.extract first last]
  | cut :: cuts, last => text.extract first cut :: stretches text (cut + 1) cuts last

/-- The slots between `opening` and `closing`. -/
def slotsAt (text : List Char) (start opening closing : Nat) : List (List Char) :=
  stretches text (opening + 1) (separators text start opening closing) closing

/-- Nothing but blanks and comments. -/
def IsBlankText (text : List Char) : Prop :=
  ∀ c ∈ plain text, isBlank c = true

instance (text : List Char) : Decidable (IsBlankText text) :=
  List.decidableBAll _ _

/-- The tokens of all slots, in their order. -/
def tokensOf (slots : List (List Char)) : List String :=
  slots.flatMap fun slot => pieces (uncommented slot)

/-- The declaration that starts at `start` has the given delimiters.  A list that is blank or has the
only token `void` stands for no parameters; any other has a parameter for each slot. -/
structure DelimitedAt (declaration : Declaration) (text : List Char)
    (start opening closing : Nat) : Prop where
  opens : opening? text start = some opening
  closes : closing? text start opening = some closing
  angles : (plain (text.extract (opening + 1) closing)).count '<' =
    (plain (text.extract (opening + 1) closing)).count '>'
  head : Spells .head (text.extract start opening) declaration.name declaration.returnType
  empty : IsBlankText (text.extract (opening + 1) closing) ∨
    tokensOf (slotsAt text start opening closing) = ["void"] → declaration.parameters = []
  each : ¬IsBlankText (text.extract (opening + 1) closing) →
    tokensOf (slotsAt text start opening closing) ≠ ["void"] →
      declaration.parameters.length = (separators text start opening closing).length + 1 ∧
        List.Forall₂ (fun slot parameter => Spells .parameters slot parameter.name parameter.type)
          (slotsAt text start opening closing) declaration.parameters

/-! ### Inside a segment -/

variable {part : Part} {segment : List Char} {index i : Nat}

theorem IsSegment.whole (h : IsSegment part segment) : Whole segment := by
  obtain ⟨s, hrun, -⟩ := h
  exact hrun.whole

theorem IsSegment.balanced (h : IsSegment part segment) : IsBalanced (plain segment) := by
  obtain ⟨s, hrun, htop⟩ := h
  exact hrun.balanced_iff.2 htop

/-- A character that a segment goes on behind only inside brackets stands where the text before it is
not balanced. -/
theorem IsSegment.not_balanced_of_mem (h : IsSegment part segment) {c : Char}
    (hc : ∀ s s', Advance part s c s' → s.nesting ≠ 0) (hmem : (i, c) ∈ outside index segment) :
    ∃ before after, segment = before ++ c :: after ∧ i = index + before.length ∧ Whole before ∧
      ¬IsBalanced (plain before) := by
  obtain ⟨s, hrun, -⟩ := h
  obtain ⟨before, after, s₁, s₂, rfl, rfl, hbefore, hadvance⟩ := hrun.exists_of_mem hmem
  refine ⟨before, after, rfl, rfl, hbefore.whole, ?_⟩
  rw [hbefore.balanced_iff]
  exact hc s₁ s₂ hadvance

/-- Every closing parenthesis of a segment closes one of the segment. -/
theorem IsSegment.count_lt_of_mem (h : IsSegment part segment) (hmem : (i, ')') ∈ outside index segment) :
    ∃ before after, segment = before ++ ')' :: after ∧ i = index + before.length ∧ Whole before ∧
      (plain before).count ')' < (plain before).count '(' := by
  obtain ⟨s, hrun, -⟩ := h
  obtain ⟨before, after, s₁, s₂, rfl, rfl, hbefore, hadvance⟩ := hrun.exists_of_mem hmem
  refine ⟨before, after, rfl, rfl, hbefore.whole, ?_⟩
  have hparen : s₁.paren + (plain before).count ')' = (plain before).count '(' :=
    (Brackets.empty.of_run hbefore).paren
  have hopen : s₁.paren ≠ 0 := hadvance.paren_ne_of_closing
  omega

/-! ### Inside a list of slots -/

/-- The indices of the commas between slots, counted from `index` on. -/
def commas (index : Nat) : List (List Char) → List Nat
  | [] => []
  | [_] => []
  | slot :: next :: slots => (index + slot.length) :: commas (index + slot.length + 1) (next :: slots)

theorem length_commas (index : Nat) (slots : List (List Char)) :
    (commas index slots).length = slots.length - 1 := by
  fun_induction commas index slots with
  | case1 => rfl
  | case2 => rfl
  | case3 index slot next slots ih =>
      rw [List.length_cons, ih]
      rfl

variable {slots : List (List Char)} {text head rest : List Char} {start : Nat}

theorem whole_intercalate (h : ∀ slot ∈ slots, IsSegment .parameters slot) :
    Whole ([','].intercalate slots) ∧ IsBalanced (plain ([','].intercalate slots)) := by
  induction slots with
  | nil => exact ⟨Comment.whole_nil, by simp [IsBalanced]⟩
  | cons slot slots ih =>
      obtain ⟨hslot, hmore⟩ := List.forall_mem_cons.1 h
      by_cases hlast : slots = []
      · simpa [hlast] using ⟨hslot.whole, hslot.balanced⟩
      · obtain ⟨hwhole, hbalanced⟩ := ih hmore
        have hcomma : Whole (slot ++ [',']) := hslot.whole.append (Comment.whole_char (by decide))
        rw [List.intercalate_cons_of_ne_nil hlast]
        refine ⟨hcomma.append hwhole, ?_⟩
        rw [hcomma.plain_append, hslot.whole.plain_append, List.append_assoc, hslot.balanced.append]
        exact (IsBalanced.append (by decide +kernel)).2 hbalanced

/-- Every closing parenthesis of a list of slots closes one of the list. -/
theorem count_lt_of_mem_intercalate (h : ∀ slot ∈ slots, IsSegment .parameters slot)
    (hmem : (i, ')') ∈ outside index ([','].intercalate slots)) :
    ∃ before after, [','].intercalate slots = before ++ ')' :: after ∧ i = index + before.length ∧
      Whole before ∧ (plain before).count ')' < (plain before).count '(' := by
  induction slots generalizing index with
  | nil =>
      rw [List.intercalate_nil, outside] at hmem
      simp at hmem
  | cons slot slots ih =>
      obtain ⟨hslot, hmore⟩ := List.forall_mem_cons.1 h
      by_cases hlast : slots = []
      · subst hlast
        rw [List.intercalate_singleton] at hmem ⊢
        exact hslot.count_lt_of_mem hmem
      · rw [List.intercalate_cons_of_ne_nil hlast, List.append_assoc, hslot.whole, List.mem_append,
          List.singleton_append, Comment.outside_cons _ (by decide), List.mem_cons] at hmem
        rw [List.intercalate_cons_of_ne_nil hlast]
        rcases hmem with hmem | hmem | hmem
        · obtain ⟨before, after, rfl, rfl, hbefore⟩ := hslot.count_lt_of_mem hmem
          exact ⟨before, after ++ [','] ++ [','].intercalate slots, by simp, rfl, hbefore⟩
        · simp at hmem
        · -- The slot in front is balanced and adds nothing to the count.
          obtain ⟨before, after, hbefore, rfl, hwhole, hcount⟩ := ih hmore hmem
          have hcomma : Whole (slot ++ [',']) := hslot.whole.append (Comment.whole_char (by decide))
          refine ⟨slot ++ [','] ++ before, after, by simp [hbefore], ?_, hcomma.append hwhole, ?_⟩
          · simp
            omega
          have hparens := hslot.balanced.2
          rw [hcomma.plain_append, hslot.whole.plain_append, Comment.plain_cons (by decide)]
          simp
          omega

/-! ### Stretches of a text -/

theorem drop_behind {first : Nat} {before after : List Char} (h : text.drop first = before ++ after) :
    text.drop (first + before.length) = after := by
  rw [← List.drop_drop, h, List.drop_left]

theorem extract_eq {first last : Nat} {before after : List Char}
    (h : text.drop first = before ++ after) (hlast : last = first + before.length) :
    text.extract first last = before := by
  rw [List.extract_eq_take_drop, h, hlast, Nat.add_sub_cancel_left, List.take_left]

/-- Slots are what their commas leave of the list. -/
theorem stretches_commas (hne : slots ≠ []) {first : Nat}
    (h : text.drop first = [','].intercalate slots ++ rest) :
    stretches text first (commas first slots) (first + ([','].intercalate slots).length) = slots := by
  fun_induction commas first slots with
  | case1 => contradiction
  | case2 first slot =>
      rw [List.intercalate_singleton] at h ⊢
      rw [stretches, extract_eq h rfl]
  | case3 first slot next slots ih =>
      have hmore : next :: slots ≠ [] := List.cons_ne_nil next slots
      rw [List.intercalate_cons_of_ne_nil hmore, List.append_assoc, List.append_assoc] at h
      have hbehind : text.drop (first + slot.length + 1) = [','].intercalate (next :: slots) ++ rest :=
        drop_behind (drop_behind h)
      have hlast : first + ([','].intercalate (slot :: next :: slots)).length =
          first + slot.length + 1 + ([','].intercalate (next :: slots)).length := by
        rw [List.intercalate_cons_of_ne_nil hmore]
        simp
        omega
      rw [hlast, stretches, ih hmore hbehind, extract_eq h rfl]

/-- Inside a slot there is no separator; `passed` is what stands before the slot in the list. -/
theorem IsSegment.filter_isSeparator (h : IsSegment .parameters segment) {first : Nat}
    {passed after : List Char} (hpassed : Whole passed) (hbalanced : IsBalanced (plain passed))
    (htext : text.drop first = passed ++ (segment ++ after)) :
    (outside (first + passed.length) segment).filter (isSeparator text first) = [] := by
  rw [List.filter_eq_nil_iff]
  rintro ⟨i, c⟩ hmem hseparator
  obtain ⟨rfl, hextract⟩ := of_decide_eq_true hseparator
  obtain ⟨before, more, rfl, rfl, -, hunbalanced⟩ :=
    h.not_balanced_of_mem (fun _ _ hadvance => hadvance.nesting_ne_of_comma) hmem
  have hbehind : text.drop first = passed ++ before ++ (',' :: more ++ after) := by simpa using htext
  have hlast : first + passed.length + before.length = first + (passed ++ before).length := by
    rw [List.length_append, Nat.add_assoc]
  rw [extract_eq hbehind hlast, hpassed.plain_append, hbalanced.append] at hextract
  exact hunbalanced hextract

/-- The separators of a list are the commas between its slots; `passed` is what stands before them. -/
theorem filter_isSeparator (hslots : ∀ slot ∈ slots, IsSegment .parameters slot) {first : Nat}
    {passed : List Char} (hpassed : Whole passed) (hbalanced : IsBalanced (plain passed))
    (h : text.drop first = passed ++ ([','].intercalate slots ++ rest)) :
    ((outside (first + passed.length) ([','].intercalate slots)).filter
      (isSeparator text first)).map Prod.fst = commas (first + passed.length) slots := by
  induction slots generalizing passed with
  | nil =>
      rw [List.intercalate_nil, outside]
      rfl
  | cons slot slots ih =>
      obtain ⟨hslot, hmore⟩ := List.forall_mem_cons.1 hslots
      cases slots with
      | nil =>
          rw [List.intercalate_singleton] at h ⊢
          rw [hslot.filter_isSeparator hpassed hbalanced h]
          rfl
      | cons next slots =>
          have hne : next :: slots ≠ [] := List.cons_ne_nil next slots
          rw [List.intercalate_cons_of_ne_nil hne, List.append_assoc, List.append_assoc] at h
          -- The comma behind the slot is a separator, and the list goes on behind it.
          have hwhole : Whole (passed ++ slot) := hpassed.append hslot.whole
          have hslots : IsBalanced (plain (passed ++ slot)) := by
            rw [hpassed.plain_append, hbalanced.append]
            exact hslot.balanced
          have hextract : text.extract first (first + passed.length + slot.length) = passed ++ slot := by
            apply extract_eq
            · rw [h, ← List.append_assoc]
            · rw [List.length_append, Nat.add_assoc]
          have hcomma : isSeparator text first (first + passed.length + slot.length, ',') = true :=
            decide_eq_true ⟨rfl, hextract ▸ hslots⟩
          have hbehind : IsBalanced (plain (passed ++ slot ++ [','])) := by
            rw [hwhole.plain_append, hslots.append]
            decide +kernel
          have hrest := ih hmore (hwhole.append (Comment.whole_char (by decide))) hbehind
            (by simpa using h)
          have hlength : first + (passed ++ slot ++ [',']).length =
              first + passed.length + slot.length + 1 := by
            simp
            omega
          rw [hlength] at hrest
          rw [List.intercalate_cons_of_ne_nil hne, List.append_assoc, hslot.whole, List.filter_append,
            hslot.filter_isSeparator hpassed hbalanced h, List.nil_append, List.singleton_append,
            Comment.outside_cons _ (by decide), List.filter_cons_of_pos hcomma, List.map_cons, hrest,
            commas]

/-! ### The delimiters of a text that is taken apart -/

section Parts

variable (htext : text.drop start = head ++ '(' :: ([','].intercalate slots ++ ')' :: rest))
  (hhead : IsSegment .head head) (hslots : ∀ slot ∈ slots, IsSegment .parameters slot)

include htext hhead hslots

/-- The characters outside comments, part by part. -/
theorem outside_parts :
    outside start (text.drop start) = outside start head ++ (start + head.length, '(') ::
      (outside (start + head.length + 1) ([','].intercalate slots) ++
        (start + head.length + 1 + ([','].intercalate slots).length, ')') ::
          outside (start + head.length + 1 + ([','].intercalate slots).length + 1) rest) := by
  rw [htext, hhead.whole, Comment.outside_cons _ (by decide), (whole_intercalate hslots).1,
    Comment.outside_cons _ (by decide)]

omit hhead hslots in
theorem drop_list :
    text.drop (start + head.length + 1) = [','].intercalate slots ++ ')' :: rest := by
  have hopening : text.drop (start + head.length) = ['('] ++ ([','].intercalate slots ++ ')' :: rest) :=
    drop_behind htext
  exact drop_behind hopening

theorem opening?_eq : opening? text start = some (start + head.length) := by
  have hfirst : (outside start (text.drop start)).find? (isOpening text start) =
      some (start + head.length, '(') := by
    refine List.find?_eq_some_iff_append.2 ⟨?_, _, _, outside_parts htext hhead hslots, ?_⟩
    · simpa [isOpening, extract_eq htext rfl] using hhead.balanced
    · rintro ⟨i, c⟩ hmem
      rw [isOpening, Bool.not_eq_true', decide_eq_false_iff_not]
      rintro ⟨rfl, hbalanced⟩
      obtain ⟨before, after, rfl, rfl, -, hunbalanced⟩ :=
        hhead.not_balanced_of_mem (fun _ _ hadvance htop => hadvance.of_opening.1 ⟨rfl, htop⟩) hmem
      rw [List.append_assoc] at htext
      rw [extract_eq htext rfl] at hbalanced
      exact hunbalanced hbalanced
  rw [opening?, hfirst]
  rfl

omit hhead hslots in
/-- A closing parenthesis closes the list if all parentheses between are closed. -/
theorem isClosing_iff {before after : List Char}
    (hbefore : [','].intercalate slots ++ ')' :: rest = before ++ ')' :: after) (hwhole : Whole before) :
    isClosing text (start + head.length) (start + head.length + 1 + before.length, ')') = true ↔
      (plain before).count '(' = (plain before).count ')' := by
  have hopening : text.drop (start + head.length) = '(' :: (before ++ [')']) ++ after := by
    rw [drop_behind htext, hbefore]
    simp
  have hlast : start + head.length + 1 + before.length + 1 =
      start + head.length + ('(' :: (before ++ [')'])).length := by
    simp
    omega
  have hplain : plain ('(' :: (before ++ [')'])) = '(' :: (plain before ++ [')']) := by
    rw [Comment.plain_cons (by decide), hwhole.plain_append, Comment.plain_cons (by decide),
      Comment.plain_nil]
  rw [isClosing, decide_eq_true_eq, extract_eq hopening hlast, hplain]
  simp
  omega

theorem closing?_eq :
    closing? text start (start + head.length) =
      some (start + head.length + 1 + ([','].intercalate slots).length) := by
  obtain ⟨hwhole, hbalanced⟩ := whole_intercalate hslots
  have hparts := outside_parts htext hhead hslots
  rw [← List.cons_append, ← List.append_assoc] at hparts
  have hfirst : (outside start (text.drop start)).find? (isClosing text (start + head.length)) =
      some (start + head.length + 1 + ([','].intercalate slots).length, ')') := by
    refine List.find?_eq_some_iff_append.2 ⟨?_, _, _, hparts, ?_⟩
    · exact (isClosing_iff htext rfl hwhole).2 hbalanced.2
    · rintro ⟨i, c⟩ hmem
      rw [Bool.not_eq_true', ← Bool.not_eq_true]
      intro hclosing
      obtain ⟨hbehind, rfl, -⟩ := of_decide_eq_true hclosing
      rw [List.mem_append, List.mem_cons] at hmem
      rcases hmem with hmem | hmem | hmem
      · have := Comment.index_of_mem_outside hmem
        omega
      · simp at hmem
      · -- In the list there are more parentheses opened than closed before another is closed.
        obtain ⟨before, after, hbefore, rfl, hwhole, hlt⟩ := count_lt_of_mem_intercalate hslots hmem
        have hrest : [','].intercalate slots ++ ')' :: rest = before ++ ')' :: (after ++ ')' :: rest) := by
          rw [hbefore]
          simp
        have hequal := (isClosing_iff htext hrest hwhole).1 hclosing
        omega
  rw [closing?, hfirst]
  rfl

theorem separators_eq :
    separators text start (start + head.length)
      (start + head.length + 1 + ([','].intercalate slots).length) =
        commas (start + head.length + 1) slots := by
  have hcommas := filter_isSeparator hslots Comment.whole_nil (by decide +kernel) (drop_list htext)
  rw [List.length_nil, Nat.add_zero] at hcommas
  rw [separators, outside_parts htext hhead hslots, ← hcommas]
  -- Outside the list nothing is picked, and inside it the bounds say nothing.
  rw [List.filter_append, List.filter_eq_nil_iff.2, List.nil_append, List.filter_cons_of_neg (by simp),
    List.filter_append, List.filter_cons_of_neg (by simp),
    (List.filter_eq_nil_iff (l := outside _ rest)).2, List.append_nil]
  · congr 1
    apply List.filter_congr
    rintro ⟨i, c⟩ hmem
    have hbounds := Comment.index_of_mem_outside hmem
    have hin : start + head.length < i ∧
        i < start + head.length + 1 + ([','].intercalate slots).length := by omega
    rw [decide_eq_true hin, Bool.true_and]
  · rintro ⟨i, c⟩ hmem hpicked
    have := Comment.index_of_mem_outside hmem
    have := (of_decide_eq_true (Bool.and_eq_true_iff.1 hpicked).1).2
    omega
  · rintro ⟨i, c⟩ hmem hpicked
    have := Comment.index_of_mem_outside hmem
    have := (of_decide_eq_true (Bool.and_eq_true_iff.1 hpicked).1).1
    omega

theorem slotsAt_eq (hne : slots ≠ []) :
    slotsAt text start (start + head.length)
      (start + head.length + 1 + ([','].intercalate slots).length) = slots := by
  rw [slotsAt, separators_eq htext hhead hslots]
  exact stretches_commas hne (drop_list htext)

end Parts

/-! ### What the slots give -/

theorem Lists.isSegment {parameters : List Parameter} (h : Lists slots parameters) :
    ∀ slot ∈ slots, IsSegment .parameters slot := by
  cases h with
  | blank hrun htop _ => simpa using ⟨_, hrun, htop⟩
  | named _ hholds =>
      intro slot hslot
      obtain ⟨name, type, hslot⟩ := hholds.exists_parameter slot hslot
      exact hslot.spells.1

/-- A segment is blank exactly if it has no tokens. -/
theorem IsSegment.isBlankText_iff (h : IsSegment part segment) :
    IsBlankText segment ↔ pieces (uncommented segment) = [] := by
  obtain ⟨s, hrun, -⟩ := h
  exact (Segment.pieces_uncommented_eq_nil_iff hrun).symm

/-- A segment that spells something is not blank. -/
theorem Spells.not_isBlankText {name : String} {type : CType} (h : Spells part segment name type) :
    ¬IsBlankText segment := by
  obtain ⟨hsegment, fragments, hpieces, -⟩ := h
  rw [hsegment.isBlankText_iff, hpieces]
  simp

/-- A list with a slot that gives a parameter is not blank. -/
theorem HoldsEach.not_isBlankText {parameters : List Parameter} (h : HoldsEach slots parameters)
    (hne : slots ≠ []) : ¬IsBlankText ([','].intercalate slots) := by
  cases h with
  | nil => contradiction
  | @cons slot parameter slots parameters hslot _ =>
      have hfirst : ∃ more, [','].intercalate (slot :: slots) = slot ++ more := by
        by_cases hlast : slots = []
        · exact ⟨[], by simp [hlast]⟩
        · exact ⟨[','] ++ [','].intercalate slots, by simp [List.intercalate_cons_of_ne_nil hlast]⟩
      obtain ⟨more, hmore⟩ := hfirst
      intro hblank
      apply hslot.spells.not_isBlankText
      intro c hc
      apply hblank c
      rw [hmore, hslot.spells.1.whole.plain_append]
      exact List.mem_append_left _ hc

/-- A list stands for no parameters exactly if `void` is its only token. -/
theorem isVoidList_iff {parameters : List Parameter} (h : HoldsEach slots parameters) :
    Parameter.isVoidList parameters = true ↔ tokensOf slots = ["void"] := by
  constructor
  · intro hvoid
    obtain ⟨slot, rfl, -, hpieces⟩ := pieces_of_isVoidList h.spells hvoid
    simpa [tokensOf] using hpieces
  · intro htokens
    cases h with
    | nil => contradiction
    | @cons slot parameter slots parameters hslot hmore =>
        obtain ⟨-, fragments, hpieces, hfull⟩ := hslot.spells
        rw [tokensOf, List.flatMap_cons, hpieces, List.append_eq_singleton_iff] at htokens
        rcases htokens with ⟨hnone, -⟩ | ⟨honly, hbehind⟩
        · simp at hnone
        · obtain ⟨rfl, hname⟩ : fragments = [] ∧ parameter.name = "void" := by
            simpa [List.append_eq_singleton_iff] using honly
          -- A second slot would have tokens of its own.
          cases hmore with
          | nil => simp [Parameter.isVoidList, hname, hfull]
          | @cons second _ slots _ hsecond _ =>
              obtain ⟨-, fragments, hpieces, -⟩ := hsecond.spells
              rw [List.flatMap_cons, hpieces] at hbehind
              simp at hbehind

/-- A declaration that is put together from its parts has its delimiters between them. -/
theorem delimitedAt_of_parts {declaration : Declaration}
    (htext : text.drop start = head ++ '(' :: ([','].intercalate slots ++ ')' :: rest))
    (hparts : Parts declaration head slots) :
    DelimitedAt declaration text start (start + head.length)
      (start + head.length + 1 + ([','].intercalate slots).length) := by
  obtain ⟨hhead, listed, hlist, hparameters⟩ := hparts
  have hslots := hlist.isSegment
  have hregion := extract_eq (drop_list htext) rfl
  have hslotsAt := slotsAt_eq htext hhead.spells.1 hslots hlist.ne_nil
  refine ⟨opening?_eq htext hhead.spells.1 hslots, closing?_eq htext hhead.spells.1 hslots, ?_, ?_, ?_, ?_⟩
  · rw [hregion]
    exact (whole_intercalate hslots).2.1
  · rw [extract_eq htext rfl]
    exact hhead.spells
  · rw [hregion, hslotsAt, hparameters]
    cases hlist with
    | blank => exact fun _ => ite_self []
    | named hne hholds =>
        rintro (hblank | hvoid)
        · exact absurd hblank (hholds.not_isBlankText hne)
        · rw [if_pos ((isVoidList_iff hholds).2 hvoid)]
  · rw [hregion, hslotsAt, separators_eq htext hhead.spells.1 hslots, length_commas, hparameters]
    intro hblank hvoid
    cases hlist with
    | @blank slot s hrun htop hempty =>
        rw [List.intercalate_singleton, IsSegment.isBlankText_iff ⟨s, hrun, htop⟩,
          ← Segment.flush_tokens_of_run hrun, (Segment.isEmpty_iff_flush_tokens s).1 hempty] at hblank
        exact absurd rfl hblank
    | named hne hholds =>
        rw [if_neg fun hlone => hvoid ((isVoidList_iff hholds).1 hlone)]
        have hlength := List.length_pos_iff.2 hne
        refine ⟨?_, hholds.spells⟩
        rw [← hholds.length_eq]
        omega

/-- A scan that succeeds has stopped at the delimiters that counting in the whole declaration gives.
With two or more slots none of them may be blank. -/
theorem scan_delimiters :
    (∀ (text : List Char) (start line : Nat) (declaration : Declaration) (finish : Nat),
      scan text start line = .ok (declaration, finish) →
        ∃ opening closing, finish = closing + 1 ∧ DelimitedAt declaration text start opening closing) ∧
    ∀ (text : List Char) (start opening closing : Nat),
      opening? text start = some opening → closing? text start opening = some closing →
        separators text start opening closing ≠ [] →
          (∃ slot ∈ slotsAt text start opening closing, IsBlankText slot) →
            ∀ line declaration finish, scan text start line ≠ .ok (declaration, finish) := by
  constructor
  · intro text start line declaration finish hscan
    obtain ⟨head, slots, rest, htext, hparts, -, hfinish⟩ := scan_eq_ok_iff_parts.1 hscan
    refine ⟨_, _, ?_, delimitedAt_of_parts htext hparts⟩
    have hlength := congrArg List.length htext
    simp only [List.length_drop, List.length_append, List.length_cons] at hlength
    omega
  · rintro text start opening closing hopening hclosing hseparators ⟨slot, hslot, hblank⟩
      line declaration finish hscan
    obtain ⟨head, slots, rest, htext, ⟨hhead, listed, hlist, -⟩, -, -⟩ := scan_eq_ok_iff_parts.1 hscan
    have hslots := hlist.isSegment
    -- The delimiters are those of the parts.
    obtain rfl := Option.some.inj ((opening?_eq htext hhead.spells.1 hslots).symm.trans hopening)
    obtain rfl := Option.some.inj ((closing?_eq htext hhead.spells.1 hslots).symm.trans hclosing)
    rw [slotsAt_eq htext hhead.spells.1 hslots hlist.ne_nil] at hslot
    rw [separators_eq htext hhead.spells.1 hslots] at hseparators
    cases hlist with
    | blank => exact hseparators rfl
    | named _ hholds =>
        obtain ⟨name, type, hholds⟩ := hholds.exists_parameter slot hslot
        exact hholds.spells.not_isBlankText hblank

/-- Comments and brackets hide the delimiters of `g`, and the second slot of `f` is blank. -/
theorem scan_delimiters_hidden :
    (∃ declaration,
      scan "x T<(a,b)>/*(*/ g(p<q,r> a/*,)*/, (b,c) d)".toList 1 7 = .ok (declaration, 42) ∧
        DelimitedAt declaration "x T<(a,b)>/*(*/ g(p<q,r> a/*,)*/, (b,c) d)".toList 1 17 41 ∧
          separators "x T<(a,b)>/*(*/ g(p<q,r> a/*,)*/, (b,c) d)".toList 1 17 41 = [32]) ∧
    ∀ line declaration finish,
      scan "f(a b, /*,*/ )".toList 0 line ≠ .ok (declaration, finish) := by
  constructor
  · have hfinish : ((scan "x T<(a,b)>/*(*/ g(p<q,r> a/*,)*/, (b,c) d)".toList 1 7).toOption.map
        Prod.snd) = some 42 := by
      decide +kernel
    cases hscan : scan "x T<(a,b)>/*(*/ g(p<q,r> a/*,)*/, (b,c) d)".toList 1 7 with
    | error error =>
        rw [hscan] at hfinish
        contradiction
    | ok found =>
        obtain ⟨declaration, finish⟩ := found
        rw [hscan] at hfinish
        obtain rfl : finish = 42 := Option.some.inj hfinish
        obtain ⟨opening, closing, hclosing, hdelimited⟩ :=
          scan_delimiters.1 _ 1 7 declaration 42 hscan
        have hopening : opening? "x T<(a,b)>/*(*/ g(p<q,r> a/*,)*/, (b,c) d)".toList 1 = some 17 := by
          decide +kernel
        obtain rfl := Option.some.inj (hopening.symm.trans hdelimited.opens)
        obtain rfl : closing = 41 := (Nat.succ.inj hclosing).symm
        exact ⟨declaration, rfl, hdelimited, by decide +kernel⟩
  · intro line
    exact scan_delimiters.2 _ 0 1 13 (by decide +kernel) (by decide +kernel) (by decide +kernel)
      (by decide +kernel) line

end Declaration
end ExportIndex
