import Mathlib.Data.List.SplitBy
import ExportIndex.Proofs.Segment.Run

/-!
# Tokens as pieces of a text

Where the tokens of a segment begin and end can be read off its text alone, without following how it
is read.

* `uncommented` is the text without its comments: outside all brackets a comment counts as a space,
  inside as nothing.
* `pieces` drops the blanks outside all brackets and cuts what is left: `Position.joins` says whether
  two characters that come one after the other stay together.
* `Matches` is the invariant of a run: it ties the begun token, the complete ones and the pending split
  to the text that has been read.
* `flush_tokens_of_run` — the tokens of a segment are the pieces of its text.
-/

namespace ExportIndex
namespace Segment

open Text (isBlank isWordChar)

/-! ### Pieces -/

/-- The number of brackets that are open behind a text. -/
def openBrackets (text : List Char) : Nat :=
  (text.count '<' - text.count '>') + (text.count '(' - text.count ')')

/-- A character of a text. -/
structure Position where
  index : Nat
  char : Char
  /-- The number of brackets that are open behind it. -/
  depth : Nat

namespace Position

/-- A blank outside all brackets. -/
def isGap (p : Position) : Bool :=
  isBlank p.char && p.depth == 0

/-- Whether two characters with nothing but gaps between them belong to the same piece.  Side by side
they do, unless a word begins behind a mark outside all brackets; across a gap they do not, unless the
second is a `*` or an `&`. -/
def joins (p q : Position) : Bool :=
  if q.index = p.index + 1 then !(decide (IsMark p.char) && p.depth == 0 && isWordChar q.char)
  else decide (IsMarker q.char)

end Position

/-- The characters of a text. -/
def positions (text : List Char) : List Position :=
  text.mapIdx fun i c => ⟨i, c, openBrackets (text.take (i + 1))⟩

/-- The characters of a text without the gaps. -/
def kept (text : List Char) : List Position :=
  (positions text).filter fun p => !p.isGap

/-- The pieces of a text. -/
def pieces (text : List Char) : List String :=
  ((kept text).splitBy Position.joins).map fun block => String.ofList (block.map Position.char)

/-- The characters read, `seen`, with those of the text outside comments behind them. -/
def uncommentedFrom (seen : List Char) : List Char → List Char
  | [] => seen
  | c :: text =>
    if c = '/' then
      match _h : Comment.after? text with
      | some rest => uncommentedFrom (if openBrackets seen = 0 then seen ++ [' '] else seen) rest
      | none => seen ++ c :: text
    else uncommentedFrom (seen ++ [c]) text
termination_by text => text.length
decreasing_by
  · obtain ⟨body, rfl, -⟩ := Comment.exists_body _h
    rw [List.length_cons, List.length_append]
    omega
  · exact Nat.lt_succ_self text.length

/-- A text without its comments. -/
def uncommented (text : List Char) : List Char :=
  uncommentedFrom [] text

/-! ### A character more -/

theorem positions_concat (text : List Char) (c : Char) :
    positions (text ++ [c]) = positions text ++ [⟨text.length, c, openBrackets (text ++ [c])⟩] := by
  rw [positions, List.mapIdx_concat, positions]
  congr 1
  · apply List.ext_getElem
    · simp
    · intro i hi hi'
      simp only [List.length_mapIdx] at hi
      simp [List.take_append_of_le_length (by omega : i + 1 ≤ text.length)]
  · rw [List.take_of_length_le (by simp)]

theorem kept_of_gap {text : List Char} {c : Char} (hblank : isBlank c = true)
    (htop : openBrackets (text ++ [c]) = 0) : kept (text ++ [c]) = kept text := by
  simp [kept, positions_concat, Position.isGap, hblank, htop]

theorem kept_concat {text : List Char} {c : Char}
    (h : ¬(isBlank c = true ∧ openBrackets (text ++ [c]) = 0)) :
    kept (text ++ [c]) = kept text ++ [⟨text.length, c, openBrackets (text ++ [c])⟩] := by
  have hgap : Position.isGap ⟨text.length, c, openBrackets (text ++ [c])⟩ = false := by
    rw [← Bool.not_eq_true, Position.isGap, Bool.and_eq_true, beq_iff_eq]
    exact h
  simp [kept, positions_concat, hgap]

theorem index_lt_of_mem_kept {text : List Char} {p : Position} (h : p ∈ kept text) :
    p.index < text.length := by
  obtain ⟨i, hi, rfl⟩ := List.mem_mapIdx.1 (List.mem_of_mem_filter h)
  exact hi

/-- The last character that is kept, behind one that is no gap. -/
theorem getLast?_kept_concat {text : List Char} {c : Char}
    (h : ¬(isBlank c = true ∧ openBrackets (text ++ [c]) = 0)) :
    (kept (text ++ [c])).getLast? = some ⟨text.length, c, openBrackets (text ++ [c])⟩ := by
  rw [kept_concat h, List.getLast?_concat]

theorem splitBy_concat_of_cut {α : Type} {r : α → α → Bool} {items : List α} {item : α}
    (h : ∀ last ∈ items.getLast?, r last item = false) :
    (items ++ [item]).splitBy r = items.splitBy r ++ [[item]] :=
  List.splitBy_append_cons [] h

/-- An item that belongs to the last block makes it longer. -/
theorem splitBy_concat_of_join {α : Type} {r : α → α → Bool} {items : List α} {item : α}
    {init : List (List α)} {block : List α} (hblocks : items.splitBy r = init ++ [block])
    (h : ∀ last ∈ items.getLast?, r last item = true) :
    (items ++ [item]).splitBy r = init ++ [block ++ [item]] := by
  obtain ⟨hflatten, hnil, hchain, hcuts⟩ := List.splitBy_eq_iff.1 hblocks
  have hblock : block ≠ [] := fun hempty => hnil (by simp [hempty])
  have hlast : items.getLast? = block.getLast? := by
    rw [hflatten, List.flatten_concat, List.getLast?_append_of_ne_nil _ hblock]
  refine List.splitBy_eq_iff.2 ⟨?_, ?_, ?_, ?_⟩
  · rw [hflatten]
    simp
  · simpa [hblock] using hnil
  · intro other hother
    rcases List.mem_append.1 hother with hother | hother
    · exact hchain other (List.mem_append_left _ hother)
    · obtain rfl := List.mem_singleton.1 hother
      refine List.isChain_append.2 ⟨hchain block (by simp), List.isChain_singleton item, ?_⟩
      intro last hmem next hnext
      obtain rfl : item = next := by simpa using hnext
      exact h last (hlast ▸ hmem)
  · rw [List.isChain_append] at hcuts ⊢
    refine ⟨hcuts.1, List.isChain_singleton _, ?_⟩
    intro other hother longer hlonger
    obtain rfl : block ++ [item] = longer := by simpa using hlonger
    obtain ⟨ha, hb, hcut⟩ := hcuts.2.2 other hother block (by simp)
    exact ⟨ha, by simp, by rwa [List.head_append_of_ne_nil hb]⟩

theorem pieces_of_gap {text : List Char} {c : Char} (hblank : isBlank c = true)
    (htop : openBrackets (text ++ [c]) = 0) : pieces (text ++ [c]) = pieces text := by
  rw [pieces, kept_of_gap hblank htop, pieces]

/-- A character that is cut off begins a piece. -/
theorem pieces_of_cut {text : List Char} {c : Char}
    (hkept : ¬(isBlank c = true ∧ openBrackets (text ++ [c]) = 0))
    (hcut : ∀ p ∈ (kept text).getLast?,
      p.joins ⟨text.length, c, openBrackets (text ++ [c])⟩ = false) :
    pieces (text ++ [c]) = pieces text ++ [String.singleton c] := by
  rw [pieces, kept_concat hkept, splitBy_concat_of_cut hcut, pieces, List.map_append]
  rfl

/-- A character that is joined to the last piece makes it longer. -/
theorem pieces_of_join {text : List Char} {c : Char} {init : List String} {last : String}
    (hkept : ¬(isBlank c = true ∧ openBrackets (text ++ [c]) = 0))
    (hpieces : pieces text = init ++ [last])
    (hjoin : ∀ p ∈ (kept text).getLast?,
      p.joins ⟨text.length, c, openBrackets (text ++ [c])⟩ = true) :
    pieces (text ++ [c]) = init ++ [last.push c] := by
  obtain ⟨before, after, hblocks, rfl, hlast⟩ := List.map_eq_append_iff.1 hpieces
  obtain ⟨block, rfl, rfl⟩ := List.map_eq_singleton_iff.1 hlast
  rw [pieces, kept_concat hkept, splitBy_concat_of_join hblocks hjoin, List.map_append]
  simp [String.ofList_append]

/-- No piece is empty. -/
theorem ne_empty_of_mem_pieces {text : List Char} {piece : String} (h : piece ∈ pieces text) :
    piece ≠ "" := by
  obtain ⟨block, hblock, rfl⟩ := List.mem_map.1 h
  simpa using List.ne_nil_of_mem_splitBy hblock

/-! ### The text outside comments -/

theorem Advance.ne_slash {part : Part} {s s' : Segment} {c : Char} (h : Advance part s c s') :
    c ≠ '/' := by
  cases h with
  | blank hblank =>
      rintro rfl
      exact absurd hblank (by decide)
  | openAngle => decide
  | closeAngle _ => decide
  | openParen _ => decide
  | closeParen _ => decide
  | marker hmarker _ =>
      rintro rfl
      exact absurd hmarker (by decide)
  | ordinary _ hplain _ _ => exact hplain.1

theorem uncommentedFrom_char (seen : List Char) {c : Char} (h : c ≠ '/') (text : List Char) :
    uncommentedFrom seen (c :: text) = uncommentedFrom (seen ++ [c]) text := by
  rw [uncommentedFrom, if_neg h]

theorem uncommentedFrom_comment (seen : List Char) {body : List Char} (h : Comment.IsBody body)
    (rest : List Char) :
    uncommentedFrom seen ('/' :: body ++ rest) =
      uncommentedFrom (if openBrackets seen = 0 then seen ++ [' '] else seen) rest := by
  rw [List.cons_append, uncommentedFrom, if_pos rfl]
  split
  · rename_i hafter
    rw [h.after?_append] at hafter
    injection hafter with hafter
    rw [hafter]
  · rename_i hafter
    rw [h.after?_append] at hafter
    contradiction

/-! ### The invariant -/

theorem not_bracket_of_isBlank {c : Char} (h : isBlank c = true) :
    c ≠ '<' ∧ c ≠ '>' ∧ c ≠ '(' ∧ c ≠ ')' := by
  refine ⟨?_, ?_, ?_, ?_⟩
  iterate 4
    rintro rfl
    exact absurd h (by decide)

theorem not_bracket_of_isMarker {c : Char} (h : IsMarker c) :
    c ≠ '<' ∧ c ≠ '>' ∧ c ≠ '(' ∧ c ≠ ')' := by
  rcases h with rfl | rfl <;> decide

theorem isWordChar_of_isMarker {c : Char} (h : IsMarker c) : isWordChar c = false := by
  rcases h with rfl | rfl <;> decide

/-- The open brackets of a segment are those of a text. -/
structure Brackets (s : Segment) (text : List Char) : Prop where
  angle : s.angle + text.count '>' = text.count '<'
  paren : s.paren + text.count ')' = text.count '('

/-- What a segment holds, compared with the text outside comments that has been read of it. -/
structure Matches (s : Segment) (text : List Char) : Prop where
  brackets : Brackets s text
  tokens : s.flush.tokens.reverse = pieces text
  buffer : s.buffer = "" ↔ (∀ c ∈ text.getLast?, isBlank c = true) ∧ s.nesting = 0
  split : s.splitPending = true ↔ (∃ c ∈ text.getLast?, IsMark c) ∧ s.nesting = 0

variable {part : Part} {s s' : Segment} {text : List Char}

theorem Brackets.openBrackets_eq (h : Brackets s text) : openBrackets text = s.nesting := by
  have hangle := h.angle
  have hparen := h.paren
  unfold openBrackets nesting
  omega

/-- The brackets of a text grow with those of its next character. -/
theorem Brackets.concat (h : Brackets s text) {c : Char}
    (hangle : s'.angle + [c].count '>' = s.angle + [c].count '<')
    (hparen : s'.paren + [c].count ')' = s.paren + [c].count '(') : Brackets s' (text ++ [c]) := by
  have hangles := h.angle
  have hparens := h.paren
  constructor
  · rw [List.count_append, List.count_append]
    omega
  · rw [List.count_append, List.count_append]
    omega

/-- Any other character leaves the brackets as they are. -/
theorem Brackets.plain (h : Brackets s text) {c : Char}
    (hplain : c ≠ '<' ∧ c ≠ '>' ∧ c ≠ '(' ∧ c ≠ ')') (hangle : s'.angle = s.angle)
    (hparen : s'.paren = s.paren) : Brackets s' (text ++ [c]) := by
  obtain ⟨hless, hgreater, hopen, hclose⟩ := hplain
  apply h.concat
  · simp [hangle, hless, hgreater]
  · simp [hparen, hopen, hclose]

@[simp] theorem angle_reopen (s : Segment) : s.reopen.angle = s.angle := by
  unfold reopen
  split
  · rfl
  · split <;> rfl

@[simp] theorem paren_reopen (s : Segment) : s.reopen.paren = s.paren := by
  unfold reopen
  split
  · rfl
  · split <;> rfl

/-- A segment without any token is reopened with none begun. -/
theorem reopen_of_flush_nil (h : s.flush.tokens = []) :
    s.reopen.buffer = "" ∧ s.reopen.tokens = [] := by
  by_cases hbuffer : s.buffer = ""
  · rw [flush_of_buffer_eq hbuffer] at h
    have htokens : s.tokens = [] := h
    rw [reopen, htokens]
    exact ⟨hbuffer, htokens⟩
  · rw [tokens_flush_of_ne hbuffer] at h
    contradiction

/-- What is reopened is the last token, begun or ended. -/
theorem reopen_of_flush_cons {last : String} {tokens : List String}
    (h : s.flush.tokens = last :: tokens) :
    s.reopen.buffer = last ∧ s.reopen.tokens = tokens := by
  by_cases hbuffer : s.buffer = ""
  · rw [flush_of_buffer_eq hbuffer] at h
    have htokens : s.tokens = last :: tokens := h
    have hreopen : s.reopen = { s with buffer := last, tokens := tokens } := by
      rw [reopen, htokens]
      exact if_pos (by simpa using hbuffer)
    rw [hreopen]
    exact ⟨rfl, rfl⟩
  · rw [tokens_flush_of_ne hbuffer] at h
    rw [reopen_of_ne hbuffer]
    exact List.cons.inj h

namespace Matches

theorem empty : Matches empty [] where
  brackets := ⟨rfl, rfl⟩
  tokens := rfl
  buffer := by simp [Segment.empty, nesting]
  split := by simp [Segment.empty]

/-- Whether a character stays together with the last one that was kept. -/
theorem joins (h : Matches s text) {p : Position} (hp : p ∈ (kept text).getLast?) (c : Char)
    (depth : Nat) :
    p.joins ⟨text.length, c, depth⟩ =
      if s.buffer = "" then decide (IsMarker c) else !(s.splitPending && isWordChar c) := by
  have hopen := h.brackets.openBrackets_eq
  rcases List.eq_nil_or_concat' text with rfl | ⟨init, b, rfl⟩
  · simp [kept, positions] at hp
  · by_cases hgap : isBlank b = true ∧ openBrackets (init ++ [b]) = 0
    · -- Behind a gap the last kept character is further back.
      have hbuffer : s.buffer = "" := h.buffer.2 ⟨by simpa using hgap.1, hopen ▸ hgap.2⟩
      rw [kept_of_gap hgap.1 hgap.2] at hp
      have hindex : p.index < init.length := index_lt_of_mem_kept (List.mem_of_getLast? hp)
      rw [if_pos hbuffer, Position.joins, if_neg]
      show ¬(init ++ [b]).length = p.index + 1
      rw [List.length_append, List.length_singleton]
      omega
    · -- Otherwise it is the very last one.
      have hbuffer : s.buffer ≠ "" := by
        intro hbuffer
        obtain ⟨hblank, htop⟩ := h.buffer.1 hbuffer
        exact hgap ⟨hblank b (by simp), hopen.trans htop⟩
      rw [getLast?_kept_concat hgap] at hp
      obtain rfl : _ = p := by simpa using hp
      have hsplit : s.splitPending = (decide (IsMark b) && openBrackets (init ++ [b]) == 0) := by
        rw [Bool.eq_iff_iff, h.split, hopen]
        simp
      rw [if_neg hbuffer, Position.joins, if_pos (by simp), hsplit]

/-! ### Tokens behind a character more -/

/-- A character that is cut off, or is the first to be kept, begins a token. -/
theorem tokens_of_cut (h : Matches s text) {c : Char}
    (hkept : ¬(isBlank c = true ∧ openBrackets (text ++ [c]) = 0))
    (hcut : s.flush.tokens = [] ∨
      (if s.buffer = "" then decide (IsMarker c) else !(s.splitPending && isWordChar c)) = false)
    (hbuffer : s'.buffer = "".push c) (htokens : s'.tokens = s.flush.tokens) :
    s'.flush.tokens.reverse = pieces (text ++ [c]) := by
  have hjoins : ∀ p ∈ (kept text).getLast?,
      p.joins ⟨text.length, c, openBrackets (text ++ [c])⟩ = false := by
    intro p hp
    rcases hcut with hnone | hcut
    · have hpieces : pieces text = [] := by
        rw [← h.tokens, hnone, List.reverse_nil]
      rw [pieces, List.map_eq_nil_iff, List.splitBy_eq_nil] at hpieces
      simp [hpieces] at hp
    · rw [h.joins hp, hcut]
  rw [pieces_of_cut hkept hjoins, ← h.tokens, tokens_flush_of_ne (by simp [hbuffer]), hbuffer,
    htokens, List.reverse_cons]
  rfl

/-- A character that is joined to the last token makes it longer. -/
theorem tokens_of_join (h : Matches s text) {c : Char} {last : String} {tokens : List String}
    (hkept : ¬(isBlank c = true ∧ openBrackets (text ++ [c]) = 0))
    (hjoin : (if s.buffer = "" then decide (IsMarker c) else !(s.splitPending && isWordChar c)) = true)
    (hflush : s.flush.tokens = last :: tokens) (hbuffer : s'.buffer = last.push c)
    (htokens : s'.tokens = tokens) : s'.flush.tokens.reverse = pieces (text ++ [c]) := by
  have hpieces : pieces text = tokens.reverse ++ [last] := by
    rw [← h.tokens, hflush, List.reverse_cons]
  have hjoins : ∀ p ∈ (kept text).getLast?,
      p.joins ⟨text.length, c, openBrackets (text ++ [c])⟩ = true := by
    intro p hp
    rw [h.joins hp, hjoin]
  rw [pieces_of_join hkept hpieces hjoins, tokens_flush_of_ne (by simp [hbuffer]), hbuffer, htokens,
    List.reverse_cons]

/-- A character that is pushed goes on with the begun token, or begins one. -/
theorem tokens_of_push (h : Matches s text) {c : Char}
    (hkept : ¬(isBlank c = true ∧ openBrackets (text ++ [c]) = 0))
    (hnew : s.buffer = "" → ¬IsMarker c) (hwhole : (s.splitPending && isWordChar c) = false)
    (hbuffer : s'.buffer = s.buffer.push c) (htokens : s'.tokens = s.tokens) :
    s'.flush.tokens.reverse = pieces (text ++ [c]) := by
  by_cases hempty : s.buffer = ""
  · rw [hempty] at hbuffer
    have hflush : s.flush.tokens = s.tokens := by
      rw [flush_of_buffer_eq hempty]
    refine h.tokens_of_cut hkept (.inr ?_) hbuffer (htokens.trans hflush.symm)
    rw [if_pos hempty, decide_eq_false (hnew hempty)]
  · refine h.tokens_of_join hkept ?_ (tokens_flush_of_ne hempty) hbuffer htokens
    rw [if_neg hempty, hwhole]
    rfl

/-! ### Steps of the invariant -/

/-- A character that is kept either goes to a token or begins one. -/
theorem of_kept {c : Char} (hbrackets : Brackets s' (text ++ [c]))
    (hkept : ¬(isBlank c = true ∧ s'.nesting = 0))
    (htokens : ¬(isBlank c = true ∧ openBrackets (text ++ [c]) = 0) →
      s'.flush.tokens.reverse = pieces (text ++ [c]))
    (hbuffer : s'.buffer ≠ "") (hsplit : s'.splitPending = true ↔ IsMark c ∧ s'.nesting = 0) :
    Matches s' (text ++ [c]) where
  brackets := hbrackets
  tokens := by
    apply htokens
    rwa [hbrackets.openBrackets_eq]
  buffer := by simpa [hbuffer] using hkept
  split := by simpa using hsplit

/-- A blank outside all brackets is a gap. -/
theorem of_gap (h : Matches s text) {c : Char} (hblank : isBlank c = true) (htop : s.nesting = 0) :
    Matches s.flush (text ++ [c]) := by
  have hbrackets : Brackets s.flush (text ++ [c]) :=
    h.brackets.plain (not_bracket_of_isBlank hblank) (angle_flush s) (paren_flush s)
  refine ⟨hbrackets, ?_, ?_, ?_⟩
  · rw [flush_flush, h.tokens, pieces_of_gap hblank]
    rw [hbrackets.openBrackets_eq, nesting_flush, htop]
  · simp [hblank, htop]
  · have hmark : ¬IsMark c := by
      intro hmark
      simp [isBlank_of_isMark hmark] at hblank
    simp [hmark]

/-- A character that is pushed and keeps the brackets open. -/
theorem of_push (h : Matches s text) {c : Char} (hbrackets : Brackets s' (text ++ [c]))
    (hkept : ¬(isBlank c = true ∧ s'.nesting = 0)) (hnew : s.buffer = "" → ¬IsMarker c)
    (hwhole : (s.splitPending && isWordChar c) = false) (hbuffer : s'.buffer = s.buffer.push c)
    (htokens : s'.tokens = s.tokens) (hsplit : s'.splitPending = true ↔ IsMark c ∧ s'.nesting = 0) :
    Matches s' (text ++ [c]) :=
  of_kept hbrackets hkept (fun hkept => h.tokens_of_push hkept hnew hwhole hbuffer htokens)
    (by simp [hbuffer]) hsplit

/-- A marker goes to the last token, whether that has been ended or not. -/
theorem pushMarker (h : Matches s text) {c : Char} (hmarker : IsMarker c) (htop : s.nesting = 0) :
    Matches (s.pushMarker c) (text ++ [c]) := by
  have hjoin : (if s.buffer = "" then decide (IsMarker c)
      else !(s.splitPending && isWordChar c)) = true := by
    rw [decide_eq_true hmarker, isWordChar_of_isMarker hmarker, Bool.and_false]
    exact ite_self true
  have hbrackets : Brackets (s.pushMarker c) (text ++ [c]) :=
    h.brackets.plain (not_bracket_of_isMarker hmarker) (angle_reopen s) (paren_reopen s)
  have hbuffer : (s.pushMarker c).buffer = s.reopen.buffer.push c := rfl
  have hsplit : (s.pushMarker c).splitPending = true ↔ IsMark c ∧ (s.pushMarker c).nesting = 0 := by
    rw [nesting_pushMarker]
    exact ⟨fun _ => ⟨.inl hmarker, htop⟩, fun _ => rfl⟩
  have hblank : ¬(isBlank c = true ∧ (s.pushMarker c).nesting = 0) := by
    simp [isBlank_of_isMarker hmarker]
  refine of_kept hbrackets hblank ?_ (by simp [hbuffer]) hsplit
  intro hkept
  cases hflush : s.flush.tokens with
  | nil =>
      obtain ⟨hempty, hnone⟩ := reopen_of_flush_nil hflush
      rw [hempty] at hbuffer
      exact h.tokens_of_cut hkept (.inl hflush) hbuffer (hnone.trans hflush.symm)
  | cons last tokens =>
      obtain ⟨hlast, hbefore⟩ := reopen_of_flush_cons hflush
      rw [hlast] at hbuffer
      exact h.tokens_of_join hkept hjoin hflush hbuffer hbefore

/-- A character without a meaning of its own begins a token behind a mark, if it can. -/
theorem pushOrdinary (h : Matches s text) {c : Char} (hblank : isBlank c = false)
    (hplain : c ≠ '<' ∧ c ≠ '>' ∧ c ≠ '(' ∧ c ≠ ')') (hmarker : IsMarker c → s.nesting ≠ 0) :
    Matches (s.pushOrdinary c) (text ++ [c]) := by
  have hkept (s : Segment) : ¬(isBlank c = true ∧ s.nesting = 0) := by
    simp [hblank]
  have hmark : ¬(IsMark c ∧ s.nesting = 0) := by
    rintro ⟨hmark | rfl | rfl, htop⟩
    · exact hmarker hmark htop
    · exact hplain.2.1 rfl
    · exact hplain.2.2.2 rfl
  unfold Segment.pushOrdinary
  split
  · rename_i hsplit
    -- A pending split follows a mark, and a mark is no gap.
    have hbegun : s.buffer ≠ "" := by
      intro hempty
      rw [Bool.and_eq_true] at hsplit
      obtain ⟨⟨b, hb, hmark⟩, -⟩ := h.split.1 hsplit.1
      have hblank := (h.buffer.1 hempty).1 b hb
      simp [isBlank_of_isMark hmark] at hblank
    refine of_kept (h.brackets.plain hplain (angle_flush s) (paren_flush s)) (hkept _) ?_
      (by simp [push]) ⟨fun hsplit => absurd hsplit Bool.false_ne_true, ?_⟩
    · intro hkept
      refine h.tokens_of_cut hkept (.inr ?_) ?_ rfl
      · rw [if_neg hbegun, hsplit]
        rfl
      · show s.flush.buffer.push c = _
        rw [buffer_flush]
    · rw [nesting_push, nesting_flush]
      exact fun hends => absurd hends hmark
  · rename_i hsplit
    rw [Bool.not_eq_true] at hsplit
    have hnew : s.buffer = "" → ¬IsMarker c := fun hempty hmarked =>
      hmarker hmarked (h.buffer.1 hempty).2
    exact h.of_push (h.brackets.plain hplain rfl rfl) (hkept _) hnew hsplit rfl rfl
      ⟨fun hsplit => absurd hsplit Bool.false_ne_true,
        fun hends => absurd hends hmark⟩

/-- A blank is a gap outside all brackets and kept inside. -/
theorem pushBlank (h : Matches s text) {c : Char} (hblank : isBlank c = true) :
    Matches (s.pushBlank c) (text ++ [c]) := by
  unfold Segment.pushBlank
  split
  · rename_i htop
    exact h.of_gap hblank htop
  · rename_i hinside
    have hmark : ¬IsMark c := by
      intro hmark
      simp [isBlank_of_isMark hmark] at hblank
    -- A split is pending outside all brackets only.
    have hsplit : s.splitPending = false := by
      rw [← Bool.not_eq_true, h.split]
      exact fun hsplit => hinside hsplit.2
    refine h.of_push (h.brackets.plain (not_bracket_of_isBlank hblank) rfl rfl) ?_ ?_ ?_ rfl rfl ?_
    · exact fun hgap => hinside hgap.2
    · exact fun _ hmarker => hmark (.inl hmarker)
    · rw [hsplit, Bool.false_and]
    · exact ⟨fun hsplit => absurd hsplit Bool.false_ne_true, fun hends => absurd hends.1 hmark⟩

/-- A bracket is kept and goes on with the begun token. -/
theorem of_bracket (h : Matches s text) {c : Char} (hc : c = '<' ∨ c = '>' ∨ c = '(' ∨ c = ')')
    (hangle : s'.angle + [c].count '>' = s.angle + [c].count '<')
    (hparen : s'.paren + [c].count ')' = s.paren + [c].count '(')
    (hbuffer : s'.buffer = s.buffer.push c) (htokens : s'.tokens = s.tokens)
    (hsplit : s'.splitPending = true ↔ IsMark c ∧ s'.nesting = 0) : Matches s' (text ++ [c]) := by
  obtain ⟨hblank, hmarker, hword⟩ :
      isBlank c = false ∧ ¬IsMarker c ∧ isWordChar c = false := by
    rcases hc with rfl | rfl | rfl | rfl <;> decide
  refine h.of_push (h.brackets.concat hangle hparen) ?_ (fun _ => hmarker) ?_ hbuffer htokens hsplit
  · simp [hblank]
  · rw [hword, Bool.and_false]

theorem of_advance (h : Matches s text) {c : Char} (hadvance : Advance part s c s') :
    Matches s' (text ++ [c]) := by
  cases hadvance with
  | blank hblank => exact h.pushBlank hblank
  | openAngle =>
      refine h.of_bracket (by simp) rfl rfl rfl rfl ⟨fun hsplit => absurd hsplit Bool.false_ne_true, ?_⟩
      exact fun hends => absurd hends.1 (by decide)
  | closeAngle hangle =>
      refine h.of_bracket (by simp) hangle.symm rfl rfl rfl ?_
      exact beq_iff_eq.trans ⟨fun htop => ⟨by decide, htop⟩, And.right⟩
  | openParen hinner =>
      refine h.of_bracket (by simp) rfl rfl rfl rfl ⟨fun hsplit => absurd hsplit Bool.false_ne_true, ?_⟩
      exact fun hends => absurd hends.1 (by decide)
  | closeParen hparen =>
      refine h.of_bracket (by simp) rfl hparen.symm rfl rfl ?_
      exact beq_iff_eq.trans ⟨fun htop => ⟨by decide, htop⟩, And.right⟩
  | marker hmarker htop => exact h.pushMarker hmarker htop
  | ordinary hblank hplain hcomma hmarker => exact h.pushOrdinary hblank hplain.2 hmarker

theorem of_retag (h : Matches s text) (tags : List String) : Matches (s.retag tags) text where
  brackets := ⟨h.brackets.angle, h.brackets.paren⟩
  tokens := by
    rw [flush_retag]
    exact h.tokens
  buffer := h.buffer
  split := h.split

/-- A comment is a gap outside all brackets and nothing inside. -/
theorem of_comment (h : Matches s text) (body : List Char) :
    Matches (s.absorb body) (if openBrackets text = 0 then text ++ [' '] else text) := by
  apply of_retag
  unfold beforeComment
  rw [h.brackets.openBrackets_eq]
  split
  · rename_i htop
    exact h.of_gap (by decide) htop
  · exact h

/-- The text outside comments that has been read matches what a segment holds. -/
theorem of_run {more : List Char} (h : Matches s text) (hrun : Run part s more s') :
    Matches s' (uncommentedFrom text more) := by
  induction hrun generalizing text with
  -- Each move adds to the text what it stands for: itself, a space, or nothing.
  | refl =>
      rw [uncommentedFrom]
      exact h
  | move hmove _ ih =>
      cases hmove with
      | char hadvance =>
          rw [List.singleton_append, uncommentedFrom_char text hadvance.ne_slash]
          exact ih (h.of_advance hadvance)
      | @comment body hbody =>
          rw [uncommentedFrom_comment text hbody]
          exact ih (h.of_comment body)

end Matches

/-- The tokens of a segment are the pieces of its text. -/
theorem flush_tokens_of_run (hrun : Run part .empty text s) :
    s.flush.tokens.reverse = pieces (uncommented text) :=
  (Matches.empty.of_run hrun).tokens

/-- Comments end a piece outside the brackets only; a mark goes to the piece before it. -/
example : pieces (uncommented "unsigned/**/char /**/ *&at<a /**/b>c".toList) =
    ["unsigned", "char*&", "at<a b>", "c"] := by
  decide +kernel

end Segment
end ExportIndex
