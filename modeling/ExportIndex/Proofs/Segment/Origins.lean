import ExportIndex.Proofs.Segment.Brackets

/-!
# Where the characters of a token come from

A token is put together character by character, over comments, and a mark takes a token back that had
been ended.  Whether a word of a token is a word of the text is told by the places of its characters.

* `Adjoins` says that of two characters outside comments the second stands right behind the first, or
  behind comments inside brackets.
* `Traces` gives the characters of all tokens their places: nothing but blanks is left out, and two
  word characters stand side by side in a token exactly if they adjoin.
* `Traced` is the invariant of a run, kept by a character (`Traced.of_advance`) and by a comment
  (`Traced.of_comment`); `exists_traces_of_run` — the tokens of a segment have traces in its text.
* `Traces.infix_of_spaced` — where no comment inside brackets comes between word characters, the words
  of the tokens are words of the text.
-/

namespace ExportIndex
namespace Text

/-- No word character is a blank. -/
theorem isBlank_of_isWordChar {c : Char} (h : isWordChar c = true) : isBlank c = false := by
  have hblanks : ∀ n ∈ List.range' 0x09 5 ++ List.range' 0x2000 11 ++
      [0x20, 0x85, 0xA0, 0x1680, 0x2028, 0x2029, 0x202F, 0x205F, 0x3000],
      isWordChar (Char.ofNat n) = false := by
    decide +kernel
  rw [← Bool.not_eq_true]
  refine fun hblank => Bool.false_ne_true (.trans (.symm ?_) h)
  rw [← Char.ofNat_toNat c]
  apply hblanks
  simp only [isBlank, Bool.or_eq_true, Bool.and_eq_true, decide_eq_true_eq, beq_iff_eq] at hblank
  simp only [List.mem_append, List.mem_range'_1, List.mem_cons, List.not_mem_nil, or_false]
  omega

end Text

namespace Segment

open Comment (outside Whole)
open Text (isBlank isWordChar)

/-! ### Characters and their places -/

/-- The text of characters with their places. -/
def textOf (token : List (Nat × Char)) : String :=
  String.ofList (token.map Prod.snd)

/-- The characters that are no blanks. -/
def solid (characters : List (Nat × Char)) : List (Nat × Char) :=
  characters.filter fun p => !isBlank p.2

/-- The last of the characters stands right before the place, or inside brackets that are open behind
it. -/
def Reaches (characters : List (Nat × Char)) (place : Nat) (p : Nat × Char) : Prop :=
  ∃ before, characters = before ++ [p] ∧
    (place = p.1 + 1 ∨ ¬IsBalanced (characters.map Prod.snd))

/-- Of two characters with none between, the first stands right before the second, or inside brackets
that are open behind it. -/
def Adjoins (characters : List (Nat × Char)) (p q : Nat × Char) : Prop :=
  ∃ before after, characters = before ++ q :: after ∧ Reaches before q.1 p

/-- The characters of tokens with their places: all but blanks occur, in their order, and two word
characters are side by side in a token exactly if they adjoin. -/
structure Traces (characters : List (Nat × Char)) (tokens : List (List (Nat × Char))) : Prop where
  complete : solid tokens.flatten = solid characters
  side (p q : Nat × Char) (hp : isWordChar p.2 = true) (hq : isWordChar q.2 = true) :
    (∃ token ∈ tokens, [p, q] <:+: token) ↔ Adjoins characters p q

/-- Two word characters that adjoin are side by side in the text. -/
def Spaced (characters : List (Nat × Char)) : Prop :=
  ∀ p q, isWordChar p.2 = true → isWordChar q.2 = true → Adjoins characters p q → q.1 = p.1 + 1

variable {characters begun : List (Nat × Char)} {tokens : List (List (Nat × Char))}
  {x p q : Nat × Char}

@[simp] theorem textOf_eq_empty_iff {token : List (Nat × Char)} : textOf token = "" ↔ token = [] := by
  simp [textOf]

theorem textOf_concat (token : List (Nat × Char)) (p : Nat × Char) :
    textOf (token ++ [p]) = (textOf token).push p.2 := by
  simp [textOf, String.ofList_append]

theorem solid_append (characters more : List (Nat × Char)) :
    solid (characters ++ more) = solid characters ++ solid more :=
  List.filter_append ..

theorem solid_concat_of_isBlank (hblank : isBlank x.2 = true) :
    solid (characters ++ [x]) = solid characters := by
  simp [solid, hblank]

/-- With a character more, what adjoins is what adjoined, and the new one with one that reaches it. -/
theorem adjoins_concat : Adjoins (characters ++ [x]) p q ↔
    Adjoins characters p q ∨ q = x ∧ Reaches characters x.1 p := by
  constructor
  · rintro ⟨before, after, heq, hreaches⟩
    rcases List.eq_nil_or_concat' after with rfl | ⟨after, y, rfl⟩
    · obtain ⟨rfl, rfl⟩ := List.concat_inj.1 (by simpa using heq)
      exact .inr ⟨rfl, hreaches⟩
    · rw [← List.cons_append, ← List.append_assoc] at heq
      exact .inl ⟨before, after, (List.append_inj' heq rfl).1, hreaches⟩
  · rintro (⟨before, after, rfl, hreaches⟩ | ⟨rfl, hreaches⟩)
    · exact ⟨before, after ++ [x], by simp, hreaches⟩
    · exact ⟨characters, [], rfl, hreaches⟩

theorem pair_infix_concat {token : List (Nat × Char)} :
    [p, q] <:+: token ++ [x] ↔ [p, q] <:+: token ∨ q = x ∧ p ∈ token.getLast? := by
  rw [List.infix_concat_iff, or_comm]
  refine or_congr_right ⟨?_, ?_⟩
  · rintro ⟨before, heq⟩
    rw [List.append_cons before p] at heq
    obtain ⟨rfl, hlast⟩ := List.append_inj' heq rfl
    obtain rfl : q = x := by simpa using hlast
    exact ⟨rfl, by simp⟩
  · rintro ⟨rfl, hp⟩
    obtain ⟨before, rfl⟩ := List.getLast?_eq_some_iff.1 hp
    exact ⟨before, by simp⟩

/-! ### Traces -/

namespace Traces

theorem empty : Traces [] [] where
  complete := rfl
  side p q _ _ := by simp [Adjoins]

theorem concat_nil : Traces characters (tokens ++ [[]]) ↔ Traces characters tokens := by
  constructor
  · rintro ⟨hcomplete, hside⟩
    exact ⟨by simpa using hcomplete, by simpa [or_and_right, exists_or] using hside⟩
  · rintro ⟨hcomplete, hside⟩
    exact ⟨by simpa using hcomplete, by simpa [or_and_right, exists_or] using hside⟩

/-- A blank outside all tokens. -/
theorem gap (h : Traces characters tokens) (hblank : isBlank x.2 = true) :
    Traces (characters ++ [x]) tokens where
  complete := by rw [solid_concat_of_isBlank hblank, h.complete]
  side p q hp hq := by
    rw [adjoins_concat, h.side p q hp hq, or_iff_left]
    rintro ⟨rfl, -⟩
    rw [Text.isBlank_of_isWordChar hq] at hblank
    contradiction

/-- A character that goes to the last token. -/
theorem push (h : Traces characters (tokens ++ [begun]))
    (hlast : isWordChar x.2 = true → ∀ p, isWordChar p.2 = true →
      (p ∈ begun.getLast? ↔ Reaches characters x.1 p)) :
    Traces (characters ++ [x]) (tokens ++ [begun ++ [x]]) where
  complete := by
    rw [List.flatten_concat, ← List.append_assoc, ← List.flatten_concat, solid_append, h.complete,
      solid_append]
  side p q hp hq := by
    have hbefore := h.side p q hp hq
    simp only [List.mem_append, List.mem_singleton, or_and_right, exists_or, exists_eq_left] at hbefore ⊢
    rw [pair_infix_concat, adjoins_concat, ← hbefore, or_assoc]
    refine or_congr_right (or_congr_right (and_congr_right ?_))
    rintro rfl
    exact hlast hq p hp

/-- The word characters of a token are outside comments. -/
theorem mem_of_isWordChar (h : Traces characters tokens) {token : List (Nat × Char)}
    (htoken : token ∈ tokens) (hp : p ∈ token) (hword : isWordChar p.2 = true) : p ∈ characters := by
  have hsolid : p ∈ Segment.solid tokens.flatten :=
    List.mem_filter.2 ⟨List.mem_flatten_of_mem htoken hp, by simp [Text.isBlank_of_isWordChar hword]⟩
  rw [h.complete] at hsolid
  exact List.mem_of_mem_filter hsolid

end Traces

/-! ### The invariant of a run -/

/-- Where the characters of the tokens of a segment stand: those of the begun token and of the ended
ones, the last one first, when `characters` are outside comments before `place`. -/
structure Follows (characters : List (Nat × Char)) (place : Nat) (s : Segment)
    (begun : List (Nat × Char)) (ended : List (List (Nat × Char))) : Prop where
  brackets : Brackets s (characters.map Prod.snd)
  buffer : s.buffer = textOf begun
  tokens : s.tokens = ended.map textOf
  traces : Traces characters (ended.reverse ++ [begun])
  /-- What stands last in the begun token is what a word character at the place would go on with. -/
  last (p : Nat × Char) (hp : isWordChar p.2 = true) :
    p ∈ begun.getLast? ↔ Reaches characters place p
  /-- A split is pending only behind a mark. -/
  split (h : s.splitPending = true) : ∀ p ∈ begun.getLast?, isWordChar p.2 = false

/-- The characters of the tokens of a segment can be told. -/
def Traced (characters : List (Nat × Char)) (place : Nat) (s : Segment) : Prop :=
  ∃ begun ended, Follows characters place s begun ended

variable {part : Part} {s s' : Segment} {place : Nat} {ended : List (List (Nat × Char))} {c : Char}

namespace Follows

/-- A flush ends the begun token. -/
theorem exists_flush (h : Follows characters place s begun ended) :
    ∃ ended : List (List (Nat × Char)),
      s.flush.tokens = ended.map textOf ∧ Traces characters ended.reverse := by
  have htraces := h.traces
  by_cases hbegun : begun = []
  · subst hbegun
    refine ⟨ended, ?_, Traces.concat_nil.1 htraces⟩
    rw [flush_of_buffer_eq h.buffer]
    exact h.tokens
  · have hbuffer : s.buffer ≠ "" := by
      rw [h.buffer]
      simpa using hbegun
    refine ⟨begun :: ended, ?_, ?_⟩
    · rw [tokens_flush_of_ne hbuffer, h.buffer, h.tokens, List.map_cons]
    · rwa [List.reverse_cons]

/-- Reopening takes the last token back if none is begun. -/
theorem exists_reopen (h : Follows characters place s begun ended) :
    ∃ (begun : List (Nat × Char)) (ended : List (List (Nat × Char))),
      s.reopen.buffer = textOf begun ∧ s.reopen.tokens = ended.map textOf ∧
        Traces characters (ended.reverse ++ [begun]) := by
  obtain ⟨ended', htokens, htraces⟩ := h.exists_flush
  cases ended' with
  | nil =>
      obtain ⟨hbuffer, hnone⟩ := reopen_of_flush_nil htokens
      exact ⟨[], [], hbuffer, hnone, Traces.concat_nil.2 htraces⟩
  | cons last ended' =>
      obtain ⟨hbuffer, hbefore⟩ := reopen_of_flush_cons htokens
      exact ⟨last, ended', hbuffer, hbefore, List.reverse_cons ▸ htraces⟩

/-- A segment with nothing begun. -/
theorem ended_only (hbrackets : Brackets s (characters.map Prod.snd)) (hbuffer : s.buffer = "")
    (htokens : s.tokens = ended.map textOf) (htraces : Traces characters ended.reverse)
    (hlast : ∀ p, isWordChar p.2 = true → ¬Reaches characters place p) :
    Follows characters place s [] ended where
  brackets := hbrackets
  buffer := hbuffer
  tokens := htokens
  traces := Traces.concat_nil.2 htraces
  last p hp := by simpa using hlast p hp
  split _ := by simp

/-- A character that goes to the begun token. -/
theorem push (hbrackets : Brackets s' (characters.map Prod.snd ++ [c]))
    (hbuffer : s'.buffer = (textOf begun).push c) (htokens : s'.tokens = ended.map textOf)
    (htraces : Traces characters (ended.reverse ++ [begun]))
    (hlast : isWordChar c = true → ∀ p, isWordChar p.2 = true →
      (p ∈ begun.getLast? ↔ Reaches characters place p))
    (hsplit : s'.splitPending = true → isWordChar c = false) :
    Follows (characters ++ [(place, c)]) (place + 1) s' (begun ++ [(place, c)]) ended where
  brackets := by simpa using hbrackets
  buffer := by rw [hbuffer, textOf_concat]
  tokens := htokens
  traces := htraces.push hlast
  last p hp := by
    rw [List.getLast?_concat, Option.mem_some_iff]
    constructor
    · rintro rfl
      exact ⟨characters, rfl, .inl rfl⟩
    · rintro ⟨before, heq, -⟩
      exact (List.concat_inj.1 (by simpa using heq)).2
  split h := by simpa using hsplit h

end Follows

namespace Traced

theorem empty (place : Nat) : Traced [] place empty := by
  refine ⟨[], [], .ended_only .empty rfl rfl .empty fun p _ => ?_⟩
  rintro ⟨before, heq, -⟩
  simp at heq

/-- A character that a segment takes. -/
theorem of_advance (h : Traced characters place s) (hadvance : Advance part s c s') :
    Traced (characters ++ [(place, c)]) (place + 1) s' := by
  obtain ⟨begun, ended, h⟩ := h
  have hbrackets := h.brackets.of_advance hadvance
  -- Most characters go to the begun token; before a few that one is ended, or the last one reopened.
  have hpush (hbuffer : s'.buffer = s.buffer.push c) (htokens : s'.tokens = s.tokens)
      (hsplit : s'.splitPending = true → isWordChar c = false) :
      Traced (characters ++ [(place, c)]) (place + 1) s' :=
    ⟨_, _, .push hbrackets (h.buffer ▸ hbuffer) (htokens.trans h.tokens) h.traces
      (fun _ => h.last) hsplit⟩
  have hpushed (heq : s' = s.push c) : Traced (characters ++ [(place, c)]) (place + 1) s' :=
    hpush (by rw [heq]; rfl) (by rw [heq]; rfl) (by rw [heq]; nofun)
  cases hadvance with
  | blank hblank =>
      by_cases htop : s.nesting = 0
      · obtain ⟨ended, htokens, htraces⟩ := h.exists_flush
        have hflushed : s.pushBlank c = s.flush := if_pos htop
        rw [hflushed] at hbrackets ⊢
        refine ⟨[], ended, .ended_only (by simpa using hbrackets) (buffer_flush s) htokens
          (htraces.gap hblank) fun p hp => ?_⟩
        rintro ⟨before, heq, -⟩
        obtain ⟨-, rfl⟩ := List.concat_inj.1 (by simpa using heq)
        rw [Text.isBlank_of_isWordChar hp] at hblank
        contradiction
      · exact hpushed (if_neg htop)
  | openAngle => exact hpush rfl rfl nofun
  | closeAngle hangle => exact hpush rfl rfl fun _ => by decide
  | openParen hinner => exact hpush rfl rfl nofun
  | closeParen hparen => exact hpush rfl rfl fun _ => by decide
  | marker hmarker htop =>
      obtain ⟨begun, ended, hbuffer, htokens, htraces⟩ := h.exists_reopen
      have hword := isWordChar_of_isMarker hmarker
      refine ⟨_, _, .push hbrackets ?_ htokens htraces ?_ fun _ => hword⟩
      · rw [← hbuffer]
        rfl
      · rw [hword]
        nofun
  | ordinary hblank hplain hcomma hmarker =>
      by_cases hsplit : (s.splitPending && isWordChar c) = true
      · obtain ⟨ended, htokens, htraces⟩ := h.exists_flush
        have hflushed : s.pushOrdinary c = s.flush.push c := if_pos hsplit
        rw [Bool.and_eq_true] at hsplit
        rw [hflushed] at hbrackets ⊢
        refine ⟨_, _, .push hbrackets ?_ htokens (Traces.concat_nil.2 htraces) (fun _ p hp => ?_) nofun⟩
        · show s.flush.buffer.push c = _
          rw [buffer_flush]
          rfl
        · -- The split is pending behind a mark, and that is no word character.
          rw [← h.last p hp]
          refine iff_of_false (by simp) fun hlast => ?_
          rw [h.split hsplit.1 p hlast] at hp
          contradiction
      · exact hpushed (if_neg hsplit)

/-- A comment that a segment passes over. -/
theorem of_comment (h : Traced characters place s) (hbefore : ∀ p ∈ characters, p.1 < place)
    {place' : Nat} (hplace : place < place') (body : List Char) :
    Traced characters place' (s.absorb body) := by
  obtain ⟨begun, ended, h⟩ := h
  have hbrackets := h.brackets.absorb body
  by_cases htop : s.nesting = 0
  · obtain ⟨ended, htokens, htraces⟩ := h.exists_flush
    have hready : s.beforeComment = s.flush := if_pos htop
    refine ⟨[], ended, .ended_only hbrackets ?_ ?_ htraces fun p hp => ?_⟩
    · show s.beforeComment.buffer = ""
      rw [hready, buffer_flush]
    · show s.beforeComment.tokens = _
      rw [hready, htokens]
    · rintro ⟨before, rfl, hnext | hopen⟩
      · have := hbefore p (by simp)
        omega
      · exact hopen (h.brackets.balanced_iff.2 htop)
  · have hready : s.beforeComment = s := if_neg htop
    have hopen : ¬IsBalanced (characters.map Prod.snd) := mt h.brackets.balanced_iff.1 htop
    refine ⟨begun, ended, hbrackets, ?_, ?_, h.traces, fun p hp => ?_, ?_⟩
    · show s.beforeComment.buffer = _
      rw [hready, h.buffer]
    · show s.beforeComment.tokens = _
      rw [hready, h.tokens]
    · rw [h.last p hp]
      simp [Reaches, hopen]
    · show s.beforeComment.splitPending = true → _
      rw [hready]
      exact h.split

/-- What a run passes. -/
theorem of_run {index : Nat} {source text : List Char}
    (h : Traced (outside index source) (index + source.length) s) (hrun : Run part s text s')
    (hsource : Whole source) :
    Traced (outside index (source ++ text)) (index + (source ++ text).length) s' := by
  induction hrun generalizing source with
  | refl => simpa using h
  | @move s s₁ s' move rest hmove _ ih =>
      rw [← List.append_assoc]
      refine ih ?_ (hsource.append hmove.whole)
      rw [hsource, List.length_append, ← Nat.add_assoc]
      cases hmove with
      | char hadvance =>
          rw [Comment.outside_cons _ hadvance.ne_slash, Comment.outside_nil]
          exact h.of_advance hadvance
      | @comment body hbody =>
          rw [Comment.outside_closed _ hbody, List.append_nil]
          refine h.of_comment (fun p hp => (Comment.index_of_mem_outside hp).2) ?_ body
          simp

end Traced

/-- The tokens of a segment have traces in its text. -/
theorem exists_traces_of_run {text : List Char} (hrun : Run part .empty text s) (index : Nat) :
    ∃ tokens, Traces (outside index text) tokens ∧ s.flush.tokens.reverse = tokens.map textOf := by
  have hnothing : Traced (outside index []) (index + 0) empty := by
    rw [Comment.outside_nil]
    exact .empty index
  obtain ⟨begun, ended, h⟩ := hnothing.of_run hrun Comment.whole_nil
  obtain ⟨ended, htokens, htraces⟩ := h.exists_flush
  exact ⟨ended.reverse, htraces, by rw [htokens, List.map_reverse]⟩

/-! ### Words of the tokens -/

/-- Characters that stand one right behind the other make a piece of the text. -/
theorem prefix_of_places {text : List Char} {index : Nat} (first : Nat × Char)
    (characters : List (Nat × Char))
    (hplaces : ∀ p ∈ first :: characters, index ≤ p.1 ∧ text[p.1 - index]? = some p.2)
    (hchain : (first :: characters).IsChain fun p q => q.1 = p.1 + 1) :
    (first :: characters).map Prod.snd <+: text.drop (first.1 - index) := by
  obtain ⟨hfirst, hmore⟩ := List.forall_mem_cons.1 hplaces
  obtain ⟨hlength, hchar⟩ := List.getElem?_eq_some_iff.1 hfirst.2
  rw [List.drop_eq_getElem_cons hlength, hchar, List.map_cons, List.cons_prefix_cons]
  refine ⟨rfl, ?_⟩
  cases characters with
  | nil => exact List.nil_prefix
  | cons second characters =>
      obtain ⟨hnext, hchain⟩ := List.isChain_cons_cons.1 hchain
      have hrest := prefix_of_places second characters hmore hchain
      rwa [hnext, Nat.sub_add_comm hfirst.1] at hrest

/-- Where word characters that adjoin are side by side in the text, the words of the tokens are words of
the text. -/
theorem Traces.infix_of_spaced {text word : List Char} {index : Nat} {token : List (Nat × Char)}
    (h : Traces (outside index text) tokens) (hspaced : Spaced (outside index text))
    (htoken : token ∈ tokens) (hword : ∀ c ∈ word, isWordChar c = true)
    (hpiece : word <:+: (textOf token).toList) : word <:+: text := by
  obtain ⟨before, after, htext⟩ := hpiece
  obtain ⟨front, back, rfl, hfront, rfl⟩ := List.map_eq_append_iff.1
    ((String.toList_ofList ▸ htext).symm : token.map Prod.snd = before ++ word ++ after)
  obtain ⟨front, characters, rfl, rfl, rfl⟩ := List.map_eq_append_iff.1 hfront
  have hwords : ∀ p ∈ characters, isWordChar p.2 = true := fun p hp =>
    hword p.2 (List.mem_map_of_mem hp)
  cases characters with
  | nil => exact List.nil_infix
  | cons first characters =>
      have hinside : first :: characters <:+: front ++ first :: characters ++ back :=
        List.infix_append ..
      have hplaces : ∀ p ∈ first :: characters, index ≤ p.1 ∧ text[p.1 - index]? = some p.2 := by
        intro p hp
        have hmem := h.mem_of_isWordChar htoken (hinside.subset hp) (hwords p hp)
        exact ⟨(Comment.index_of_mem_outside hmem).1, Comment.getElem?_of_mem_outside hmem⟩
      have hchain : (first :: characters).IsChain fun p q => q.1 = p.1 + 1 := by
        refine (List.isChain_isInfix (first :: characters)).imp_of_mem_imp fun p q hp hq hpair => ?_
        refine hspaced p q (hwords p hp) (hwords q hq) ((h.side p q (hwords p hp) (hwords q hq)).1 ?_)
        exact ⟨_, htoken, hpair.trans hinside⟩
      exact (prefix_of_places first characters hplaces hchain).isInfix.trans
        (List.drop_suffix _ _).isInfix

end Segment
end ExportIndex
