import ExportIndex.CType.Fragment
import ExportIndex.Proofs.Comment.Printing
import ExportIndex.Proofs.Segment.Run

/-!
# Tokens are read again

A token is made of characters that came one by one, over blanks, comments and marks that were taken
back.  Its text alone, behind the tokens before it, is read to the same token.

* `IsToken` says this of one token, `Tokens` of every token of a list, the last one first.
* `Intact` is the invariant of a run: the tokens are `Tokens`, and the begun one is read again so far.
* `run_join` — the tokens, joined by spaces, are read to the same tokens.
-/

namespace ExportIndex
namespace Segment

open Text (isBlank isWordChar)

variable {part : Part} {s s' : Segment}

/-- A segment that holds complete tokens outside all brackets, and nothing begun. -/
def behind (tags tokens : List String) : Segment :=
  ⟨"", tokens, tags, 0, 0, false⟩

/-- A text that is read to one token behind the given tokens. -/
structure IsToken (part : Part) (tokens : List String) (token : String) : Prop where
  ne_empty : token ≠ ""
  run (tags : List String) :
    ∃ split, Run part (behind tags tokens) token.toList ⟨token, tokens, tags, 0, 0, split⟩

/-- Each token is read again behind those before it; the last one comes first. -/
inductive Tokens (part : Part) : List String → Prop
  | nil : Tokens part []
  | cons {token : String} {tokens : List String} (htoken : IsToken part tokens token)
      (htokens : Tokens part tokens) : Tokens part (token :: tokens)

theorem Tokens.of_cons {token : String} {tokens : List String} (h : Tokens part (token :: tokens)) :
    IsToken part tokens token ∧ Tokens part tokens := by
  cases h with
  | cons htoken htokens => exact ⟨htoken, htokens⟩

/-- What has been read is read again: the tokens, and the begun token with its brackets. -/
structure Intact (part : Part) (s : Segment) : Prop where
  tokens : Tokens part s.tokens
  buffer (tags : List String) :
    Run part (behind tags s.tokens) s.buffer.toList (s.retag tags)
  split (h : s.splitPending = true) : s.nesting = 0

/-! ### Segments with other tags -/

theorem reopen_retag (s : Segment) (tags : List String) :
    (s.retag tags).reopen = s.reopen.retag tags := by
  obtain ⟨buffer, tokens, oldTags, angle, paren, splitPending⟩ := s
  cases tokens with
  | nil => rfl
  | cons last tokens =>
      show (if buffer.isEmpty then _ else _) = retag (if buffer.isEmpty then _ else _) tags
      split <;> rfl

theorem pushBlank_retag (s : Segment) (c : Char) (tags : List String) :
    (s.retag tags).pushBlank c = (s.pushBlank c).retag tags := by
  show (if s.nesting = 0 then _ else _) = retag (if s.nesting = 0 then _ else _) tags
  split
  · exact flush_retag s tags
  · rfl

theorem pushMarker_retag (s : Segment) (c : Char) (tags : List String) :
    (s.retag tags).pushMarker c = (s.pushMarker c).retag tags := by
  rw [pushMarker, reopen_retag]
  rfl

theorem pushOrdinary_retag (s : Segment) (c : Char) (tags : List String) :
    (s.retag tags).pushOrdinary c = (s.pushOrdinary c).retag tags := by
  show (if s.splitPending && isWordChar c then _ else _) = _
  rw [pushOrdinary, flush_retag]
  split <;> rfl

/-- What a character does has nothing to do with the tags. -/
theorem Advance.retag {c : Char} (h : Advance part s c s') (tags : List String) :
    Advance part (s.retag tags) c (s'.retag tags) := by
  cases h with
  | blank hblank =>
      rw [← pushBlank_retag]
      exact .blank hblank
  | openAngle => exact .openAngle
  | closeAngle hangle => exact .closeAngle hangle
  | openParen hinner => exact .openParen hinner
  | closeParen hparen => exact .closeParen hparen
  | marker hmarker htop =>
      rw [← pushMarker_retag]
      exact .marker hmarker htop
  | ordinary hblank hplain hcomma hmarker =>
      rw [← pushOrdinary_retag]
      exact .ordinary hblank hplain hcomma hmarker

/-- A character adds no tags. -/
theorem Advance.tags {c : Char} (h : Advance part s c s') : s'.tags = s.tags := by
  have hmore : Step.more s' = Step.more (s'.retag s.tags) := by
    rw [← step_of_advance h]
    exact step_of_advance (h.retag s.tags)
  injection hmore with hsame
  rw [hsame]
  rfl

/-! ### The invariant -/

theorem brackets_of_nesting (h : s.nesting = 0) : s.angle = 0 ∧ s.paren = 0 := by
  unfold nesting at h
  omega

theorem Run.eq_of_nil (h : Run part s [] s') : s' = s :=
  h.unique (.refl s)

/-- With a character more the begun token is read again as it was read first. -/
theorem run_push {buffer : List Char} {c : Char} {tags tokens : List String}
    (hrun : Run part (behind tags tokens) buffer (s.retag tags)) (hadvance : Advance part s c s') :
    Run part (behind tags tokens) (buffer ++ [c]) (s'.retag tags) :=
  hrun.trans (Move.char (hadvance.retag tags)).run

namespace Intact

theorem empty : Intact part empty where
  tokens := .nil
  buffer tags := .refl (behind tags [])
  split h := absurd h Bool.false_ne_true

/-- Without a begun token there are no brackets and no pending split. -/
theorem eq_behind (h : Intact part s) (hbuffer : s.buffer = "") : s = behind s.tags s.tokens := by
  have hrun := h.buffer s.tags
  rw [hbuffer] at hrun
  exact hrun.eq_of_nil

/-- Outside all brackets the begun token is read again as a token. -/
theorem isToken (h : Intact part s) (htop : s.nesting = 0) (hbuffer : s.buffer ≠ "") :
    IsToken part s.tokens s.buffer where
  ne_empty := hbuffer
  run tags := by
    obtain ⟨hangle, hparen⟩ := brackets_of_nesting htop
    have hrun := h.buffer tags
    rw [retag, hangle, hparen] at hrun
    exact ⟨s.splitPending, hrun⟩

/-- Complete tokens that are read again make an intact segment. -/
theorem of_tokens {tokens : List String} (h : Tokens part tokens) (tags : List String) :
    Intact part (behind tags tokens) where
  tokens := h
  buffer tags' := .refl (behind tags' tokens)
  split h := absurd h Bool.false_ne_true

/-- Outside all brackets a flush leaves complete tokens that are read again. -/
theorem flush (h : Intact part s) (htop : s.nesting = 0) :
    ∃ tokens, Tokens part tokens ∧ s.flush = behind s.tags tokens := by
  by_cases hbuffer : s.buffer = ""
  · refine ⟨s.tokens, h.tokens, ?_⟩
    rw [flush_of_buffer_eq hbuffer]
    exact congrArg (fun s : Segment => { s with splitPending := false }) (h.eq_behind hbuffer)
  · obtain ⟨hangle, hparen⟩ := brackets_of_nesting htop
    refine ⟨s.buffer :: s.tokens, .cons (h.isToken htop hbuffer) h.tokens, ?_⟩
    rw [Segment.flush, if_neg (by simpa using hbuffer), hangle, hparen]
    rfl

theorem of_flush (h : Intact part s) (htop : s.nesting = 0) : Intact part s.flush := by
  obtain ⟨tokens, htokens, hflush⟩ := h.flush htop
  rw [hflush]
  exact of_tokens htokens s.tags

/-- A character that is added to the begun token leaves a segment intact. -/
theorem of_push (h : Intact part s) {c : Char} (hadvance : Advance part s c s')
    (htokens : s'.tokens = s.tokens) (hbuffer : s'.buffer = s.buffer.push c)
    (hsplit : s'.splitPending = true → s'.nesting = 0) : Intact part s' where
  tokens := by
    rw [htokens]
    exact h.tokens
  buffer tags := by
    rw [htokens, hbuffer, String.toList_push]
    exact run_push (h.buffer tags) hadvance
  split := hsplit

/-- A marker takes back the last token, which is read again up to where it stood. -/
theorem takeBack {last : String} {tokens tags : List String} (h : Tokens part (last :: tokens))
    {c : Char} (hmarker : IsMarker c) :
    Intact part ((behind tags (last :: tokens)).pushMarker c) := by
  obtain ⟨htoken, htokens⟩ := h.of_cons
  refine ⟨htokens, ?_, fun _ => rfl⟩
  intro tags
  obtain ⟨split, hrun⟩ := htoken.run tags
  have hadvance : Advance part ⟨last, tokens, tags, 0, 0, split⟩ c
      ⟨last.push c, tokens, tags, 0, 0, true⟩ := by
    have hpush : pushMarker ⟨last, tokens, tags, 0, 0, split⟩ c =
        ⟨last.push c, tokens, tags, 0, 0, true⟩ := by
      rw [pushMarker, reopen_of_ne htoken.ne_empty]
      rfl
    rw [← hpush]
    exact .marker hmarker rfl
  show Run part (behind tags tokens) (last.push c).toList _
  rw [String.toList_push]
  exact hrun.trans (Move.char hadvance).run

theorem pushMarker (h : Intact part s) {c : Char} (hmarker : IsMarker c) (htop : s.nesting = 0) :
    Intact part (s.pushMarker c) := by
  have hpushed (hreopen : s.reopen = s) : Intact part (s.pushMarker c) := by
    have hadvance : Advance part s c (s.pushMarker c) := .marker hmarker htop
    have hpush : s.pushMarker c = { s.push c with splitPending := true } := by
      rw [Segment.pushMarker, hreopen]
    rw [hpush] at hadvance ⊢
    exact h.of_push hadvance rfl rfl fun _ => htop
  by_cases hbuffer : s.buffer = ""
  · cases htokens : s.tokens with
    | nil =>
        apply hpushed
        rw [reopen, htokens]
    | cons last tokens =>
        rw [h.eq_behind hbuffer, htokens]
        exact takeBack (htokens ▸ h.tokens) hmarker
  · exact hpushed (reopen_of_ne hbuffer)

theorem pushOrdinary (h : Intact part s) {c : Char} (hadvance : Advance part s c (s.pushOrdinary c))
    (hflushed : Advance part s.flush c (s.flush.push c)) : Intact part (s.pushOrdinary c) := by
  unfold Segment.pushOrdinary at hadvance ⊢
  split
  · rename_i hsplit
    rw [Bool.and_eq_true] at hsplit
    exact (h.of_flush (h.split hsplit.1)).of_push hflushed rfl rfl
      fun hsplit => absurd hsplit Bool.false_ne_true
  · rename_i hsplit
    rw [if_neg hsplit] at hadvance
    exact h.of_push hadvance rfl rfl
      fun hsplit => absurd hsplit Bool.false_ne_true

/-- A character leaves a segment intact. -/
theorem advance (h : Intact part s) {c : Char} (hadvance : Advance part s c s') :
    Intact part s' := by
  cases hadvance with
  | blank hblank =>
      by_cases htop : s.nesting = 0
      · rw [pushBlank, if_pos htop]
        exact h.of_flush htop
      · have hpush : s.pushBlank c = s.push c := if_neg htop
        have hadvance : Advance part s c (s.pushBlank c) := .blank hblank
        rw [hpush] at hadvance ⊢
        exact h.of_push hadvance rfl rfl fun hsplit => absurd hsplit Bool.false_ne_true
  | openAngle =>
      exact h.of_push .openAngle rfl rfl fun hsplit => absurd hsplit Bool.false_ne_true
  | closeAngle hangle => exact h.of_push (.closeAngle hangle) rfl rfl fun hsplit => beq_iff_eq.1 hsplit
  | openParen hinner =>
      exact h.of_push (.openParen hinner) rfl rfl fun hsplit => absurd hsplit Bool.false_ne_true
  | closeParen hparen => exact h.of_push (.closeParen hparen) rfl rfl fun hsplit => beq_iff_eq.1 hsplit
  | marker hmarker htop => exact h.pushMarker hmarker htop
  -- Behind a mark the character begins a token of its own, which is the same from a flushed segment.
  | ordinary hblank hplain hcomma hmarker =>
      refine h.pushOrdinary (.ordinary hblank hplain hcomma hmarker) ?_
      have hpush : s.flush.pushOrdinary c = s.flush.push c := by
        simp [Segment.pushOrdinary]
      rw [← hpush]
      exact .ordinary hblank hplain (by simpa using hcomma) (by simpa using hmarker)

theorem of_retag (h : Intact part s) (tags : List String) : Intact part (s.retag tags) where
  tokens := h.tokens
  buffer := h.buffer
  split := h.split

/-- A run leaves a segment intact. -/
theorem run {text : List Char} (h : Intact part s) (hrun : Run part s text s') : Intact part s' := by
  induction hrun with
  | refl => exact h
  | move hmove _ ih =>
      apply ih
      cases hmove with
      | char hadvance => exact h.advance hadvance
      | @comment body hbody =>
          -- Apart from its tags a comment is a blank outside all brackets and nothing inside.
          refine of_retag ?_ _
          unfold beforeComment
          split
          · rename_i htop
            exact h.of_flush htop
          · exact h

end Intact

/-- A run adds only tags that can stand in a tag block. -/
theorem Run.isTag {text : List Char} (h : Run part s text s')
    (htags : ∀ tag ∈ s.tags, Comment.IsTag tag) : ∀ tag ∈ s'.tags, Comment.IsTag tag := by
  induction h with
  | refl => exact htags
  | move hmove _ ih =>
      apply ih
      cases hmove with
      | char hadvance =>
          rw [hadvance.tags]
          exact htags
      | comment hbody =>
          intro tag htag
          rcases List.mem_append.1 htag with htag | htag
          · exact htags tag htag
          · exact Comment.isTag_of_mem_tagsOf hbody htag

/-! ### Reading again -/

theorem run_space (s : Segment) (htop : s.nesting = 0) : Run part s [' '] s.flush := by
  have hadvance : Advance part s ' ' (s.pushBlank ' ') := .blank (by decide)
  rw [pushBlank, if_pos htop] at hadvance
  exact (Move.char hadvance).run

/-- A token with a space behind it is read to one token. -/
theorem IsToken.run_space {tokens : List String} {token : String} (h : IsToken part tokens token)
    (tags : List String) :
    Run part (behind tags tokens) (token.toList ++ [' ']) (behind tags (token :: tokens)) := by
  obtain ⟨split, hrun⟩ := h.run tags
  have hflush : flush ⟨token, tokens, tags, 0, 0, split⟩ = behind tags (token :: tokens) :=
    if_neg (by simpa using h.ne_empty)
  rw [← hflush]
  exact hrun.trans (Segment.run_space _ rfl)

/-- The tokens of a list, joined by spaces and with one behind, are read to the same tokens. -/
theorem Tokens.run_join {tokens : List String} (h : Tokens part tokens) (tags : List String) :
    Run part (behind tags []) ((CType.join tokens.reverse).toList ++ [' ']) (behind tags tokens) := by
  induction h with
  | nil => exact run_space (behind tags []) rfl
  | @cons token tokens htoken htokens ih =>
      -- The first token has no space before it.
      by_cases hfirst : tokens = []
      · subst hfirst
        exact htoken.run_space tags
      · have hjoin : (CType.join (token :: tokens).reverse).toList ++ [' '] =
            ((CType.join tokens.reverse).toList ++ [' ']) ++ (token.toList ++ [' ']) := by
          rw [List.reverse_cons, CType.join, String.intercalate_append_of_ne_nil (by simpa using hfirst)
            (List.cons_ne_nil token []), CType.join]
          simp
        rw [hjoin]
        exact ih.trans (htoken.run_space tags)

/-- A printed set of tags is read to these tags. -/
theorem run_print {tags : TagSet} (h : ∀ tag ∈ tags.words, Comment.IsTag tag) :
    Run part .empty tags.print.toList (behind tags.words []) := by
  rw [Comment.toList_print]
  split
  · rename_i hwords
    rw [hwords]
    exact .refl empty
  · have habsorb : empty.absorb (Comment.blockOf tags.words) = behind tags.words [] := by
      show { empty with tags := [] ++ Comment.tagsOf 0 (Comment.blockOf tags.words) } = _
      rw [Comment.tagsOf_blockOf h]
      rfl
    have hmove : Move part empty ('/' :: Comment.blockOf tags.words) (behind tags.words []) :=
      habsorb ▸ .comment (Comment.isBody_blockOf h)
    exact .move hmove (run_space _ rfl)

end Segment
end ExportIndex
