import ExportIndex.Proofs.Segment.Tokens

/-!
# Tags do not take part in reading

A comment outside all brackets leaves its tags with the segment it stands in.  They are kept for the
type and decide nothing else.

* `Run.retag` and `Ends.retag` — a segment with other tags is read alike, and the tags that are met on
  the way come behind those it has.
* `Tagged` compares segments of which the second has more tags, and `TaggedAlike` what is read of them.
* `taggedAlike_retag` — segments that differ in tags alone are read alike.
-/

namespace ExportIndex
namespace Segment

variable {part : Part} {s s' : Segment}

/-! ### Other tags -/

theorem beforeComment_retag (s : Segment) (tags : List String) :
    (s.retag tags).beforeComment = s.beforeComment.retag tags := by
  show (if s.nesting = 0 then _ else _) = retag (if s.nesting = 0 then _ else _) tags
  split
  · exact flush_retag s tags
  · rfl

theorem split?_retag (s : Segment) (tags : List String) : (s.retag tags).split? = s.split? := by
  rw [split?, flush_retag]
  rfl

/-- A move adds tags of its own and looks at none. -/
theorem Move.retag {text : List Char} (h : Move part s text s') :
    ∃ more, s'.tags = s.tags ++ more ∧
      ∀ tags, Move part (s.retag tags) text (s'.retag (tags ++ more)) := by
  cases h with
  | char hadvance =>
      refine ⟨[], by rw [hadvance.tags, List.append_nil], fun tags => ?_⟩
      rw [List.append_nil]
      exact .char (hadvance.retag tags)
  | @comment body hbody =>
      refine ⟨Comment.tagsOf s.nesting body, rfl, fun tags => ?_⟩
      have habsorb : (s.retag tags).absorb body =
          (s.absorb body).retag (tags ++ Comment.tagsOf s.nesting body) := by
        rw [absorb, beforeComment_retag]
        rfl
      rw [← habsorb]
      exact .comment hbody

/-- A run adds tags of its own and looks at none. -/
theorem Run.retag {text : List Char} (h : Run part s text s') :
    ∃ more, s'.tags = s.tags ++ more ∧
      ∀ tags, Run part (s.retag tags) text (s'.retag (tags ++ more)) := by
  induction h with
  | refl s =>
      refine ⟨[], (List.append_nil _).symm, fun tags => ?_⟩
      rw [List.append_nil]
      exact .refl _
  | move hmove _ ih =>
      obtain ⟨more, hmore, hmoves⟩ := hmove.retag
      obtain ⟨later, hlater, hruns⟩ := ih
      refine ⟨more ++ later, by rw [hlater, hmore, List.append_assoc], fun tags => ?_⟩
      rw [← List.append_assoc]
      exact .move (hmoves tags) (hruns (tags ++ more))

/-- What stops a segment has nothing to do with its tags. -/
theorem Stop.retag {text : List Char} {result : Except Halt Delimiter}
    (h : Stop part s text result s') :
    s'.tags = s.tags ∧ ∀ tags, Stop part (s.retag tags) text result (s'.retag tags) := by
  cases h with
  | delimiter hdelimits =>
      refine ⟨rfl, fun tags => .delimiter ?_⟩
      cases hdelimits with
      | opening hpart htop => exact .opening hpart htop
      | comma hpart htop => exact .comma hpart htop
      | closing hpart htop => exact .closing hpart htop
  | flaw hstep =>
      refine ⟨rfl, fun tags => .flaw (step_eq_flaw_iff.2 ?_)⟩
      cases step_eq_flaw_iff.1 hstep with
      | closeAngle hangle => exact .closeAngle hangle
      | closeHead hpart hparen => exact .closeHead hpart hparen
      | closeParameters hpart hparen hangle => exact .closeParameters hpart hparen hangle
  | comment hslash hstar =>
      refine ⟨tags_beforeComment s, fun tags => ?_⟩
      rw [← beforeComment_retag]
      exact .comment hslash hstar

/-- A segment with other tags ends alike. -/
theorem Ends.retag {text : List Char} {result : Except Halt Delimiter}
    (h : Ends part s text result s') :
    ∃ more, s'.tags = s.tags ++ more ∧
      ∀ tags, Ends part (s.retag tags) text result (s'.retag (tags ++ more)) := by
  obtain ⟨hrun, hstop⟩ := h
  obtain ⟨more, hmore, hruns⟩ := hrun.retag
  obtain ⟨htags, hstops⟩ := hstop.retag
  exact ⟨more, htags.trans hmore, fun tags => .intro (hruns tags) (hstops (tags ++ more))⟩

/-! ### More tags -/

theorem isEmpty_flush (s : Segment) : s.flush.isEmpty = s.isEmpty := by
  rw [Bool.eq_iff_iff, isEmpty_iff_flush_tokens, isEmpty_iff_flush_tokens, flush_flush]

theorem split?_flush (s : Segment) : s.flush.split? = s.split? := by
  rw [split?, flush_flush]
  rfl

/-- The second segment holds the tokens of the first one, and it has the given words among its tags,
too. -/
def Tagged (words : List String) (s s' : Segment) : Prop :=
  ∃ tags, s'.flush = s.flush.retag tags ∧ ∀ tag, tag ∈ tags ↔ tag ∈ s.tags ∨ tag ∈ words

theorem Tagged.isEmpty {words : List String} (h : Tagged words s s') : s'.isEmpty = s.isEmpty := by
  obtain ⟨tags, hflush, -⟩ := h
  rw [← isEmpty_flush, hflush, ← isEmpty_flush s]
  rfl

theorem Tagged.split? {words : List String} (h : Tagged words s s') : s'.split? = s.split? := by
  obtain ⟨tags, hflush, -⟩ := h
  rw [← split?_flush, hflush, split?_retag, split?_flush]

theorem Tagged.tags {words : List String} (h : Tagged words s s') (tag : String) :
    tag ∈ s'.tags ↔ tag ∈ s.tags ∨ tag ∈ words := by
  obtain ⟨tags, hflush, hwords⟩ := h
  rw [← tags_flush, hflush]
  exact hwords tag

/-- Two readings with the same result; if that is a delimiter, the same text is left, and the second
segment is the first one with the given words among its tags, too. -/
structure TaggedAlike (words : List String) (x y : Reading) : Prop where
  result : x.result = y.result
  segment {delimiter : Delimiter} (h : x.result = .ok delimiter) :
    Tagged words x.segment y.segment
  rest {delimiter : Delimiter} (h : x.result = .ok delimiter) : x.reader.rest = y.reader.rest

/-- Segments that differ in tags alone are read alike, wherever they stand. -/
theorem taggedAlike_retag {words tags : List String}
    (hwords : ∀ tag, tag ∈ tags ↔ tag ∈ s.tags ∨ tag ∈ words) {r r' : Reader}
    (hrest : r.rest = r'.rest) :
    TaggedAlike words (read part s r) (read part (s.retag tags) r') := by
  obtain ⟨past, rest, undoable⟩ := r
  obtain ⟨past', _, undoable'⟩ := r'
  obtain rfl : rest = _ := hrest
  rcases ends_or_unterminated part s ⟨past, rest, undoable⟩ with hend | ⟨text, rest, rfl, hends⟩
  · -- If the second segment came to an end, so would the first.
    have hend' : (read part (s.retag tags) ⟨past', rest, undoable'⟩).result =
        .error .unterminated := by
      rcases ends_or_unterminated part (s.retag tags) ⟨past', rest, undoable'⟩ with
        hend' | ⟨text, rest', hrest, hends⟩
      · exact hend'
      · obtain rfl : rest = text ++ rest' := hrest
        obtain ⟨more, -, hretag⟩ := hends.retag
        have hends' : Ends part s text _ _ := hretag s.tags
        rwa [read_of_ends hends' past rest' undoable] at hend
    refine ⟨hend.trans hend'.symm, fun hok => ?_, fun hok => ?_⟩
    · rw [hend] at hok
      contradiction
    · rw [hend] at hok
      contradiction
  · obtain ⟨more, hmore, hretag⟩ := hends.retag
    generalize (read part s ⟨past, text ++ rest, undoable⟩).result = result at hends hretag
    generalize (read part s ⟨past, text ++ rest, undoable⟩).segment = s₁ at hends hretag hmore
    rw [read_of_ends hends past rest undoable, read_of_ends (hretag tags) past' rest undoable']
    refine ⟨rfl, fun _ => ⟨tags ++ more, flush_retag _ _, fun tag => ?_⟩, fun _ => rfl⟩
    show tag ∈ tags ++ more ↔ tag ∈ s₁.tags ∨ tag ∈ words
    rw [hmore, List.mem_append, List.mem_append, hwords]
    exact or_right_comm

end Segment
end ExportIndex
