import Mathlib.Data.List.Basic
import Mathlib.Logic.Relation
import ExportIndex.Proofs.Declaration.Places

/-!
# Layout between tokens

Outside all brackets a blank more or less does not matter, as long as it does not cut a word in two.

* `Loose` lists the points of a segment where a blank changes nothing; `alike_flush_of_loose` says
  why: there a flushed segment does what the segment itself does.
* `Reaches` lists the points that scanning a declaration passes.
* `Alike` compares what two readers find: the same result, with the same text behind it.
* `scan_respaced` — texts that differ in such blanks scan to the same declaration.
-/

namespace ExportIndex

open Text (isBlank isWordChar)

/-- Why a scan stopped, without the place. -/
def ScanError.halt : ScanError → Halt
  | .unterminated => .unterminated
  | .flawed flaw _ => .flawed flaw
  | .undoRefused => .undoRefused

namespace Segment

variable {part : Part} {s s' : Segment}

/-! ### Points where a blank changes nothing -/

/-- Whether a character can end a segment outside all brackets. -/
def IsDelimiter : Part → Char → Prop
  | .head, c => c = '('
  | .parameters, c => c = ',' ∨ c = ')'

/-- The points of a segment, between what has been read of it and what follows, where a blank outside
all brackets changes nothing. -/
inductive Loose (part : Part) : List Char → List Char → Prop
  /-- The start of the segment. -/
  | start (rest : List Char) : Loose part [] rest
  | behindBlank {c : Char} (hblank : isBlank c = true) (text rest : List Char) :
      Loose part (text ++ [c]) rest
  | behindComment {s : Segment} {text body : List Char} (hrun : Run part .empty text s)
      (hbody : Comment.IsBody body) (rest : List Char) : Loose part (text ++ '/' :: body) rest
  | beforeBlank {c : Char} (hblank : isBlank c = true) (text rest : List Char) :
      Loose part text (c :: rest)
  | beforeMarker {c : Char} (hmarker : IsMarker c) (text rest : List Char) :
      Loose part text (c :: rest)
  | beforeComment (text rest : List Char) : Loose part text ('/' :: rest)
  | beforeDelimiter {c : Char} (hdelimiter : IsDelimiter part c) (text rest : List Char) :
      Loose part text (c :: rest)
  | betweenMarkAndWord {b c : Char} (hmark : IsMark b) (hword : isWordChar c = true)
      (text rest : List Char) : Loose part (text ++ [b]) (c :: rest)

/-! ### Flushed segments -/

/-- A marker takes back the token that a flush has ended. -/
theorem pushMarker_flush (s : Segment) (c : Char) : s.flush.pushMarker c = s.pushMarker c := by
  obtain ⟨buffer, tokens, tags, angle, paren, splitPending⟩ := s
  by_cases hbuffer : buffer = ""
  · subst hbuffer
    cases tokens with
    | nil => rfl
    | cons last tokens => rfl
  · have hfull : buffer.isEmpty = false := by simpa using hbuffer
    cases tokens with
    | nil => simp [flush, pushMarker, reopen, push, hfull]
    | cons last tokens => simp [flush, pushMarker, reopen, push, hfull]

/-- A word behind a mark starts a token, whether the one before it has been ended or not. -/
theorem pushOrdinary_flush {c : Char} (hsplit : s.splitPending = true) (hword : isWordChar c = true) :
    s.flush.pushOrdinary c = s.pushOrdinary c := by
  simp [pushOrdinary, hsplit, hword]

theorem not_special_of_isWordChar {c : Char} (h : isWordChar c = true) :
    (c ≠ '/' ∧ c ≠ '<' ∧ c ≠ '>' ∧ c ≠ '(' ∧ c ≠ ')') ∧ c ≠ ',' ∧ ¬IsMarker c := by
  have hnot {d : Char} (hd : isWordChar d = false) : c ≠ d := by
    rintro rfl
    rw [h] at hd
    contradiction
  refine ⟨⟨?_, ?_, ?_, ?_, ?_⟩, ?_, ?_⟩
  iterate 6 exact hnot (by decide)
  rintro (hc | hc)
  · exact hnot (by decide) hc
  · exact hnot (by decide) hc

theorem flush_absorb (s : Segment) (body : List Char) (htop : s.nesting = 0) :
    (s.absorb body).flush = s.absorb body := by
  rw [flush_eq_self_iff, absorb, beforeComment, if_pos htop]
  exact ⟨buffer_flush s, splitPending_flush s⟩

/-- The last character of a run was read by itself, or it ends a comment. -/
theorem last_of_run {s₀ : Segment} {text : List Char} {c : Char}
    (hrun : Run part s₀ (text ++ [c]) s) :
    (∃ s₁, Advance part s₁ c s) ∨
      ∃ (s₁ : Segment) (body : List Char), s = s₁.absorb body ∧ Comment.IsBody body ∧ body.getLast? = some c := by
  rcases hrun.last with ⟨hnil, -⟩ | ⟨before, last, s₁, htext, -, hmove⟩
  · simp at hnil
  · have hlast := congrArg List.getLast? htext
    cases hmove with
    | char hadvance =>
        obtain rfl : c = _ := by simpa using hlast
        exact .inl ⟨s₁, hadvance⟩
    | @comment body hbody =>
        obtain ⟨d, hd⟩ : ∃ d, body.getLast? = some d := by
          rcases hbody.getLast? with h | h
          · exact ⟨_, h⟩
          · exact ⟨_, h⟩
        obtain rfl : c = d := by simpa [List.getLast?_append, List.getLast?_cons, hd] using hlast
        exact .inr ⟨s₁, body, rfl, hbody, hd⟩

/-- Behind a blank outside all brackets no token is begun. -/
theorem flush_of_last_blank {text : List Char} {c : Char}
    (hrun : Run part .empty (text ++ [c]) s) (htop : s.nesting = 0) (hblank : isBlank c = true) :
    s.flush = s := by
  rcases last_of_run hrun with ⟨s₁, hadvance⟩ | ⟨s₁, body, rfl, -, -⟩
  · cases hadvance with
    | blank _ =>
        rw [nesting_pushBlank] at htop
        rw [pushBlank, if_pos htop, flush_flush]
    | openAngle => exact absurd hblank (by decide)
    | closeAngle _ => exact absurd hblank (by decide)
    | openParen _ => exact absurd hblank (by decide)
    | closeParen _ => exact absurd hblank (by decide)
    | marker hmarker _ => simp [isBlank_of_isMarker hmarker] at hblank
    | ordinary hplain _ _ _ => simp [hplain] at hblank
  · exact flush_absorb s₁ body (by simpa using htop)

/-- Behind a comment outside all brackets no token is begun. -/
theorem flush_of_last_comment {text body : List Char} (hbody : Comment.IsBody body)
    {s₁ : Segment} (hrun₁ : Run part .empty text s₁)
    (hrun : Run part .empty (text ++ '/' :: body) s) (htop : s.nesting = 0) : s.flush = s := by
  obtain rfl : s = s₁.absorb body := (hrun₁.trans (Move.comment hbody).run).unique hrun |>.symm
  exact flush_absorb s₁ body (by simpa using htop)

/-- Behind a mark outside all brackets a word starts a token of its own. -/
theorem splitPending_of_last_mark {text : List Char} {b : Char}
    (hrun : Run part .empty (text ++ [b]) s) (htop : s.nesting = 0) (hmark : IsMark b) :
    s.splitPending = true := by
  rcases last_of_run hrun with ⟨s₁, hadvance⟩ | ⟨s₁, body, rfl, hbody, hlast⟩
  · cases hadvance with
    | blank hblank => simp [isBlank_of_isMark hmark] at hblank
    | openAngle => rcases hmark with (h | h) | h | h <;> exact absurd h (by decide)
    | closeAngle hangle =>
        rw [nesting_pushClosing] at htop
        exact beq_iff_eq.2 htop
    | openParen _ => rcases hmark with (h | h) | h | h <;> exact absurd h (by decide)
    | closeParen hparen =>
        rw [nesting_pushClosing] at htop
        exact beq_iff_eq.2 htop
    | marker _ _ => rfl
    | ordinary _ hplain _ hnested =>
        rcases hmark with hmarker | rfl | rfl
        · rw [nesting_pushOrdinary] at htop
          exact absurd htop (hnested hmarker)
        · exact absurd rfl hplain.2.2.1
        · exact absurd rfl hplain.2.2.2.2
  · rcases hbody.getLast? with h | h
    · rw [h, Option.some_inj] at hlast
      subst hlast
      rcases hmark with (h | h) | h | h <;> exact absurd h (by decide)
    · rw [h, Option.some_inj] at hlast
      subst hlast
      rcases hmark with (h | h) | h | h <;> exact absurd h (by decide)

/-! ### Reading with and without a blank -/

theorem exists_delimits {c : Char} (h : IsDelimiter part c) (htop : s.nesting = 0) :
    ∃ delimiter, Delimits part s c delimiter := by
  cases part with
  | head =>
      obtain rfl : c = '(' := h
      exact ⟨.opening, .opening rfl htop⟩
  | parameters =>
      rcases h with rfl | rfl
      · exact ⟨.comma, .comma rfl htop⟩
      · exact ⟨.closing, .closing rfl htop⟩

/-- Two readings with the same result; if that is a delimiter, they hold the same tokens and the same
text is left. -/
structure Alike (x y : Reading) : Prop where
  result : x.result = y.result
  segment {delimiter : Delimiter} (h : x.result = .ok delimiter) : x.segment.flush = y.segment.flush
  rest {delimiter : Delimiter} (h : x.result = .ok delimiter) : x.reader.rest = y.reader.rest

theorem Alike.symm {x y : Reading} (h : Alike x y) : Alike y x where
  result := h.result.symm
  segment hy := (h.segment (h.result.trans hy)).symm
  rest hy := (h.rest (h.result.trans hy)).symm

theorem Alike.tagged {x y : Reading} (h : Alike x y) : TaggedAlike [] x y where
  result := h.result
  segment hx := ⟨x.segment.tags, by rw [← h.segment hx, ← tags_flush x.segment]; rfl, by simp⟩
  rest := h.rest

theorem Alike.trans {x y z : Reading} (hxy : Alike x y) (hyz : Alike y z) : Alike x z where
  result := hxy.result.trans hyz.result
  segment hx := (hxy.segment hx).trans (hyz.segment (hxy.result.symm.trans hx))
  rest hx := (hxy.rest hx).trans (hyz.rest (hxy.result.symm.trans hx))

/-- What is read of a segment does not depend on what stands before it. -/
theorem alike_of_rest_eq (part : Part) (s : Segment) {r₁ r₂ : Reader} (h : r₁.rest = r₂.rest) :
    Alike (read part s r₁) (read part s r₂) := by
  have hends {r₁ r₂ : Reader} (h : r₁.rest = r₂.rest) {text rest : List Char}
      {result : Except Halt Delimiter} {s' : Segment} (hrest : r₁.rest = text ++ rest)
      (hends : Ends part s text result s') : Alike (read part s r₁) (read part s r₂) := by
    obtain ⟨past₁, rest₁, undoable₁⟩ := r₁
    obtain ⟨past₂, rest₂, undoable₂⟩ := r₂
    obtain rfl : rest₁ = rest₂ := h
    obtain rfl : rest₁ = text ++ rest := hrest
    rw [read_of_ends hends past₁ rest undoable₁, read_of_ends hends past₂ rest undoable₂]
    exact ⟨rfl, fun _ => rfl, fun _ => rfl⟩
  -- If one reading comes to an end inside the text, that end is in the text of the other, too.
  rcases ends_or_unterminated part s r₁ with h₁ | ⟨text, rest, hrest, h₁⟩
  · rcases ends_or_unterminated part s r₂ with h₂ | ⟨text, rest, hrest, h₂⟩
    · refine ⟨h₁.trans h₂.symm, fun hok => ?_, fun hok => ?_⟩
      · rw [h₁] at hok
        contradiction
      · rw [h₁] at hok
        contradiction
    · exact (hends h.symm hrest h₂).symm
  · exact hends h hrest h₁

/-- Two segments that a character takes to the same one are read alike from there. -/
theorem read_of_step_more {s₁ s₂ : Segment} {c : Char} (h₁ : s₁.step part c = .more s')
    (h₂ : s₂.step part c = .more s') (past rest : List Char) (undoable : Bool) :
    read part s₁ ⟨past, c :: rest, undoable⟩ = read part s₂ ⟨past, c :: rest, undoable⟩ := by
  have hturn₁ := turn_of_move (.char (step_eq_more_iff.1 h₁)) past rest undoable
  have hturn₂ := turn_of_move (.char (step_eq_more_iff.1 h₂)) past rest undoable
  rw [List.singleton_append] at hturn₁ hturn₂
  rw [read_again hturn₁, read_again hturn₂]

/-- A blank outside all brackets ends the token before it anyway. -/
theorem read_flush_of_blank {c : Char} (htop : s.nesting = 0) (hblank : isBlank c = true)
    (past rest : List Char) (undoable : Bool) :
    read part s.flush ⟨past, c :: rest, undoable⟩ = read part s ⟨past, c :: rest, undoable⟩ := by
  have hstep : s.step part c = .more s.flush := by
    rw [step_of_advance (.blank hblank), pushBlank, if_pos htop]
  have hstep' : s.flush.step part c = .more s.flush := by
    rw [step_of_advance (.blank hblank), pushBlank, nesting_flush, if_pos htop, flush_flush]
  exact read_of_step_more hstep' hstep past rest undoable

/-- A comment outside all brackets ends the token before it anyway. -/
theorem read_flush_of_comment (htop : s.nesting = 0) (past rest : List Char) (undoable : Bool) :
    read part s.flush ⟨past, '/' :: rest, undoable⟩ = read part s ⟨past, '/' :: rest, undoable⟩ := by
  have hbefore : s.flush.beforeComment = s.beforeComment := by
    rw [beforeComment, beforeComment, nesting_flush, if_pos htop, if_pos htop, flush_flush]
  have hstep : s.step part '/' = .comment s.beforeComment := step_eq_comment_iff.2 ⟨rfl, rfl⟩
  have hstep' : s.flush.step part '/' = .comment s.beforeComment :=
    step_eq_comment_iff.2 ⟨rfl, hbefore⟩
  have hturn : s.flush.turn part ⟨past, '/' :: rest, undoable⟩ =
      s.turn part ⟨past, '/' :: rest, undoable⟩ := by
    simp only [turn, Reader.next?, hstep, hstep']
  cases h : s.turn part ⟨past, '/' :: rest, undoable⟩ with
  | done reading => rw [read_done h, read_done (hturn.trans h)]
  | again s₁ r₁ => rw [read_again h, read_again (hturn.trans h)]

/-- At a loose point it makes no difference whether the token before it has been ended. -/
theorem alike_flush_of_loose {text rest : List Char} (hrun : Run part .empty text s)
    (htop : s.nesting = 0) (hloose : Loose part text rest) (past : List Char) (undoable : Bool) :
    Alike (read part s ⟨past, rest, undoable⟩) (read part s.flush ⟨past, rest, undoable⟩) := by
  have hrefl {reading : Reading} : Alike reading reading :=
    ⟨rfl, fun _ => rfl, fun _ => rfl⟩
  cases hloose with
  -- At the start, behind a blank and behind a comment nothing has been begun.
  | start =>
      obtain rfl : s = .empty := hrun.unique (.refl .empty)
      exact hrefl
  | behindBlank hblank =>
      rw [flush_of_last_blank hrun htop hblank]
      exact hrefl
  | behindComment hrun₁ hbody =>
      rw [flush_of_last_comment hbody hrun₁ hrun htop]
      exact hrefl
  -- What follows ends the token itself, takes it back, or begins one of its own.
  | beforeBlank hblank =>
      rw [read_flush_of_blank htop hblank]
      exact hrefl
  | @beforeMarker c hmarker _ rest =>
      have hstep := step_of_advance (.marker hmarker htop : Advance part s c _)
      have hstep' : s.flush.step part c = .more (s.pushMarker c) := by
        rw [step_of_advance (.marker hmarker (by simpa using htop)), pushMarker_flush]
      rw [read_of_step_more hstep hstep']
      exact hrefl
  | beforeComment =>
      rw [read_flush_of_comment htop]
      exact hrefl
  | @beforeDelimiter c hdelimiter _ rest =>
      obtain ⟨delimiter, hdelimits⟩ := exists_delimits hdelimiter htop
      obtain ⟨delimiter', hdelimits'⟩ := exists_delimits hdelimiter ((nesting_flush s).trans htop)
      obtain rfl : delimiter = delimiter' := by cases hdelimits <;> cases hdelimits' <;> rfl
      have hstop := turn_of_stop (.delimiter hdelimits) past rest undoable
      have hstop' := turn_of_stop (.delimiter hdelimits') past rest undoable
      rw [List.singleton_append] at hstop hstop'
      rw [read_done hstop, read_done hstop']
      exact ⟨rfl, fun _ => (flush_flush s).symm, fun _ => rfl⟩
  | @betweenMarkAndWord b c hmark hword _ rest =>
      by_cases hblank : isBlank c = true
      · rw [read_flush_of_blank htop hblank]
        exact hrefl
      · rw [Bool.not_eq_true] at hblank
        obtain ⟨hplain, hcomma, hmarker⟩ := not_special_of_isWordChar hword
        have hsplit := splitPending_of_last_mark hrun htop hmark
        have hadvance (s : Segment) : Advance part s c (s.pushOrdinary c) :=
          .ordinary hblank hplain (fun h => absurd h hcomma) (fun h => absurd h hmarker)
        have hstep' : s.flush.step part c = .more (s.pushOrdinary c) := by
          rw [step_of_advance (hadvance s.flush), pushOrdinary_flush hsplit hword]
        rw [read_of_step_more (step_of_advance (hadvance s)) hstep']
        exact hrefl

/-- At a loose point a blank does not change what is read. -/
theorem alike_of_loose {text rest : List Char} {blank : Char} (hrun : Run part .empty text s)
    (htop : s.nesting = 0) (hloose : Loose part text rest) (hblank : isBlank blank = true)
    (past : List Char) (undoable : Bool) :
    Alike (read part .empty ⟨past, text ++ rest, undoable⟩)
      (read part .empty ⟨past, text ++ blank :: rest, undoable⟩) := by
  -- The texts are read alike up to the point; there the blank flushes the segment.
  obtain ⟨v, hread⟩ := read_of_run hrun past rest undoable
  obtain ⟨v', hread'⟩ := read_of_run hrun past (blank :: rest) undoable
  have hflush : read part s ⟨text.reverse ++ past, blank :: rest, v'⟩ =
      read part s.flush ⟨blank :: (text.reverse ++ past), rest, true⟩ := by
    have hturn := turn_of_move (.char (.blank hblank) : Move part s [blank] _)
      (text.reverse ++ past) rest v'
    rw [pushBlank, if_pos htop] at hturn
    exact read_again hturn
  rw [hread, hread', hflush]
  exact (alike_flush_of_loose hrun htop hloose _ v).trans (alike_of_rest_eq part s.flush rfl)

end Segment

namespace Declaration

open Segment (Run Ends Loose)

/-! ### Points of a declaration -/

/-- Scanning a parameter list passes a point: behind `text` it stands in the slot of which `slot` has
been read and which holds `s`. -/
inductive ReachesSlot : (text slot : List Char) → (s : Segment) → Prop
  | here {slot : List Char} {s : Segment} (hrun : Run .parameters .empty slot s) :
      ReachesSlot slot slot s
  | next {text more slot : List Char} {s₀ s : Segment} {named : String × CType}
      (hends : Ends .parameters .empty text (.ok .comma) s₀)
      (hnamed : namedType .unnamedParameter s₀ = .ok named) (hlater : ReachesSlot more slot s) :
      ReachesSlot (text ++ more) slot s

/-- Scanning a declaration passes a point: behind `text` it stands in the segment of which `segment`
has been read and which holds `s`. -/
inductive Reaches : (text : List Char) → (part : Part) → (segment : List Char) → (s : Segment) → Prop
  | head {segment : List Char} {s : Segment} (hrun : Run .head .empty segment s) :
      Reaches segment .head segment s
  | parameters {text more segment : List Char} {s₀ s : Segment} {named : String × CType}
      (hends : Ends .head .empty text (.ok .opening) s₀)
      (hnamed : namedType .unnamedFunction s₀ = .ok named) (hlater : ReachesSlot more segment s) :
      Reaches (text ++ more) .parameters segment s

/-- Two outcomes with the same result; if it is a success, the same text is left. -/
structure Alike {α : Type} (x y : Except Halt α × Reader) : Prop where
  result : x.1 = y.1
  rest {a : α} (h : x.1 = .ok a) : x.2.rest = y.2.rest

theorem Maps.alike {α : Type} {x y : Except Halt α × Reader} (h : Maps id x y) : Alike x y where
  result := by
    rw [h.result, Except.map_id]
    rfl
  rest := h.rest

/-- A point that is passed is passed at a place. -/
theorem ReachesSlot.passes {text slot : List Char} {s : Segment} (h : ReachesSlot text slot s) :
    ∃ index, PassesSlot text index slot s := by
  induction h with
  | here hrun => exact ⟨0, .here hrun⟩
  | next hends hnamed _ ih =>
      obtain ⟨index, hlater⟩ := ih
      exact ⟨index + 1, .next hends hnamed hlater⟩

theorem Reaches.passes {text segment : List Char} {part : Part} {s : Segment}
    (h : Reaches text part segment s) : ∃ place, place.part = part ∧ Passes text place segment s := by
  cases h with
  | head hrun => exact ⟨.head, rfl, .head hrun⟩
  | parameters hends hnamed hlater =>
      obtain ⟨index, hlater⟩ := hlater.passes
      exact ⟨.slot index, rfl, .slot hends hnamed hlater⟩

theorem Reaches.run {text segment : List Char} {part : Part} {s : Segment}
    (h : Reaches text part segment s) : Run part .empty segment s := by
  obtain ⟨place, rfl, hpasses⟩ := h.passes
  exact hpasses.run

/-- What is behind a point of a declaration matters only through the segment the point lies in. -/
theorem alike_of_reaches {text segment rest rest' : List Char} {part : Part} {s : Segment}
    (hreach : Reaches text part segment s)
    (h : ∀ past undoable, Segment.Alike
      (Segment.read part .empty ⟨past, segment ++ rest, undoable⟩)
      (Segment.read part .empty ⟨past, segment ++ rest', undoable⟩))
    (line : Nat) (past : List Char) (undoable : Bool) :
    Alike (read line ⟨past, text ++ rest, undoable⟩)
      (read line ⟨past, text ++ rest', undoable⟩) := by
  obtain ⟨place, rfl, hpasses⟩ := hreach.passes
  have hmaps := maps_of_passes hpasses (fun past undoable => (h past undoable).tagged) line past undoable
  simp only [tagged_nil] at hmaps
  exact hmaps.alike

/-! ### Texts that differ in blanks -/

/-- The second text is the first with a blank more, at a loose point that scanning from `start`
passes outside all brackets. -/
inductive InsertsBlank (start : Nat) : List Char → List Char → Prop
  | intro {text segment : List Char} {p : Nat} {part : Part} {s : Segment} {blank : Char}
      (hstart : min start text.length ≤ p) (hend : p ≤ text.length)
      (hreach : Reaches ((text.take p).drop start) part segment s) (htop : s.nesting = 0)
      (hloose : Loose part segment (text.drop p)) (hblank : isBlank blank = true) :
      InsertsBlank start text (text.take p ++ blank :: text.drop p)

/-- What a scan answers, without the place of a flaw. -/
theorem mapError_scan (text : List Char) (start line : Nat) :
    (scan text start line).mapError ScanError.halt =
      (read line (.startAt text start)).1.map
        (·, (read line (.startAt text start)).2.position) := by
  rw [scan]
  generalize read line (.startAt text start) = outcome
  obtain ⟨result, r⟩ := outcome
  cases result with
  | ok declaration => rfl
  | error halt => cases halt <;> rfl

theorem scan_eq_ok_iff {text : List Char} {start line finish : Nat} {declaration : Declaration} :
    scan text start line = .ok (declaration, finish) ↔
      (scan text start line).mapError ScanError.halt = .ok (declaration, finish) := by
  cases scan text start line with
  | ok found => exact ⟨fun h => congrArg Except.ok (Except.ok.inj h),
      fun h => congrArg Except.ok (Except.ok.inj h)⟩
  | error error => exact iff_of_false nofun nofun

/-- A blank at a loose point changes nothing but where the declaration ends. -/
theorem alike_of_insertsBlank {start : Nat} {text text' : List Char}
    (h : InsertsBlank start text text') (line : Nat) :
    text'.length = text.length + 1 ∧
      Alike (read line (.startAt text start)) (read line (.startAt text' start)) := by
  obtain ⟨hstart, hend, hreach, htop, hloose, hblank⟩ := h
  rename_i segment p part s blank
  have hlength : (text.take p ++ blank :: text.drop p).length = text.length + 1 := by
    simp only [List.length_append, List.length_take, List.length_cons, List.length_drop]
    omega
  refine ⟨hlength, ?_⟩
  by_cases hinside : start ≤ text.length
  · have hp : start ≤ p := by omega
    have hwhole := startAt_insert hp hend []
    have hblanked := startAt_insert hp hend [blank]
    rw [List.nil_append, List.take_append_drop] at hwhole
    rw [List.singleton_append] at hblanked
    rw [hwhole, hblanked]
    exact alike_of_reaches hreach
      (fun past undoable => Segment.alike_of_loose hreach.run htop hloose hblank past undoable) ..
  · -- Behind the end of the text nothing is read, with or without the blank.
    apply (maps_of_local (read_local line) _).alike
    show text.drop start = (text.take p ++ blank :: text.drop p).drop start
    rw [List.drop_eq_nil_of_le (by omega), List.drop_eq_nil_of_le (by omega)]

/-- A text that is longer by `n`, in which reading finds `f a` for an `a` and has the same left, scans to
`f a` for that `a`, and `n` characters later. -/
theorem scan_of_map {f : Declaration → Declaration} {text text' : List Char} {start line n : Nat}
    (hlength : text'.length = text.length + n)
    (hresult : (read line (.startAt text' start)).1 = (read line (.startAt text start)).1.map f)
    (hrest : ∀ {declaration}, (read line (.startAt text start)).1 = .ok declaration →
      (read line (.startAt text start)).2.rest = (read line (.startAt text' start)).2.rest) :
    (scan text' start line).mapError ScanError.halt =
      ((scan text start line).mapError ScanError.halt).map
        fun (declaration, finish) => (f declaration, finish + n) := by
  rw [mapError_scan, mapError_scan, hresult]
  cases hread : (read line (.startAt text start)).1 with
  | error halt => rfl
  | ok declaration =>
      have hscan := scan_eq_ok_iff.2 ((mapError_scan text start line).trans (by rw [hread]; rfl))
      have hscan' := scan_eq_ok_iff.2
        ((mapError_scan text' start line).trans (by rw [hresult, hread]; rfl))
      have hend := (finish_add_length_rest hscan).2
      have hend' := (finish_add_length_rest hscan').2
      -- Both ends have the same text behind them, and one text is longer by `n`.
      have hposition : (read line (.startAt text' start)).2.position =
          (read line (.startAt text start)).2.position + n := by
        rw [hrest hread] at hend
        omega
      rw [hposition]
      rfl

/-- A blank at a loose point only moves the end of the declaration by one. -/
theorem scan_of_insertsBlank {start : Nat} {text text' : List Char}
    (h : InsertsBlank start text text') (line : Nat) :
    (scan text' start line).mapError ScanError.halt =
      ((scan text start line).mapError ScanError.halt).map
        fun (declaration, finish) => (declaration, finish + 1) := by
  obtain ⟨hlength, halike⟩ := alike_of_insertsBlank h line
  refine scan_of_map (f := id) hlength ?_ halike.rest
  rw [← halike.result, Except.map_id]
  rfl

/-- Outside all brackets layout does not matter: a blank at a loose point only moves the end of the
declaration by one, and texts that differ in such blanks scan to the same declaration, or fail alike. -/
theorem scan_respaced (start line : Nat) :
    (∀ text text', InsertsBlank start text text' →
      (scan text' start line).mapError ScanError.halt =
        ((scan text start line).mapError ScanError.halt).map
          fun (declaration, finish) => (declaration, finish + 1)) ∧
    ∀ text text', Relation.EqvGen (InsertsBlank start) text text' →
      ((scan text start line).mapError ScanError.halt).map Prod.fst =
        ((scan text' start line).mapError ScanError.halt).map Prod.fst := by
  refine ⟨fun text text' hinsert => scan_of_insertsBlank hinsert line, ?_⟩
  intro text text' hrelated
  induction hrelated with
  | rel text text' hinsert =>
      rw [scan_of_insertsBlank hinsert line]
      cases (scan text start line).mapError ScanError.halt with
      | error halt => rfl
      | ok found => rfl
  | refl text => rfl
  | symm text text' _ ih => exact ih.symm
  | trans text text' text'' _ _ ih₁ ih₂ => exact ih₁.trans ih₂

/-- The star of `int*f()` goes to the type with or without a blank behind it. -/
theorem scan_respaced_star :
    let found : Declaration := ⟨"f", 1, ⟨"int*", "int", 1, .none, .empty⟩, []⟩
    InsertsBlank 0 "int*f()".toList "int* f()".toList ∧
      scan "int*f()".toList 0 1 = .ok (found, 7) ∧ scan "int* f()".toList 0 1 = .ok (found, 8) ∧
      ((scan "int* f()".toList 0 1).mapError ScanError.halt).map Prod.fst =
        ((scan "int*f()".toList 0 1).mapError ScanError.halt).map Prod.fst := by
  intro found
  have hrun : Run .head .empty ['i', 'n', 't', '*'] ⟨"int*", [], [], 0, 0, true⟩ := by
    refine .move (.char (.ordinary ?_ ?_ ?_ ?_)) (.move (.char (.ordinary ?_ ?_ ?_ ?_))
      (.move (.char (.ordinary ?_ ?_ ?_ ?_)) (.move (.char (.marker (.inl rfl) rfl)) (.refl _))))
    all_goals decide
  have hinsert : InsertsBlank 0 "int*f()".toList "int* f()".toList :=
    .intro (p := 4) (by decide) (by decide) (.head hrun) rfl
      (.betweenMarkAndWord (.inl (.inl rfl)) (by decide) "int".toList "()".toList) (by decide)
  have hscan : scan "int*f()".toList 0 1 = .ok (found, 7) := by decide +kernel
  have hspaced : scan "int* f()".toList 0 1 = .ok (found, 8) := by
    refine scan_eq_ok_iff.2 (((scan_respaced 0 1).1 _ _ hinsert).trans ?_)
    rw [hscan]
    rfl
  exact ⟨hinsert, hscan, hspaced, (scan_respaced 0 1).2 _ _ ((Relation.EqvGen.rel _ _ hinsert).symm _ _)⟩

end Declaration
end ExportIndex
