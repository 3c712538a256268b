import ExportIndex.Declaration.Segment
import ExportIndex.Proofs.Comment.Extent

/-!
# Runs through a segment

Reading a segment is a run of moves: each takes one character or one whole comment, and what it does
depends on the segment alone, not on the text around.

* `Advance` lists what a character can do to a segment that goes on (`step_eq_more_iff`);
  `step_eq_done_iff` lists the delimiters, all of which stand outside the brackets of the segment, and
  `step_eq_flaw_iff` the brackets that are refused.
* `Move` is one character or one whole comment, `Run` a sequence of moves, and `Ends` a run up to the
  delimiter or the flaw that ends the segment.
* `read_of_ends` — a segment whose text ends is read exactly to that end, whatever stands before and
  behind it.
* `ends_or_unterminated` — there is no other way to stop than such an end and the end of the text.
-/

namespace ExportIndex
namespace Segment

open Text (isBlank isWordChar)

variable {part : Part} {s s' : Segment}

/-! ### Fields -/

@[simp] theorem angle_flush (s : Segment) : s.flush.angle = s.angle := by
  unfold flush
  split <;> rfl

@[simp] theorem paren_flush (s : Segment) : s.flush.paren = s.paren := by
  unfold flush
  split <;> rfl

@[simp] theorem tags_flush (s : Segment) : s.flush.tags = s.tags := by
  unfold flush
  split <;> rfl

@[simp] theorem buffer_flush (s : Segment) : s.flush.buffer = "" := by
  unfold flush
  split
  · rename_i h
    exact String.isEmpty_iff.1 h
  · rfl

@[simp] theorem splitPending_flush (s : Segment) : s.flush.splitPending = false := by
  unfold flush
  split <;> rfl

@[simp] theorem nesting_flush (s : Segment) : s.flush.nesting = s.nesting := by
  simp [nesting]

theorem flush_of_buffer_eq (h : s.buffer = "") : s.flush = { s with splitPending := false } := by
  simp [flush, h]

theorem tokens_flush_of_ne (h : s.buffer ≠ "") : s.flush.tokens = s.buffer :: s.tokens := by
  rw [flush, if_neg (by simpa using h)]

/-- A segment with no begun token and no pending split is the same when it is flushed. -/
theorem flush_eq_self_iff : s.flush = s ↔ s.buffer = "" ∧ s.splitPending = false := by
  constructor
  · intro h
    exact ⟨h ▸ buffer_flush s, h ▸ splitPending_flush s⟩
  · rintro ⟨hbuffer, hsplit⟩
    rw [flush_of_buffer_eq hbuffer, ← hsplit]

@[simp] theorem flush_flush (s : Segment) : s.flush.flush = s.flush :=
  flush_eq_self_iff.2 ⟨buffer_flush s, splitPending_flush s⟩

theorem reopen_of_ne (h : s.buffer ≠ "") : s.reopen = s := by
  unfold reopen
  split
  · rfl
  · exact if_neg (by simpa using h)

/-- Whether there is a token is whether there is one when the begun one is ended. -/
theorem isEmpty_iff_flush_tokens (s : Segment) : s.isEmpty = true ↔ s.flush.tokens = [] := by
  by_cases hbuffer : s.buffer = ""
  · rw [flush_of_buffer_eq hbuffer]
    simp [isEmpty, hbuffer]
  · simp [isEmpty, tokens_flush_of_ne hbuffer, hbuffer]

@[simp] theorem nesting_push (s : Segment) (c : Char) : (s.push c).nesting = s.nesting :=
  rfl

@[simp] theorem nesting_pushClosing (s : Segment) (c : Char) :
    (s.pushClosing c).nesting = s.nesting :=
  rfl

@[simp] theorem nesting_reopen (s : Segment) : s.reopen.nesting = s.nesting := by
  unfold reopen
  split
  · rfl
  · split <;> rfl

@[simp] theorem nesting_pushMarker (s : Segment) (c : Char) :
    (s.pushMarker c).nesting = s.nesting :=
  nesting_reopen s

@[simp] theorem nesting_pushOrdinary (s : Segment) (c : Char) :
    (s.pushOrdinary c).nesting = s.nesting := by
  unfold pushOrdinary
  split
  · exact nesting_flush s
  · rfl

@[simp] theorem nesting_pushBlank (s : Segment) (c : Char) :
    (s.pushBlank c).nesting = s.nesting := by
  unfold pushBlank
  split
  · exact nesting_flush s
  · rfl

@[simp] theorem nesting_beforeComment (s : Segment) : s.beforeComment.nesting = s.nesting := by
  unfold beforeComment
  split
  · exact nesting_flush s
  · rfl

@[simp] theorem tags_beforeComment (s : Segment) : s.beforeComment.tags = s.tags := by
  unfold beforeComment
  split
  · exact tags_flush s
  · rfl

/-- A segment with other tags. -/
def retag (s : Segment) (tags : List String) : Segment :=
  { s with tags := tags }

theorem flush_retag (s : Segment) (tags : List String) :
    (s.retag tags).flush = s.flush.retag tags := by
  show (if s.buffer.isEmpty then _ else _) = _
  rw [flush]
  split <;> rfl

/-! ### Characters -/

/-- A `*` or an `&`. -/
def IsMarker (c : Char) : Prop :=
  c = '*' ∨ c = '&'

instance (c : Char) : Decidable (IsMarker c) :=
  inferInstanceAs (Decidable (c = '*' ∨ c = '&'))

/-- A mark behind which a word starts a token of its own, when no bracket is open behind it. -/
def IsMark (c : Char) : Prop :=
  IsMarker c ∨ c = '>' ∨ c = ')'

instance (c : Char) : Decidable (IsMark c) :=
  inferInstanceAs (Decidable (IsMarker c ∨ c = '>' ∨ c = ')'))

/-- What a character does to a segment that goes on behind it. -/
inductive Advance (part : Part) (s : Segment) : Char → Segment → Prop
  | blank {c : Char} (hblank : isBlank c = true) : Advance part s c (s.pushBlank c)
  | openAngle : Advance part s '<' ({ s with angle := s.angle + 1 }.push '<')
  | closeAngle {angle : Nat} (hangle : s.angle = angle + 1) :
      Advance part s '>' ({ s with angle := angle }.pushClosing '>')
  | openParen (hinner : ¬(part = .head ∧ s.nesting = 0)) :
      Advance part s '(' ({ s with paren := s.paren + 1 }.push '(')
  | closeParen {paren : Nat} (hparen : s.paren = paren + 1) :
      Advance part s ')' ({ s with paren := paren }.pushClosing ')')
  | marker {c : Char} (hmarker : IsMarker c) (htop : s.nesting = 0) :
      Advance part s c (s.pushMarker c)
  | ordinary {c : Char} (hblank : isBlank c = false)
      (hplain : c ≠ '/' ∧ c ≠ '<' ∧ c ≠ '>' ∧ c ≠ '(' ∧ c ≠ ')')
      (hcomma : c = ',' → ¬(part = .parameters ∧ s.nesting = 0))
      (hmarker : IsMarker c → s.nesting ≠ 0) : Advance part s c (s.pushOrdinary c)

theorem isBlank_of_isMarker {c : Char} (h : IsMarker c) : isBlank c = false := by
  rcases h with rfl | rfl <;> decide

theorem isBlank_of_isMark {c : Char} (h : IsMark c) : isBlank c = false := by
  rcases h with h | rfl | rfl
  · exact isBlank_of_isMarker h
  · decide
  · decide

theorem step_of_advance {c : Char} (h : Advance part s c s') : s.step part c = .more s' := by
  cases h with
  | blank hblank =>
      unfold step
      rw [if_pos hblank]
  | openAngle => rfl
  | closeAngle hangle =>
      unfold step
      rw [hangle]
      rfl
  | openParen hinner =>
      change (if part = .head ∧ s.nesting = 0 then Step.done .opening
        else .more ({ s with paren := s.paren + 1 }.push '(')) = _
      rw [if_neg hinner]
  | closeParen hparen =>
      unfold step
      rw [hparen]
      rfl
  | marker hmarker htop =>
      unfold step
      rw [isBlank_of_isMarker hmarker, if_neg Bool.false_ne_true]
      rcases hmarker with rfl | rfl
      · exact congrArg Step.more (if_pos htop)
      · exact congrArg Step.more (if_pos htop)
  | ordinary hblank hplain hcomma hmarker =>
      obtain ⟨hslash, hless, hgreater, hopen, hclose⟩ := hplain
      unfold step
      rw [hblank, if_neg Bool.false_ne_true]
      split
      · contradiction
      · contradiction
      · contradiction
      · contradiction
      · contradiction
      · rw [if_neg (hcomma rfl)]
      · rw [if_neg (hmarker (.inl rfl))]
      · rw [if_neg (hmarker (.inr rfl))]
      · rfl

theorem advance_of_step {c : Char} (h : s.step part c = .more s') : Advance part s c s' := by
  by_cases hblank : isBlank c = true
  · unfold step at h
    rw [if_pos hblank] at h
    injection h with h
    exact h ▸ .blank hblank
  · unfold step at h
    rw [if_neg hblank] at h
    rw [Bool.not_eq_true] at hblank
    -- One case for each character that `step` names, in its order, and one for all others.
    split at h
    · contradiction
    · injection h with h
      exact h ▸ .openAngle
    · split at h
      · contradiction
      · rename_i hangle
        injection h with h
        exact h ▸ .closeAngle hangle
    · split at h
      · contradiction
      · rename_i hinner
        injection h with h
        exact h ▸ .openParen hinner
    · split at h
      · cases part with
        | head => contradiction
        | parameters =>
            simp only [closeStep] at h
            split at h <;> contradiction
      · rename_i hparen
        injection h with h
        exact h ▸ .closeParen hparen
    · split at h
      · contradiction
      · rename_i hcomma
        injection h with h
        exact h ▸ .ordinary hblank (by decide) (fun _ => hcomma) (fun hc => by simp [IsMarker] at hc)
    · injection h with h
      split at h
      · rename_i htop
        exact h ▸ .marker (.inl rfl) htop
      · rename_i htop
        exact h ▸ .ordinary hblank (by decide) (fun hc => by simp at hc) (fun _ => htop)
    · injection h with h
      split at h
      · rename_i htop
        exact h ▸ .marker (.inr rfl) htop
      · rename_i htop
        exact h ▸ .ordinary hblank (by decide) (fun hc => by simp at hc) (fun _ => htop)
    · rename_i hslash hless hgreater hopen hclose hcomma hstar hamp
      injection h with h
      refine h ▸ .ordinary hblank ⟨hslash, hless, hgreater, hopen, hclose⟩ ?_ ?_
      · exact fun hc => absurd hc hcomma
      · rintro (hc | hc)
        · exact absurd hc hstar
        · exact absurd hc hamp

/-- What a character can do to a segment that goes on. -/
theorem step_eq_more_iff {c : Char} : s.step part c = .more s' ↔ Advance part s c s' :=
  ⟨advance_of_step, step_of_advance⟩

/-- The delimiters of a part, none of which stands inside brackets of the segment. -/
inductive Delimits (part : Part) (s : Segment) : Char → Delimiter → Prop
  | opening (hpart : part = .head) (htop : s.nesting = 0) : Delimits part s '(' .opening
  | comma (hpart : part = .parameters) (htop : s.nesting = 0) : Delimits part s ',' .comma
  | closing (hpart : part = .parameters) (htop : s.nesting = 0) : Delimits part s ')' .closing

theorem Delimits.nesting {c : Char} {delimiter : Delimiter} (h : Delimits part s c delimiter) :
    s.nesting = 0 := by
  cases h <;> assumption

theorem step_of_delimits {c : Char} {delimiter : Delimiter} (h : Delimits part s c delimiter) :
    s.step part c = .done delimiter := by
  cases h with
  | opening hpart htop =>
      have hhead : part = .head ∧ s.nesting = 0 := ⟨hpart, htop⟩
      exact if_pos hhead
  | comma hpart htop =>
      have hlist : part = .parameters ∧ s.nesting = 0 := ⟨hpart, htop⟩
      exact if_pos hlist
  | closing hpart htop =>
      obtain ⟨hangle, hparen⟩ : s.angle = 0 ∧ s.paren = 0 := by
        unfold nesting at htop
        omega
      unfold step
      rw [hparen, hpart]
      exact if_pos hangle

theorem delimits_of_step {c : Char} {delimiter : Delimiter}
    (h : s.step part c = .done delimiter) : Delimits part s c delimiter := by
  unfold step at h
  split at h
  · contradiction
  · split at h
    · contradiction
    · contradiction
    · split at h <;> contradiction
    · split at h
      · rename_i hhead
        injection h with h
        exact h ▸ .opening hhead.1 hhead.2
      · contradiction
    · split at h
      · rename_i hparen
        cases part with
        | head => contradiction
        | parameters =>
            simp only [closeStep] at h
            split at h
            · rename_i hangle
              injection h with h
              exact h ▸ .closing rfl (by rw [nesting, hangle, hparen])
            · contradiction
      · contradiction
    · split at h
      · rename_i hlist
        injection h with h
        exact h ▸ .comma hlist.1 hlist.2
      · contradiction
    · contradiction
    · contradiction
    · contradiction

/-- What ends a segment. -/
theorem step_eq_done_iff {c : Char} {delimiter : Delimiter} :
    s.step part c = .done delimiter ↔ Delimits part s c delimiter :=
  ⟨delimits_of_step, step_of_delimits⟩

/-- Comments open with a slash, and with nothing else. -/
theorem step_eq_comment_iff {c : Char} :
    s.step part c = .comment s' ↔ c = '/' ∧ s.beforeComment = s' := by
  constructor
  · intro h
    unfold step at h
    split at h
    · contradiction
    · split at h
      · injection h with h
        exact ⟨rfl, h⟩
      · contradiction
      · split at h <;> contradiction
      · split at h <;> contradiction
      · split at h
        · cases part with
          | head => contradiction
          | parameters =>
              simp only [closeStep] at h
              split at h <;> contradiction
        · contradiction
      · split at h <;> contradiction
      · contradiction
      · contradiction
      · contradiction
  · rintro ⟨rfl, rfl⟩
    rfl

/-- The brackets that a segment refuses, none of which has an opening one inside it. -/
inductive Refuses (part : Part) (s : Segment) : Char → Flaw → Prop
  | closeAngle (hangle : s.angle = 0) : Refuses part s '>' .unbalancedAngles
  | closeHead (hpart : part = .head) (hparen : s.paren = 0) : Refuses part s ')' .unbalancedParens
  | closeParameters (hpart : part = .parameters) (hparen : s.paren = 0) (hangle : s.angle ≠ 0) :
      Refuses part s ')' .unbalancedAngles

theorem step_of_refuses {c : Char} {flaw : Flaw} (h : Refuses part s c flaw) :
    s.step part c = .flaw flaw := by
  cases h with
  | closeAngle hangle =>
      unfold step
      rw [hangle]
      rfl
  | closeHead hpart hparen =>
      unfold step
      rw [hparen, hpart]
      rfl
  | closeParameters hpart hparen hangle =>
      unfold step
      rw [hparen, hpart]
      exact if_neg hangle

theorem refuses_of_step {c : Char} {flaw : Flaw} (h : s.step part c = .flaw flaw) :
    Refuses part s c flaw := by
  unfold step at h
  split at h
  · contradiction
  · split at h
    · contradiction
    · contradiction
    · split at h
      · rename_i hangle
        injection h with h
        exact h ▸ .closeAngle hangle
      · contradiction
    · split at h <;> contradiction
    · split at h
      · rename_i hparen
        cases part with
        | head =>
            injection h with h
            exact h ▸ .closeHead rfl hparen
        | parameters =>
            simp only [closeStep] at h
            split at h
            · contradiction
            · rename_i hangle
              injection h with h
              exact h ▸ .closeParameters rfl hparen hangle
      · contradiction
    · split at h <;> contradiction
    · contradiction
    · contradiction
    · contradiction

/-- What makes a segment flawed. -/
theorem step_eq_flaw_iff {c : Char} {flaw : Flaw} :
    s.step part c = .flaw flaw ↔ Refuses part s c flaw :=
  ⟨refuses_of_step, step_of_refuses⟩

/-! ### Moves and runs -/

/-- What a whole comment does to a segment. -/
def absorb (s : Segment) (body : List Char) : Segment :=
  s.beforeComment.retag (s.tags ++ Comment.tagsOf s.nesting body)

/-- One character, or one whole comment. -/
inductive Move (part : Part) (s : Segment) : List Char → Segment → Prop
  | char {c : Char} {s' : Segment} (hadvance : Advance part s c s') : Move part s [c] s'
  | comment {body : List Char} (hbody : Comment.IsBody body) :
      Move part s ('/' :: body) (s.absorb body)

/-- Any number of moves. -/
inductive Run (part : Part) : Segment → List Char → Segment → Prop
  | refl (s : Segment) : Run part s [] s
  | move {s s₁ s' : Segment} {text rest : List Char} (hmove : Move part s text s₁)
      (hrun : Run part s₁ rest s') : Run part s (text ++ rest) s'

@[simp] theorem nesting_absorb (s : Segment) (body : List Char) :
    (s.absorb body).nesting = s.nesting :=
  nesting_beforeComment s

theorem Move.run {text : List Char} (h : Move part s text s') : Run part s text s' := by
  have hrun := Run.move h (Run.refl s')
  rwa [List.append_nil] at hrun

theorem Run.trans {s₁ : Segment} {text rest : List Char} (h₁ : Run part s text s₁)
    (h₂ : Run part s₁ rest s') : Run part s (text ++ rest) s' := by
  induction h₁ with
  | refl => exact h₂
  | move hmove _ ih =>
      rw [List.append_assoc]
      exact .move hmove (ih h₂)

/-- A run that has moved at all has a last move. -/
theorem Run.last {text : List Char} (h : Run part s text s') :
    (text = [] ∧ s' = s) ∨
      ∃ before last s₁, text = before ++ last ∧ Run part s before s₁ ∧ Move part s₁ last s' := by
  induction h with
  | refl s => exact .inl ⟨rfl, rfl⟩
  | @move s s₁ s' text rest hmove _ ih =>
      right
      rcases ih with ⟨rfl, rfl⟩ | ⟨before, last, s₂, rfl, hrun, hlast⟩
      · exact ⟨[], text, s, List.append_nil text, .refl s, hmove⟩
      · exact ⟨text ++ before, last, s₂, (List.append_assoc ..).symm, .move hmove hrun, hlast⟩

/-- The last move of a segment: its delimiter or its flaw. -/
inductive Stop (part : Part) (s : Segment) : List Char → Except Halt Delimiter → Segment → Prop
  | delimiter {c : Char} {delimiter : Delimiter} (h : Delimits part s c delimiter) :
      Stop part s [c] (.ok delimiter) s
  | flaw {c : Char} {flaw : Flaw} (h : s.step part c = .flaw flaw) :
      Stop part s [c] (.error (.flawed flaw)) s
  | comment {c : Char} (hslash : c ≠ '/') (hstar : c ≠ '*') :
      Stop part s ['/', c] (.error (.flawed .malformedComment)) s.beforeComment

/-- The whole text of a segment up to its end. -/
inductive Ends (part : Part) (s : Segment) : List Char → Except Halt Delimiter → Segment → Prop
  | intro {s₁ s' : Segment} {text last : List Char} {result : Except Halt Delimiter}
      (hrun : Run part s text s₁) (hstop : Stop part s₁ last result s') :
      Ends part s (text ++ last) result s'

theorem Ends.of_move {s₁ : Segment} {text rest : List Char} {result : Except Halt Delimiter}
    (hmove : Move part s text s₁) (h : Ends part s₁ rest result s') :
    Ends part s (text ++ rest) result s' := by
  obtain ⟨hrun, hstop⟩ := h
  rw [← List.append_assoc]
  exact .intro (.move hmove hrun) hstop

/-! ### Reading -/

theorem read_done {r : Reader} {reading : Reading} (h : s.turn part r = .done reading) :
    read part s r = reading := by
  rw [read]
  split <;> simp_all

theorem read_again {r r' : Reader} (h : s.turn part r = .again s' r') :
    read part s r = read part s' r' := by
  rw [read]
  split <;> simp_all

theorem turn_of_move {text : List Char} (h : Move part s text s') (past rest : List Char)
    (undoable : Bool) :
    s.turn part ⟨past, text ++ rest, undoable⟩ = .again s' ⟨text.reverse ++ past, rest, true⟩ := by
  cases h with
  | char hadvance => simp [turn, Reader.next?, step_eq_more_iff.2 hadvance]
  | @comment body hbody =>
      have hstep : s.step part '/' = .comment s.beforeComment := step_eq_comment_iff.2 ⟨rfl, rfl⟩
      simp [turn, Reader.next?, hstep, commentTurn, Comment.read_body hbody, absorb, retag]

theorem turn_of_stop {text : List Char} {result : Except Halt Delimiter}
    (h : Stop part s text result s') (past rest : List Char) (undoable : Bool) :
    s.turn part ⟨past, text ++ rest, undoable⟩ =
      .done ⟨result, s', ⟨text.reverse ++ past, rest, true⟩⟩ := by
  cases h with
  | delimiter h => simp [turn, Reader.next?, step_eq_done_iff.2 h]
  | flaw h => simp [turn, Reader.next?, h]
  | comment hslash hstar =>
      have hstep : s.step part '/' = .comment s.beforeComment := step_eq_comment_iff.2 ⟨rfl, rfl⟩
      simp only [turn, Reader.next?, hstep, commentTurn, Comment.read_malformed hslash hstar,
        List.cons_append, List.nil_append]
      rfl

theorem commentTurn_of_halt {r : Reader} {halt : Halt}
    (h : (Comment.read s.nesting s.tags r).halt = some halt) :
    ∃ reading, s.commentTurn r = .done reading ∧ reading.result = .error halt := by
  simp only [commentTurn, h]
  exact ⟨_, rfl, rfl⟩

/-- A turn moves on, stops, or meets the end of the text. -/
theorem turn_cases (part : Part) (s : Segment) (r : Reader) :
    (∃ text rest s', r.rest = text ++ rest ∧ Move part s text s') ∨
      (∃ text rest result s', r.rest = text ++ rest ∧ Stop part s text result s') ∨
        ∃ reading, s.turn part r = .done reading ∧ reading.result = .error .unterminated := by
  obtain ⟨past, text, undoable⟩ := r
  cases text with
  | nil => exact .inr (.inr ⟨⟨.error .unterminated, s, ⟨past, [], undoable⟩⟩, rfl, rfl⟩)
  | cons c text =>
      cases hstep : s.step part c with
      | more s' => exact .inl ⟨[c], text, s', rfl, .char (step_eq_more_iff.1 hstep)⟩
      | done delimiter =>
          exact .inr (.inl ⟨[c], text, _, s, rfl, .delimiter (step_eq_done_iff.1 hstep)⟩)
      | flaw flaw => exact .inr (.inl ⟨[c], text, _, s, rfl, .flaw hstep⟩)
      | comment s₁ =>
          obtain ⟨rfl, rfl⟩ := step_eq_comment_iff.1 hstep
          cases hafter : Comment.after? text with
          | some rest =>
              obtain ⟨body, rfl, hbody⟩ := Comment.exists_body hafter
              exact .inl ⟨'/' :: body, rest, _, rfl, .comment hbody⟩
          | none =>
              -- The comment has no end, unless it is none: then its second character is the flaw.
              have hunterminated (hopen : ∀ d rest, text = d :: rest → d = '/' ∨ d = '*') :
                  ∃ reading, s.turn part ⟨past, '/' :: text, undoable⟩ = .done reading ∧
                    reading.result = .error .unterminated := by
                obtain ⟨v, hread⟩ := Comment.read_unterminated hafter hopen s.beforeComment.nesting
                  s.beforeComment.tags ('/' :: past) true
                simpa only [turn, Reader.next?, hstep] using
                  commentTurn_of_halt (congrArg Comment.Reading.halt hread)
              cases text with
              | nil => exact .inr (.inr (hunterminated (by simp)))
              | cons d rest =>
                  by_cases hd : d = '/' ∨ d = '*'
                  · refine .inr (.inr (hunterminated ?_))
                    rintro _ _ ⟨rfl, rfl⟩
                    exact hd
                  · rw [not_or] at hd
                    exact .inr (.inl ⟨['/', d], rest, _, _, rfl, .comment hd.1 hd.2⟩)

/-- A run is read on from its end. -/
theorem read_of_run {text : List Char} (h : Run part s text s') (past rest : List Char)
    (undoable : Bool) :
    ∃ v, read part s ⟨past, text ++ rest, undoable⟩ =
      read part s' ⟨text.reverse ++ past, rest, v⟩ := by
  -- Behind a move the last character may be taken back; without one that is as it was before.
  induction h generalizing past undoable with
  | refl => exact ⟨undoable, rfl⟩
  | move hmove _ ih =>
      obtain ⟨v, hv⟩ := ih (_ ++ past) true
      rw [List.append_assoc, read_again (turn_of_move hmove past _ undoable), hv]
      exact ⟨v, by rw [List.reverse_append, List.append_assoc]⟩

/-- A text leads to at most one segment. -/
theorem Run.unique {s₁ s₂ : Segment} {text : List Char} (h₁ : Run part s text s₁)
    (h₂ : Run part s text s₂) : s₁ = s₂ := by
  -- Cut off behind the run, reading stops with the segment that the run leads to.
  have hsegment {s' : Segment} (h : Run part s text s') :
      (read part s ⟨[], text ++ [], false⟩).segment = s' := by
    obtain ⟨v, hv⟩ := read_of_run h [] [] false
    rw [hv, read_done (show s'.turn part ⟨text.reverse ++ [], [], v⟩ =
      .done ⟨.error .unterminated, s', ⟨text.reverse ++ [], [], v⟩⟩ from rfl)]
  rw [← hsegment h₁, hsegment h₂]

/-- A segment whose text ends is read exactly to that end. -/
theorem read_of_ends {text : List Char} {result : Except Halt Delimiter}
    (h : Ends part s text result s') (past rest : List Char) (undoable : Bool) :
    read part s ⟨past, text ++ rest, undoable⟩ =
      ⟨result, s', ⟨text.reverse ++ past, rest, true⟩⟩ := by
  obtain ⟨hrun, hstop⟩ := h
  obtain ⟨v, hv⟩ := read_of_run hrun past (_ ++ rest) undoable
  rw [List.append_assoc, hv, read_done (turn_of_stop hstop _ rest v)]
  simp

/-- Reading a segment stops where its text ends, or at the end of the text. -/
theorem ends_or_unterminated (part : Part) (s : Segment) (r : Reader) :
    (read part s r).result = .error .unterminated ∨
      ∃ text rest, r.rest = text ++ rest ∧
        Ends part s text (read part s r).result (read part s r).segment := by
  rcases turn_cases part s r with ⟨text, rest, s', hrest, hmove⟩ | hstop | ⟨reading, hturn, hend⟩
  · obtain ⟨past, _, undoable⟩ := r
    obtain rfl := hrest
    have hturn := turn_of_move hmove past rest undoable
    have := length_rest_turn hturn
    rw [read_again hturn]
    rcases ends_or_unterminated part s' ⟨text.reverse ++ past, rest, true⟩ with h | h
    · exact .inl h
    · obtain ⟨more, rest', hrest', hends⟩ := h
      refine .inr ⟨text ++ more, rest', ?_, .of_move hmove hends⟩
      rw [List.append_assoc, ← hrest']
  · obtain ⟨text, rest, result, s', hrest, hstop⟩ := hstop
    obtain ⟨past, _, undoable⟩ := r
    obtain rfl := hrest
    rw [read_done (turn_of_stop hstop past rest undoable)]
    exact .inr ⟨text, rest, rfl, .intro (.refl s) hstop⟩
  · rw [read_done hturn]
    exact .inl hend
termination_by r.rest.length

/-- A segment that is read to its delimiter is run through up to there. -/
theorem exists_run_of_ok {r : Reader} {delimiter : Delimiter}
    (h : (read part s r).result = .ok delimiter) :
    ∃ text c, r.rest = text ++ c :: (read part s r).reader.rest ∧
      Run part s text (read part s r).segment ∧
        Delimits part (read part s r).segment c delimiter := by
  rcases ends_or_unterminated part s r with hend | ⟨text, rest, hrest, hends⟩
  · rw [hend] at h
    contradiction
  · obtain ⟨past, _, undoable⟩ := r
    obtain rfl := hrest
    have hread := read_of_ends hends past rest undoable
    rw [h] at hends
    obtain ⟨hrun, hstop⟩ := hends
    cases hstop with
    | delimiter hdelimits =>
        refine ⟨_, _, ?_, hrun, hdelimits⟩
        rw [hread]
        exact List.append_assoc ..

end Segment
end ExportIndex
