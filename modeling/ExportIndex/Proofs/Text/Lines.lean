import Mathlib.Data.List.TakeWhile
import ExportIndex.Text.Line

/-!
# Lines of a text that goes on

A text whose last line is closed can be followed by another without touching any of its lines.

* `Closed` — a text is empty or ends with a line feed.
* `linesFrom_feed` cuts off the first line, `line_induction` is the matching induction.
* `lines_append` — the lines of a closed text and a second one are those of both; the second ones
  start later and have higher numbers.
* `standsIn_of_mem_lines` — every line stands in its text where its start and its number say.
* `exists_line` — every character stands on a line, whose number counts the line feeds before it.
* `getElem?_splitOn` — the same of the pieces of a text that is cut at its line feeds.
-/

namespace ExportIndex
namespace Text

/-- Whether a text has no unfinished line. -/
def Closed (text : List Char) : Prop :=
  text = [] ∨ text.getLast? = some '\n'

/-- A line with more characters and more line feeds before it. -/
def Line.moved (chars feeds : Nat) (line : Line) : Line :=
  ⟨line.start + chars, line.number + feeds, line.text⟩

/-- A text is empty, a line without a line feed, or a first line and what follows it. -/
theorem line_induction {motive : List Char → Prop} (nil : motive [])
    (last : ∀ text, text ≠ [] → '\n' ∉ text → motive text)
    (feed : ∀ body later, '\n' ∉ body → motive later → motive (body ++ '\n' :: later))
    (text : List Char) : motive text := by
  by_cases hfeed : '\n' ∈ text
  · obtain ⟨body, later, rfl, hbody⟩ := List.eq_append_cons_of_mem hfeed
    exact feed body later hbody (line_induction nil last feed later)
  · by_cases hnil : text = []
    · exact hnil ▸ nil
    · exact last text hnil hfeed
termination_by text.length
decreasing_by
  subst_vars
  simp only [List.length_append, List.length_cons]
  omega

theorem Closed.mem {text : List Char} (h : Closed text) (hne : text ≠ []) : '\n' ∈ text := by
  rcases h with h | h
  · exact absurd h hne
  · exact List.mem_of_getLast? h

/-- What is left of a closed text from some point on is closed. -/
theorem Closed.of_append {before after : List Char} (h : Closed (before ++ after)) :
    Closed after := by
  cases hafter : after.getLast? with
  | none => exact .inl (List.getLast?_eq_none_iff.1 hafter)
  | some c =>
      rcases h with h | h
      · exact .inl (List.append_eq_nil_iff.1 h).2
      · rw [List.getLast?_append, hafter] at h
        exact .inr (by rw [hafter]; simpa using h)

theorem Closed.of_feed {body later : List Char} (h : Closed (body ++ '\n' :: later)) :
    Closed later := by
  rw [List.append_cons] at h
  exact h.of_append

theorem ne_feed_of_not_mem {text : List Char} (h : '\n' ∉ text) : ∀ c ∈ text, (c != '\n') = true := by
  intro c hc
  simpa using fun heq : c = '\n' => h (heq ▸ hc)

theorem takeWhile_of_not_mem {text : List Char} (h : '\n' ∉ text) :
    text.takeWhile (· != '\n') = text := by
  rw [List.takeWhile_eq_self_iff]
  exact ne_feed_of_not_mem h

theorem takeWhile_feed {body : List Char} (h : '\n' ∉ body) (later : List Char) :
    (body ++ '\n' :: later).takeWhile (· != '\n') = body := by
  rw [List.takeWhile_append_of_pos (ne_feed_of_not_mem h)]
  simp

theorem dropWhile_feed {body : List Char} (h : '\n' ∉ body) (later : List Char) :
    (body ++ '\n' :: later).dropWhile (· != '\n') = '\n' :: later := by
  rw [List.dropWhile_append_of_pos (ne_feed_of_not_mem h)]
  simp

theorem linesFrom_feed {body : List Char} (h : '\n' ∉ body) (start number : Nat)
    (later : List Char) :
    linesFrom start number (body ++ '\n' :: later) =
      ⟨start, number, body ++ ['\n']⟩ ::
        linesFrom (start + body.length + 1) (number + 1) later := by
  have hdrop := dropWhile_feed h later
  have htake := takeWhile_feed h later
  obtain ⟨c, rest, htext⟩ : ∃ c rest, body ++ '\n' :: later = c :: rest :=
    List.exists_cons_of_ne_nil (by simp)
  rw [htext] at hdrop htake ⊢
  rw [linesFrom]
  split
  · rename_i hnil
    rw [hdrop] at hnil
    contradiction
  · rename_i feed later' hcons
    rw [hdrop] at hcons
    obtain ⟨rfl, rfl⟩ := List.cons.inj hcons
    rw [htake]

theorem linesFrom_of_not_mem {text : List Char} (hne : text ≠ []) (h : '\n' ∉ text)
    (start number : Nat) : linesFrom start number text = [⟨start, number, text⟩] := by
  have hdrop : text.dropWhile (· != '\n') = [] := by
    rw [← List.append_nil text, List.dropWhile_append_of_pos (ne_feed_of_not_mem h)]
    rfl
  obtain ⟨c, rest, rfl⟩ := List.exists_cons_of_ne_nil hne
  rw [linesFrom]
  split
  · rfl
  · rename_i hcons
    rw [hdrop] at hcons
    contradiction

/-- The lines of a closed text do not depend on what follows it. -/
theorem linesFrom_append {text : List Char} (h : Closed text) (more : List Char)
    (start number : Nat) :
    linesFrom start number (text ++ more) =
      linesFrom start number text ++
        linesFrom (start + text.length) (number + text.count '\n') more := by
  induction text using line_induction generalizing start number with
  | nil => simp [linesFrom]
  | last text hne hfeed => exact absurd (h.mem hne) hfeed
  | feed body later hbody ih =>
      rw [List.append_assoc, List.cons_append, linesFrom_feed hbody, linesFrom_feed hbody,
        ih h.of_feed, List.cons_append]
      have hcount : body.count '\n' = 0 := List.count_eq_zero.2 hbody
      simp only [List.length_append, List.length_cons, List.count_append, List.count_cons_self,
        hcount]
      congr 3 <;> omega

/-- Lines keep their texts when more stands before them. -/
theorem linesFrom_moved (chars feeds : Nat) (text : List Char) (start number : Nat) :
    linesFrom (start + chars) (number + feeds) text =
      (linesFrom start number text).map (Line.moved chars feeds) := by
  induction text using line_induction generalizing start number with
  | nil => simp [linesFrom]
  | last text hne hfeed =>
      rw [linesFrom_of_not_mem hne hfeed, linesFrom_of_not_mem hne hfeed]
      rfl
  | feed body later hbody ih =>
      rw [linesFrom_feed hbody, linesFrom_feed hbody, List.map_cons, ← ih, Line.moved]
      congr 2 <;> omega

/-- The lines of a closed text and a second one are those of both. -/
theorem lines_append {text : List Char} (h : Closed text) (more : List Char) :
    lines (text ++ more) =
      lines text ++ (lines more).map (Line.moved text.length (text.count '\n')) := by
  rw [lines, linesFrom_append h, lines, lines, ← linesFrom_moved]

/-! ### Where lines stand -/

/-- Every line starts inside its text. -/
theorem start_of_mem_linesFrom {text : List Char} {start number : Nat} {line : Line}
    (h : line ∈ linesFrom start number text) :
    start ≤ line.start ∧ line.start < start + text.length := by
  induction text using line_induction generalizing start number with
  | nil => simp [linesFrom] at h
  | last text hne hfeed =>
      rw [linesFrom_of_not_mem hne hfeed, List.mem_singleton] at h
      rw [h]
      exact ⟨Nat.le_refl _, Nat.lt_add_of_pos_right (List.length_pos_iff.2 hne)⟩
  | feed body later hbody ih =>
      rw [linesFrom_feed hbody, List.mem_cons] at h
      rw [List.length_append, List.length_cons]
      rcases h with rfl | h
      · exact ⟨Nat.le_refl _, by simp only; omega⟩
      · have := ih h
        omega

/-- Each line starts behind those before it. -/
theorem pairwise_start_linesFrom (start number : Nat) (text : List Char) :
    (linesFrom start number text).Pairwise (·.start < ·.start) := by
  induction text using line_induction generalizing start number with
  | nil => simp [linesFrom]
  | last text hne hfeed =>
      rw [linesFrom_of_not_mem hne hfeed]
      exact List.pairwise_singleton _ _
  | feed body later hbody ih =>
      rw [linesFrom_feed hbody, List.pairwise_cons]
      refine ⟨fun line hline => ?_, ih _ _⟩
      have := start_of_mem_linesFrom hline
      simp only
      omega

theorem pairwise_start_lines (text : List Char) : (lines text).Pairwise (·.start < ·.start) :=
  pairwise_start_linesFrom 0 1 text

/-- Lines are numbered one after the other. -/
theorem number_of_getElem?_linesFrom {text : List Char} {start number i : Nat} {line : Line}
    (h : (linesFrom start number text)[i]? = some line) : line.number = number + i := by
  induction text using line_induction generalizing start number i with
  | nil => simp [linesFrom] at h
  | last text hne hfeed =>
      rw [linesFrom_of_not_mem hne hfeed, List.getElem?_singleton] at h
      split at h
      · rename_i hi
        injection h with h
        rw [← h, hi]
        rfl
      · contradiction
  | feed body later hbody ih =>
      rw [linesFrom_feed hbody] at h
      cases i with
      | zero =>
          injection h with h
          rw [← h]
          rfl
      | succ i =>
          rw [List.getElem?_cons_succ] at h
          have := ih h
          omega

theorem number_of_getElem?_lines {text : List Char} {i : Nat} {line : Line}
    (h : (lines text)[i]? = some line) : line.number = i + 1 := by
  have := number_of_getElem?_linesFrom h
  omega

theorem pairwise_number_lines (text : List Char) : (lines text).Pairwise (·.number < ·.number) := by
  rw [List.pairwise_iff_getElem]
  intro i j hi hj hij
  rw [number_of_getElem?_lines (List.getElem?_eq_getElem hi),
    number_of_getElem?_lines (List.getElem?_eq_getElem hj)]
  omega

/-- A closed text has a line for each line feed. -/
theorem length_linesFrom {text : List Char} (h : Closed text) (start number : Nat) :
    (linesFrom start number text).length = text.count '\n' := by
  induction text using line_induction generalizing start number with
  | nil => simp [linesFrom]
  | last text hne hfeed => exact absurd (h.mem hne) hfeed
  | feed body later hbody ih =>
      have hcount : body.count '\n' = 0 := List.count_eq_zero.2 hbody
      rw [linesFrom_feed hbody, List.length_cons, ih h.of_feed, List.count_append, hcount,
        List.count_cons_self, Nat.zero_add]

/-- Lines that each have one line feed, at their end, are the lines of the text that they make. -/
theorem map_text_linesFrom_flatten {texts : List (List Char)}
    (h : ∀ text ∈ texts, ∃ body, '\n' ∉ body ∧ text = body ++ ['\n']) (start number : Nat) :
    (linesFrom start number texts.flatten).map Line.text = texts := by
  induction texts generalizing start number with
  | nil => simp [linesFrom]
  | cons text texts ih =>
      obtain ⟨⟨body, hbody, rfl⟩, hmore⟩ := List.forall_mem_cons.1 h
      rw [List.flatten_cons, ← List.append_cons, linesFrom_feed hbody, List.map_cons, ih hmore]

theorem map_text_lines_flatten {texts : List (List Char)}
    (h : ∀ text ∈ texts, ∃ body, '\n' ∉ body ∧ text = body ++ ['\n']) :
    (lines texts.flatten).map Line.text = texts :=
  map_text_linesFrom_flatten h 0 1

/-- A line stands in a text behind `start` characters that are whole lines, one fewer than its number,
and goes up to the next line feed or to the end of the text. -/
def Line.StandsIn (text : List Char) (line : Line) : Prop :=
  ∃ before after, text = before ++ line.text ++ after ∧ Closed before ∧
    before.length = line.start ∧ before.count '\n' + 1 = line.number ∧
    ∃ body, '\n' ∉ body ∧
      (line.text = body ++ ['\n'] ∨ line.text = body ∧ body ≠ [] ∧ after = [])

/-- Behind whole lines every line stands where its start and its number say. -/
theorem standsIn_of_mem_linesFrom {before text : List Char} (hclosed : Closed before) {line : Line}
    (h : line ∈ linesFrom before.length (before.count '\n' + 1) text) :
    line.StandsIn (before ++ text) := by
  induction text using line_induction generalizing before with
  | nil => simp [linesFrom] at h
  | last text hne hfeed =>
      rw [linesFrom_of_not_mem hne hfeed, List.mem_singleton] at h
      subst h
      exact ⟨before, [], by simp, hclosed, rfl, rfl, text, hfeed, .inr ⟨rfl, hne, rfl⟩⟩
  | feed body later hbody ih =>
      rw [linesFrom_feed hbody, List.mem_cons] at h
      rcases h with rfl | h
      · exact ⟨before, later, by simp, hclosed, rfl, rfl, body, hbody, .inl rfl⟩
      · -- The lines behind the first one stand behind it, which is a whole line more.
        have hcount : body.count '\n' = 0 := List.count_eq_zero.2 hbody
        have hlater : line ∈ linesFrom (before ++ (body ++ ['\n'])).length
            ((before ++ (body ++ ['\n'])).count '\n' + 1) later := by
          simpa [List.count_append, hcount, Nat.add_assoc] using h
        have hstands := ih (.inr (by simp)) hlater
        simpa using hstands

/-- Every line stands in its text where its start and its number say. -/
theorem standsIn_of_mem_lines {text : List Char} {line : Line} (h : line ∈ lines text) :
    line.StandsIn text := by
  have hnil : Closed [] := .inl rfl
  exact standsIn_of_mem_linesFrom hnil h

/-! ### The line of a character -/

/-- A line without its line feed. -/
def Line.body (line : Line) : List Char :=
  line.text.takeWhile (· != '\n')

/-- A text is whole lines and what stands behind them. -/
theorem exists_closed_append (text : List Char) :
    ∃ before, text = before ++ (text.reverse.takeWhile (· != '\n')).reverse ∧ Closed before := by
  refine ⟨(text.reverse.dropWhile (· != '\n')).reverse, ?_, ?_⟩
  · rw [← List.reverse_append, List.takeWhile_append_dropWhile, List.reverse_reverse]
  · rw [Closed, List.reverse_eq_nil_iff, List.getLast?_reverse]
    have hfeed := List.head?_dropWhile_not (· != '\n') text.reverse
    cases hdrop : text.reverse.dropWhile (· != '\n') with
    | nil => exact .inl rfl
    | cons c rest =>
        rw [hdrop] at hfeed
        exact .inr (by simpa using hfeed)

/-- The first line of a text goes up to the first line feed. -/
theorem exists_first (start number : Nat) {text : List Char} (hne : text ≠ []) :
    ∃ line, (linesFrom start number text)[0]? = some line ∧
      line.body = text.takeWhile (· != '\n') := by
  by_cases hfeed : '\n' ∈ text
  · obtain ⟨body, later, rfl, hbody⟩ := List.eq_append_cons_of_mem hfeed
    rw [linesFrom_feed hbody]
    exact ⟨_, rfl, by rw [Line.body, takeWhile_feed hbody, takeWhile_feed hbody]⟩
  · rw [linesFrom_of_not_mem hne hfeed]
    exact ⟨_, rfl, rfl⟩

/-- The line of a character has as many lines before it as there are line feeds before the character,
and it goes from the last of these up to the next line feed. -/
theorem exists_line (init rest : List Char) (c : Char) :
    ∃ line, (lines (init ++ c :: rest))[init.count '\n']? = some line ∧
      line.body = (init.reverse.takeWhile (· != '\n')).reverse ++
        (c :: rest).takeWhile (· != '\n') := by
  obtain ⟨before, hinit, hclosed⟩ := exists_closed_append init
  have hsame : ∀ d ∈ (init.reverse.takeWhile (· != '\n')).reverse, (d != '\n') = true := by
    intro d hd
    exact List.mem_takeWhile_imp (p := (· != '\n')) (List.mem_reverse.1 hd)
  generalize (init.reverse.takeWhile (· != '\n')).reverse = same at hinit hsame
  have hcount : init.count '\n' = (lines before).length := by
    have hnone : '\n' ∉ same := fun hmem => by simpa using hsame _ hmem
    rw [lines, length_linesFrom hclosed, hinit, List.count_append, List.count_eq_zero.2 hnone,
      Nat.add_zero]
  -- It is the first line behind the whole lines before.
  have hne : same ++ c :: rest ≠ [] := by simp
  obtain ⟨line, hline, hbody⟩ := exists_first (0 + before.length) (1 + before.count '\n') hne
  refine ⟨line, ?_, ?_⟩
  · rw [hcount, hinit, List.append_assoc, lines, linesFrom_append hclosed, ← lines,
      List.getElem?_append_right (Nat.le_refl _), Nat.sub_self, hline]
  · rw [hbody, List.takeWhile_append_of_pos hsame]

/-! ### Cut at the line feeds -/

/-- The first piece goes up to the first line feed. -/
theorem getElem?_zero_splitOn (text : List Char) :
    (text.splitOn '\n')[0]? = some (text.takeWhile (· != '\n')) := by
  by_cases hfeed : '\n' ∈ text
  · obtain ⟨body, later, rfl, hbody⟩ := List.eq_append_cons_of_mem hfeed
    rw [List.splitOn_append_cons_self, List.splitOn_eq_singleton hbody, takeWhile_feed hbody]
    rfl
  · rw [List.splitOn_eq_singleton hfeed, takeWhile_of_not_mem hfeed]
    rfl

/-- Every place of a text is in the piece that has as many before it as there are line feeds before the
place; that piece goes from the last of these up to the next one. -/
theorem getElem?_splitOn (before after : List Char) :
    ((before ++ after).splitOn '\n')[before.count '\n']? =
      some ((before.reverse.takeWhile (· != '\n')).reverse ++ after.takeWhile (· != '\n')) := by
  induction before using line_induction with
  | nil => exact getElem?_zero_splitOn after
  | last before _ hfeed =>
      have hback : '\n' ∉ before.reverse := by
        rwa [List.mem_reverse]
      rw [List.count_eq_zero.2 hfeed, getElem?_zero_splitOn,
        List.takeWhile_append_of_pos (ne_feed_of_not_mem hfeed), takeWhile_of_not_mem hback,
        List.reverse_reverse]
  | feed body later hbody ih =>
      -- Seen from the place, the line feed behind `body` is the last one or stands behind that.
      have hback : (body ++ '\n' :: later).reverse.takeWhile (· != '\n') =
          later.reverse.takeWhile (· != '\n') := by
        rw [List.reverse_append, List.reverse_cons, List.append_assoc, List.takeWhile_append]
        split
        · rename_i hall
          rw [(List.takeWhile_prefix _).eq_of_length hall]
          simp
        · rfl
      rw [hback, List.append_assoc, List.cons_append, List.splitOn_append_cons_self,
        List.splitOn_eq_singleton hbody, List.count_append, List.count_cons_self,
        List.count_eq_zero.2 hbody, Nat.zero_add, List.singleton_append, List.getElem?_cons_succ, ih]

end Text
end ExportIndex
