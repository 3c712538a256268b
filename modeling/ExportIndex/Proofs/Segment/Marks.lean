import ExportIndex.Proofs.Segment.Pieces

/-!
# Markers at the ends of pieces

A `*` or `&` outside all brackets goes to the piece before it.  Unless such a marker is followed by a
character that is glued to it, it is one of the markers that its piece ends in.

* `blocks` are the pieces of a text with the places of their characters, and `MarkersEnd` says that
  nothing is glued to a marker outside all brackets.
* `HasRun` — a piece is a body and then a run of markers outside all brackets.
* `Shaped` is the invariant of a text that goes on by one character; `settled_of_mem_blocks` — in a
  balanced text every piece is a body that ends in neither a marker nor a blank, and then such a run.
-/

namespace ExportIndex
namespace Segment

open Text (isBlank isWordChar)

/-- The pieces of a text, as the characters that make them. -/
def blocks (text : List Char) : List (List Position) :=
  (kept text).splitBy Position.joins

/-- The text of a piece. -/
def spell (block : List Position) : String :=
  String.ofList (block.map Position.char)

theorem pieces_eq_map (text : List Char) : pieces text = (blocks text).map spell :=
  rfl

/-- A `*` or `&` outside all brackets. -/
def Position.isMarker (p : Position) : Bool :=
  decide (IsMarker p.char) && p.depth == 0

theorem Position.isMarker_iff {p : Position} : p.isMarker = true ↔ IsMarker p.char ∧ p.depth = 0 := by
  simp [Position.isMarker]

/-- Behind every marker outside all brackets the text ends, or goes on with a blank, another marker or
a word. -/
def MarkersEnd (text : List Char) : Prop :=
  ∀ p ∈ positions text, p.isMarker = true →
    ∀ c ∈ text[p.index + 1]?, isBlank c = true ∨ IsMarker c ∨ isWordChar c = true

instance (text : List Char) : Decidable (MarkersEnd text) :=
  decidable_of_iff (∀ p ∈ positions text, p.isMarker = true → (text[p.index + 1]?.all fun c =>
      isBlank c || decide (IsMarker c) || isWordChar c) = true) <| by
    simp [MarkersEnd, Option.all_eq_true, or_assoc]

/-! ### The last character that is kept -/

theorem openBrackets_concat {text : List Char} {c : Char}
    (h : c ≠ '<' ∧ c ≠ '>' ∧ c ≠ '(' ∧ c ≠ ')') : openBrackets (text ++ [c]) = openBrackets text := by
  obtain ⟨hless, hgreater, hopen, hclose⟩ := h
  simp [openBrackets, hless, hgreater, hopen, hclose]

/-- Behind the last character that is kept there are only gaps. -/
theorem last_kept (text : List Char) :
    (kept text = [] → openBrackets text = 0) ∧
      ∀ p ∈ (kept text).getLast?, p.depth = openBrackets text ∧
        (p.index + 1 = text.length ∨ openBrackets text = 0) := by
  induction text using List.reverseRecOn with
  | nil => simp [kept, positions, openBrackets]
  | append_singleton text c ih =>
      by_cases hgap : isBlank c = true ∧ openBrackets (text ++ [c]) = 0
      · rw [kept_of_gap hgap.1 hgap.2]
        refine ⟨fun _ => hgap.2, fun p hp => ⟨?_, .inr hgap.2⟩⟩
        rw [(ih.2 p hp).1, openBrackets_concat (not_bracket_of_isBlank hgap.1)]
      · rw [getLast?_kept_concat hgap, kept_concat hgap]
        refine ⟨fun hnil => absurd hnil (by simp), ?_⟩
        rintro _ ⟨⟩
        simp

theorem mem_positions_of_mem_kept {text : List Char} {p : Position} (h : p ∈ kept text) :
    p ∈ positions text :=
  List.mem_of_mem_filter h

theorem positions_append (text : List Char) (c : Char) :
    ∀ p ∈ positions text, p ∈ positions (text ++ [c]) := by
  intro p hp
  rw [positions_concat]
  exact List.mem_append_left _ hp

theorem MarkersEnd.of_concat {text : List Char} {c : Char} (h : MarkersEnd (text ++ [c])) :
    MarkersEnd text := by
  intro p hp hmarker d hd
  refine h p (positions_append text c p hp) hmarker d ?_
  rw [Option.mem_def] at hd ⊢
  rw [List.getElem?_append_left (List.getElem?_eq_some_iff.1 hd).1, hd]

/-! ### Bodies and runs -/

/-- A piece whose markers outside all brackets are those it ends in. -/
structure HasRun (block body run : List Position) : Prop where
  eq_append : block = body ++ run
  marked : ∀ p ∈ run, p.isMarker = true
  unmarked : ∀ p ∈ body, p.isMarker = false
  head : ∀ p ∈ body.head?, ¬IsMarker p.char
  last : run ≠ [] → ∀ p ∈ body.getLast?, p.depth = 0

/-- Every piece has a run, and every piece but the last ends outside all brackets. -/
structure Shaped (text : List Char) : Prop where
  hasRun : ∀ block ∈ blocks text, ∃ body run, HasRun block body run
  closed : ∀ block ∈ (blocks text).dropLast, ∀ p ∈ block.getLast?, p.depth = 0

section Steps

variable {text : List Char} {c : Char}

/-- The character behind a text. -/
def next (text : List Char) (c : Char) : Position :=
  ⟨text.length, c, openBrackets (text ++ [c])⟩

/-- A marker stands as deep as the characters before it. -/
theorem depth_next (hc : IsMarker c) : (next text c).depth = openBrackets text :=
  openBrackets_concat (not_bracket_of_isMarker hc)

theorem isMarker_next_iff : (next text c).isMarker = true ↔ IsMarker c ∧ openBrackets text = 0 := by
  rw [Position.isMarker_iff]
  exact and_congr_right fun hc : IsMarker c => by rw [depth_next hc]

/-- What goes on with a piece that ends in a marker is a marker. -/
theorem isMarker_next_of_joins (hclear : MarkersEnd (text ++ [c]))
    (hkept : ¬(isBlank c = true ∧ openBrackets (text ++ [c]) = 0)) {p : Position}
    (hp : p ∈ (kept text).getLast?) (hmarker : p.isMarker = true)
    (hjoins : p.joins (next text c) = true) : (next text c).isMarker = true := by
  obtain ⟨hdepth, hindex⟩ := (last_kept text).2 p hp
  obtain ⟨hpmarker, htop⟩ := Position.isMarker_iff.1 hmarker
  rw [htop] at hdepth
  refine isMarker_next_iff.2 ⟨?_, hdepth.symm⟩
  rw [Position.joins] at hjoins
  split at hjoins
  · rename_i hadjacent
    have hmem : p ∈ positions (text ++ [c]) :=
      positions_append text c p (mem_positions_of_mem_kept (List.mem_of_getLast? hp))
    have hc : c ∈ (text ++ [c])[p.index + 1]? := by
      rw [← hadjacent]
      simp [next]
    rcases hclear p hmem hmarker c hc with hblank | hc | hword
    · refine absurd ⟨hblank, ?_⟩ hkept
      rw [openBrackets_concat (not_bracket_of_isBlank hblank), ← hdepth]
    · exact hc
    · have hmark : IsMark p.char := .inl hpmarker
      simp [next, hmark, htop, hword] at hjoins
  · exact of_decide_eq_true hjoins

/-- A piece that goes on keeps its run at the end. -/
theorem HasRun.concat {block body run : List Position} (h : HasRun block body run) {p : Position}
    (hp : p ∈ block.getLast?) (hdepth : p.depth = openBrackets text)
    (hmarker : p.isMarker = true → (next text c).isMarker = true) :
    ∃ body run, HasRun (block ++ [next text c]) body run := by
  obtain ⟨rfl, hrun, hbody, hhead, hlast⟩ := h
  by_cases hnext : (next text c).isMarker = true
  · refine ⟨body, run ++ [next text c], (List.append_assoc ..), ?_, hbody, hhead, fun _ => ?_⟩
    · exact List.forall_mem_append.2 ⟨hrun, by simpa using hnext⟩
    · by_cases hnone : run = []
      · subst hnone
        rw [List.append_nil] at hp
        intro q hq
        obtain rfl := Option.mem_unique hp hq
        rw [hdepth]
        exact (isMarker_next_iff.1 hnext).2
      · exact hlast hnone
  · -- Behind a marker there would be another one.
    have hnone : run = [] := by
      rw [← List.getLast?_eq_none_iff, Option.eq_none_iff_forall_ne_some]
      intro q hq
      rw [List.getLast?_append, hq] at hp
      obtain rfl := Option.some.inj hp
      exact hnext (hmarker (hrun q (List.mem_of_getLast? hq)))
    subst hnone
    rw [List.append_nil] at hp ⊢
    refine ⟨body ++ [next text c], [], (List.append_nil _).symm, nofun, ?_, ?_, nofun⟩
    · exact List.forall_mem_append.2 ⟨hbody, by simpa using hnext⟩
    · rwa [List.head?_append_of_ne_nil]
      exact List.ne_nil_of_mem (List.mem_of_getLast? hp)

/-- A piece of one character outside all brackets. -/
theorem hasRun_singleton (htop : openBrackets text = 0) :
    ∃ body run, HasRun [next text c] body run := by
  by_cases hmarker : (next text c).isMarker = true
  · exact ⟨[], [next text c], rfl, by simpa using hmarker, nofun, nofun, fun _ => nofun⟩
  · refine ⟨[next text c], [], rfl, nofun, by simpa using hmarker, ?_, nofun⟩
    rintro _ ⟨⟩ hc
    exact hmarker (isMarker_next_iff.2 ⟨hc, htop⟩)

/-- Where a piece begins, no bracket is open. -/
theorem openBrackets_of_not_joins {p : Position} (hp : p ∈ (kept text).getLast?)
    (h : p.joins (next text c) = false) : openBrackets text = 0 := by
  obtain ⟨hdepth, hindex⟩ := (last_kept text).2 p hp
  rcases hindex with hadjacent | htop
  · rw [Position.joins, if_pos (show (next text c).index = p.index + 1 from hadjacent.symm)] at h
    simp only [Bool.not_eq_false', Bool.and_eq_true, beq_iff_eq] at h
    exact hdepth.symm.trans h.1.2
  · exact htop

/-- The last piece ends in the last character that is kept. -/
theorem getLast?_of_blocks_eq {init : List (List Position)} {last : List Position}
    (h : blocks text = init ++ [last]) : last.getLast? = (kept text).getLast? := by
  have hne : last ≠ [] := by
    apply List.ne_nil_of_mem_splitBy
    rw [← blocks, h]
    exact List.mem_append_right _ List.mem_cons_self
  rw [← List.flatten_splitBy Position.joins (kept text), ← blocks, h, List.flatten_concat,
    List.getLast?_append_of_ne_nil _ hne]

/-- Every piece ends outside all brackets if the last one does. -/
theorem Shaped.depth_eq_zero (h : Shaped text) (htop : openBrackets text = 0) {block : List Position}
    (hblock : block ∈ blocks text) : ∀ p ∈ block.getLast?, p.depth = 0 := by
  obtain hnil | ⟨init, last, hblocks⟩ := List.eq_nil_or_concat' (blocks text)
  · rw [hnil] at hblock
    contradiction
  · have hclosed := h.closed
    rw [hblocks, List.dropLast_concat] at hclosed
    rw [hblocks] at hblock
    rcases List.mem_append.1 hblock with hblock | hblock
    · exact hclosed block hblock
    · obtain rfl := List.mem_singleton.1 hblock
      intro p hp
      rw [getLast?_of_blocks_eq hblocks] at hp
      exact ((last_kept text).2 p hp).1.trans htop

theorem Shaped.nil : Shaped [] where
  hasRun := by simp [blocks, kept, positions]
  closed := by simp [blocks, kept, positions]

/-- A character that begins a piece. -/
theorem Shaped.cut (h : Shaped text) (htop : openBrackets text = 0)
    (hblocks : blocks (text ++ [c]) = blocks text ++ [[next text c]]) : Shaped (text ++ [c]) where
  hasRun := by
    rw [hblocks]
    exact List.forall_mem_append.2 ⟨h.hasRun, by simpa using hasRun_singleton htop⟩
  closed := by
    rw [hblocks, List.dropLast_concat]
    exact fun block hblock => h.depth_eq_zero htop hblock

/-- A character that goes on with the last piece. -/
theorem Shaped.join (h : Shaped text) (hclear : MarkersEnd (text ++ [c]))
    (hkept : ¬(isBlank c = true ∧ openBrackets (text ++ [c]) = 0)) {p : Position}
    (hp : p ∈ (kept text).getLast?) (hjoins : p.joins (next text c) = true) :
    Shaped (text ++ [c]) := by
  obtain ⟨init, last, hblocks⟩ : ∃ init last, blocks text = init ++ [last] := by
    refine (List.eq_nil_or_concat' (blocks text)).resolve_left fun hnil => ?_
    rw [blocks, List.splitBy_eq_nil] at hnil
    simp [hnil] at hp
  have hlonger : blocks (text ++ [c]) = init ++ [last ++ [next text c]] := by
    rw [blocks, kept_concat hkept, ← next]
    refine splitBy_concat_of_join hblocks fun q hq => ?_
    rwa [← Option.mem_unique hp hq]
  obtain ⟨hruns, hclosed⟩ := h
  rw [hblocks] at hruns
  rw [hblocks, List.dropLast_concat] at hclosed
  obtain ⟨hruns, hlast⟩ := List.forall_mem_append.1 hruns
  obtain ⟨body, run, hrun⟩ := hlast last List.mem_cons_self
  rw [← getLast?_of_blocks_eq hblocks] at hp
  have hp' : p ∈ (kept text).getLast? := getLast?_of_blocks_eq hblocks ▸ hp
  constructor
  · rw [hlonger]
    refine List.forall_mem_append.2 ⟨hruns, ?_⟩
    have hmarker := fun hmarker => isMarker_next_of_joins hclear hkept hp' hmarker hjoins
    simpa using hrun.concat hp ((last_kept text).2 p hp').1 hmarker
  · rwa [hlonger, List.dropLast_concat]

/-- A text that goes on by one character keeps its shape. -/
theorem Shaped.concat (h : Shaped text) (hclear : MarkersEnd (text ++ [c])) : Shaped (text ++ [c]) := by
  by_cases hgap : isBlank c = true ∧ openBrackets (text ++ [c]) = 0
  · have hblocks : blocks (text ++ [c]) = blocks text := by
      rw [blocks, kept_of_gap hgap.1 hgap.2, blocks]
    exact ⟨hblocks ▸ h.hasRun, hblocks ▸ h.closed⟩
  · by_cases hcut : ∀ p ∈ (kept text).getLast?, p.joins (next text c) = false
    · have htop : openBrackets text = 0 := by
        cases hlast : (kept text).getLast? with
        | none => exact (last_kept text).1 (List.getLast?_eq_none_iff.1 hlast)
        | some p => exact openBrackets_of_not_joins hlast (hcut p hlast)
      refine h.cut htop ?_
      rw [blocks, kept_concat hgap, ← next, splitBy_concat_of_cut hcut, blocks]
    · push Not at hcut
      obtain ⟨p, hp, hjoins⟩ := hcut
      exact h.join hclear hgap hp (Bool.not_eq_false _ ▸ hjoins)

/-- A text with nothing glued to its markers is shaped. -/
theorem shaped_of_markersEnd (h : MarkersEnd text) : Shaped text := by
  induction text using List.reverseRecOn with
  | nil => exact .nil
  | append_singleton text c ih => exact (ih h.of_concat).concat h

end Steps

/-- A piece whose body ends in neither a marker nor a blank. -/
def Settled (block : List Position) : Prop :=
  ∃ body run, HasRun block body run ∧
    ∀ p ∈ body.getLast?, ¬IsMarker p.char ∧ isBlank p.char = false

/-- If no bracket is left open and nothing is glued to a marker, every piece is settled. -/
theorem settled_of_mem_blocks {text : List Char} (hclear : MarkersEnd text)
    (htop : openBrackets text = 0) {block : List Position} (hblock : block ∈ blocks text) :
    Settled block := by
  have hshaped := shaped_of_markersEnd hclear
  obtain ⟨body, run, hrun⟩ := hshaped.hasRun block hblock
  have hlast := hshaped.depth_eq_zero htop hblock
  refine ⟨body, run, hrun, fun p hp => ?_⟩
  have hmem : p ∈ body := List.mem_of_getLast? hp
  have hdepth : p.depth = 0 := by
    by_cases hnone : run = []
    · rw [hrun.eq_append, hnone, List.append_nil] at hlast
      exact hlast p hp
    · exact hrun.last hnone p hp
  constructor
  · intro hmarker
    have hunmarked := hrun.unmarked p hmem
    rw [Position.isMarker_iff.2 ⟨hmarker, hdepth⟩] at hunmarked
    contradiction
  · -- A blank outside all brackets would not have been kept.
    have hkept : p ∈ kept text := by
      rw [← List.flatten_splitBy Position.joins (kept text)]
      refine List.mem_flatten_of_mem hblock ?_
      rw [hrun.eq_append]
      exact List.mem_append_left _ hmem
    have hgap := (List.mem_filter.1 hkept).2
    simpa [Position.isGap, hdepth] using hgap

end Segment
end ExportIndex
