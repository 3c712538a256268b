import Mathlib.Data.List.Forall2
import ExportIndex.Proofs.Declaration.Placement

/-!
# Head and slots of a declaration

A declaration is a head and the slots of its parameter list.  What each of them gives is decided by
its own text, read from an empty segment, so a declaration can be taken apart and put together again.

* `Holds` says that a text is read through as a segment and gives a name and a type; a text gives at
  most one of each (`Holds.unique`).
* `Lists` says which parameters the slots of a list give.
* `eq_of_opening` — no text has two different heads.
* `consumes_of_lists` and `exists_slots_of_readParameters` — slots that give parameters are read to
  them, and nothing else is read to parameters.
* `scan_eq_ok_iff_parts` — the same for a whole declaration.
-/

namespace ExportIndex
namespace Segment

/-- A text has at most one beginning that is a segment with its end. -/
theorem Ends.eq_of_append {part : Part} {s s₁ s₂ : Segment} {text₁ text₂ rest₁ rest₂ : List Char}
    {result₁ result₂ : Except Halt Delimiter} (h₁ : Ends part s text₁ result₁ s₁)
    (h₂ : Ends part s text₂ result₂ s₂) (heq : text₁ ++ rest₁ = text₂ ++ rest₂) : text₁ = text₂ := by
  have hread := read_of_ends h₁ [] rest₁ false
  rw [heq, read_of_ends h₂ [] rest₂ false] at hread
  have hrest : rest₂ = rest₁ := congrArg (fun reading => reading.reader.rest) hread
  rw [hrest] at heq
  exact List.append_cancel_right heq

end Segment

namespace Declaration

open Segment (Run Ends Delimits)

variable {part : Part} {name : String} {type : CType}

/-! ### Segments -/

/-- A text that is read through as a segment of the given part and gives a name and a type. -/
def Holds (part : Part) (text : List Char) (name : String) (type : CType) : Prop :=
  ∃ s, Run part .empty text s ∧ s.nesting = 0 ∧ ∀ unnamed, namedType unnamed s = .ok (name, type)

/-- What a segment is said to lack makes no difference if it lacks nothing. -/
theorem namedType_eq_ok {unnamed : Flaw} {s : Segment} (h : namedType unnamed s = .ok (name, type))
    (unnamed' : Flaw) : namedType unnamed' s = .ok (name, type) := by
  obtain ⟨fragments, htokens, htype⟩ := exists_of_namedType h
  simp only [namedType, Segment.split?, htokens, htype]

theorem isEmpty_of_namedType {unnamed : Flaw} {s : Segment}
    (h : namedType unnamed s = .ok (name, type)) : s.isEmpty = false := by
  obtain ⟨fragments, htokens, -⟩ := exists_of_namedType h
  rw [← Bool.not_eq_true, Segment.isEmpty_iff_flush_tokens, htokens]
  exact List.cons_ne_nil name fragments

/-- A text gives at most one name and one type. -/
theorem Holds.unique {text : List Char} {name' : String} {type' : CType}
    (h : Holds part text name type) (h' : Holds part text name' type') : name = name' ∧ type = type' := by
  obtain ⟨s, hrun, -, hnamed⟩ := h
  obtain ⟨s', hrun', -, hnamed'⟩ := h'
  obtain rfl := hrun.unique hrun'
  have hsame := (hnamed .unnamedFunction).symm.trans (hnamed' .unnamedFunction)
  exact Prod.mk.inj (Except.ok.inj hsame)

/-- A head is read through its opening parenthesis. -/
theorem Holds.ends {head : List Char} (h : Holds .head head name type) :
    ∃ s, Ends .head .empty (head ++ ['(']) (.ok .opening) s ∧
      headVerdict (.ok .opening) s = .ok (name, type) := by
  obtain ⟨s, hrun, htop, hnamed⟩ := h
  refine ⟨s, .intro hrun (.delimiter (.opening rfl htop)), ?_⟩
  rw [headVerdict, hnamed]
  rfl

/-- No text has two different heads. -/
theorem eq_of_opening {head head' more more' : List Char} {name' : String} {type' : CType}
    (h : Holds .head head name type) (h' : Holds .head head' name' type')
    (heq : head ++ '(' :: more = head' ++ '(' :: more') : head = head' ∧ more = more' := by
  obtain ⟨s, hends, -⟩ := h.ends
  obtain ⟨s', hends', -⟩ := h'.ends
  have hhead : head ++ ['('] = head' ++ ['('] :=
    hends.eq_of_append hends' (by simpa using heq)
  obtain rfl := List.append_cancel_right hhead
  exact ⟨rfl, List.cons_inj_right '(' |>.1 (List.append_cancel_left heq)⟩

/-! ### Lists of slots -/

/-- The slots give the parameters, one each. -/
def HoldsEach (slots : List (List Char)) (parameters : List Parameter) : Prop :=
  List.Forall₂ (fun slot parameter => Holds .parameters slot parameter.name parameter.type)
    slots parameters

/-- Every parameter is given by a slot. -/
theorem HoldsEach.exists_slot {slots : List (List Char)} {parameters : List Parameter}
    (h : HoldsEach slots parameters) :
    ∀ parameter ∈ parameters, ∃ slot, Holds .parameters slot parameter.name parameter.type := by
  induction h with
  | nil => simp
  | cons hslot _ ih => exact List.forall_mem_cons.2 ⟨⟨_, hslot⟩, ih⟩

/-- Every slot gives a parameter. -/
theorem HoldsEach.exists_parameter {slots : List (List Char)} {parameters : List Parameter}
    (h : HoldsEach slots parameters) : ∀ slot ∈ slots, ∃ name type, Holds .parameters slot name type := by
  induction h with
  | nil => simp
  | cons hslot _ ih => exact List.forall_mem_cons.2 ⟨⟨_, _, hslot⟩, ih⟩

/-- The parameters that the slots of a list give; only a slot that is alone may have no token. -/
inductive Lists : List (List Char) → List Parameter → Prop
  | blank {slot : List Char} {s : Segment} (hrun : Run .parameters .empty slot s)
      (htop : s.nesting = 0) (hempty : s.isEmpty = true) : Lists [slot] []
  | named {slots : List (List Char)} {parameters : List Parameter} (hne : slots ≠ [])
      (hholds : HoldsEach slots parameters) : Lists slots parameters

theorem Lists.ne_nil {slots : List (List Char)} {parameters : List Parameter}
    (h : Lists slots parameters) : slots ≠ [] := by
  cases h with
  | blank => exact List.cons_ne_nil _ _
  | named hne _ => exact hne

/-- Slots that give parameters are read to them. -/
theorem consumes_of_holdsEach {slots : List (List Char)} {parameters : List Parameter}
    (h : HoldsEach slots parameters) (hne : slots ≠ []) (first : Bool) :
    Reader.Consumes (readParameters first) ([','].intercalate slots ++ [')']) (.ok parameters) := by
  induction h generalizing first with
  | nil => contradiction
  | @cons slot parameter slots parameters hslot hmore ih =>
      obtain ⟨s, hrun, htop, hnamed⟩ := hslot
      -- Both delimiters of a slot end it in the same segment.
      have hends {c : Char} {delimiter : Delimiter} (hdelimits : Delimits .parameters s c delimiter) :
          Ends .parameters .empty (slot ++ [c]) (.ok delimiter) s := .intro hrun (.delimiter hdelimits)
      have hfull := isEmpty_of_namedType (hnamed .unnamedParameter)
      by_cases hlast : slots = []
      · subst hlast
        obtain rfl := List.forall₂_nil_left_iff.1 hmore
        have hverdict : slotVerdict first (.ok .closing) s = .done (.ok [parameter]) := by
          simp [slotVerdict, hfull, hnamed]
        have hclosing := consumes_of_done (hends (.closing rfl htop)) hverdict
        simpa using hclosing
      · have hverdict : slotVerdict first (.ok .comma) s = .next parameter := by
          simp [slotVerdict, hnamed]
        have hcomma := consumes_of_next (hends (.comma rfl htop)) hverdict (ih hlast false)
        rw [List.intercalate_cons_of_ne_nil hlast]
        simpa [Except.map] using hcomma

/-- Slots that give the parameters of a list are read to them. -/
theorem consumes_of_lists {slots : List (List Char)} {parameters : List Parameter}
    (h : Lists slots parameters) :
    Reader.Consumes (readParameters true) ([','].intercalate slots ++ [')']) (.ok parameters) := by
  cases h with
  | @blank slot s hrun htop hempty =>
      have hverdict : slotVerdict true (.ok .closing) s = .done (.ok []) := by
        simp [slotVerdict, hempty]
      have hclosing := consumes_of_done (.intro hrun (.delimiter (.closing rfl htop))) hverdict
      simpa using hclosing
  | named hne hholds => exact consumes_of_holdsEach hholds hne true

/-- What is read to parameters are slots that give them; only the first can be without a token. -/
theorem exists_slots_of_readParameters {first : Bool} {r : Reader} {parameters : List Parameter}
    (h : (readParameters first r).1 = .ok parameters) :
    ∃ slots, r.rest = [','].intercalate slots ++ ')' :: (readParameters first r).2.rest ∧
      Lists slots parameters ∧ (first = false → HoldsEach slots parameters) := by
  fun_induction readParameters first r generalizing parameters with
  | case1 => contradiction
  | case2 first r slot delimiter hresult =>
      rename_i hblank
      obtain rfl : [] = parameters := by simpa using h
      simp only [Bool.and_eq_true, beq_iff_eq] at hblank
      obtain ⟨⟨rfl, rfl⟩, hempty⟩ := hblank
      obtain ⟨text, c, hrest, hrun, hdelimits⟩ := Segment.exists_run_of_ok hresult
      cases hdelimits with
      | closing _ htop => exact ⟨[text], by simpa using hrest, .blank hrun htop hempty, nofun⟩
  | case3 => contradiction
  | case4 first r slot name type hnamed hresult =>
      obtain rfl : [⟨name, type⟩] = parameters := by simpa using h
      obtain ⟨text, c, hrest, hrun, hdelimits⟩ := Segment.exists_run_of_ok hresult
      cases hdelimits with
      | closing _ htop =>
          have hholds : HoldsEach [text] [⟨name, type⟩] :=
            .cons ⟨_, hrun, htop, namedType_eq_ok hnamed⟩ .nil
          exact ⟨[text], by simpa using hrest, .named (by simp) hholds, fun _ => hholds⟩
  | case5 first r slot delimiter hresult hblank name type hnamed hclosing later =>
      rename_i ih
      obtain ⟨text, c, hrest, hrun, hdelimits⟩ := Segment.exists_run_of_ok hresult
      cases hlater : later.1 with
      | error halt => simp [hlater, Except.map] at h
      | ok more =>
          obtain rfl : ⟨name, type⟩ :: more = parameters := by simpa [hlater, Except.map] using h
          obtain ⟨slots, hslots, hlists, hmore⟩ := ih hlater
          -- Behind a delimiter that does not close the list there is a comma.
          cases hdelimits with
          | opening hpart => contradiction
          | closing => contradiction
          | comma _ htop =>
              have hholds : HoldsEach (text :: slots) (⟨name, type⟩ :: more) :=
                .cons ⟨_, hrun, htop, namedType_eq_ok hnamed⟩ (hmore rfl)
              refine ⟨text :: slots, ?_, .named (List.cons_ne_nil text slots) hholds, fun _ => hholds⟩
              rw [hrest, hslots, List.intercalate_cons_of_ne_nil hlists.ne_nil]
              simp
              rfl

/-! ### Declarations -/

/-- The head and the slots of a declaration; the lone word `void` stands for no parameters. -/
structure Parts (declaration : Declaration) (head : List Char) (slots : List (List Char)) : Prop where
  head : Holds .head head declaration.name declaration.returnType
  list : ∃ listed, Lists slots listed ∧
    declaration.parameters = if Parameter.isVoidList listed then [] else listed

/-- Texts that are parts of a declaration are read to it. -/
theorem Parts.consumes {declaration : Declaration} {head : List Char} {slots : List (List Char)}
    (h : Parts declaration head slots) :
    Reader.Consumes (read declaration.line) (head ++ ['('] ++ ([','].intercalate slots ++ [')']))
      (.ok declaration) := by
  obtain ⟨hhead, listed, hlist, hparameters⟩ := h
  obtain ⟨s, hends, hverdict⟩ := hhead.ends
  have hread : Reader.Consumes (read declaration.line) _ _ :=
    consumes_read hends hverdict (consumes_of_lists hlist)
  simpa only [Except.map, ← hparameters] using hread

/-- A declaration is found exactly where the text goes on with its parts. -/
theorem scan_eq_ok_iff_parts {text : List Char} {start line finish : Nat} {declaration : Declaration} :
    scan text start line = .ok (declaration, finish) ↔
      ∃ head slots rest, text.drop start = head ++ '(' :: ([','].intercalate slots ++ ')' :: rest) ∧
        Parts declaration head slots ∧ declaration.line = line ∧
          finish + rest.length = text.length := by
  constructor
  · intro h
    obtain ⟨hread, hfinish⟩ := finish_add_length_rest h
    obtain ⟨delimiter, listed, hresult, hnamed, hlist, hline, hparameters⟩ := exists_of_read_ok hread
    obtain ⟨head, c, hrest, hrun, hdelimits⟩ := Segment.exists_run_of_ok hresult
    obtain ⟨slots, hslots, hlists, -⟩ := exists_slots_of_readParameters (congrArg Prod.fst hlist)
    rw [hlist] at hslots
    cases hdelimits with
    | comma hpart => contradiction
    | closing hpart => contradiction
    | opening _ htop =>
        refine ⟨head, slots, (read line (.startAt text start)).2.rest, ?_, ⟨?_, ?_⟩, hline, hfinish⟩
        · rw [← hslots]
          exact hrest
        · exact ⟨_, hrun, htop, namedType_eq_ok hnamed⟩
        · exact ⟨listed, hlists, hparameters⟩
  · rintro ⟨head, slots, rest, htext, hparts, rfl, hfinish⟩
    have hconsumed : text.drop start =
        head ++ ['('] ++ ([','].intercalate slots ++ [')']) ++ rest := by
      rw [htext]
      simp
    rw [scan_of_consumes hconsumed hparts.consumes]
    have hlength := congrArg List.length (List.take_append_drop start text)
    rw [hconsumed, List.length_append, List.length_append] at hlength
    simp only [Except.ok.injEq, Prod.mk.injEq, true_and]
    omega

/-- A declaration that is found has parts, and the text goes on behind them. -/
theorem exists_parts_of_scan {text : List Char} {start line finish : Nat} {declaration : Declaration}
    (h : scan text start line = .ok (declaration, finish)) :
    ∃ head slots, text.drop start =
        head ++ '(' :: ([','].intercalate slots ++ ')' :: text.drop finish) ∧
      Parts declaration head slots := by
  obtain ⟨head, slots, rest, htext, hparts, -, hfinish⟩ := scan_eq_ok_iff_parts.1 h
  have hsuffix : rest <:+ text := by
    refine .trans ?_ (List.drop_suffix start text)
    rw [htext]
    exact ⟨head ++ '(' :: ([','].intercalate slots ++ [')']), by simp⟩
  have hbehind : text.drop finish = rest := by
    rw [List.suffix_iff_eq_drop.1 hsuffix]
    congr 1
    omega
  exact ⟨head, slots, hbehind ▸ htext, hparts⟩

end Declaration
end ExportIndex
