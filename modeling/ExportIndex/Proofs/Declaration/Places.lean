import ExportIndex.Proofs.Declaration.Extent
import ExportIndex.Proofs.Segment.Tags

/-!
# Places of a declaration

A point of a declaration lies in the head or in a slot of the parameter list, and what follows it there
matters to the declaration only through the segment the point lies in.

* `Place` tells apart the head and the slots; `Passes` lists the points that scanning a declaration
  passes, with their places.
* `Declaration.tagged` adds tags to the type of a place.
* `Maps` compares what two readers find when the second adds something: `readParameters_tagged` and
  `read_tagged` say this of the segment that has more tags.
* `maps_of_passes` — a segment that is read alike up to tags gives the declaration alike up to these
  tags of its type.
-/

namespace ExportIndex

/-! ### More tags -/

/-- A set with the words of a list added. -/
def TagSet.insertAll (set : TagSet) (words : List String) : TagSet :=
  words.foldl insert set

/-- A type with more tags. -/
def CType.tagged (words : List String) (type : CType) : CType :=
  { type with tags := type.tags.insertAll words }

/-- A parameter with more tags. -/
def Parameter.tagged (words : List String) (parameter : Parameter) : Parameter :=
  { parameter with type := parameter.type.tagged words }

/-- More tags beside the fragments make the same type with more tags. -/
theorem CType.classify?_tagged {words tags tags' : List String}
    (h : ∀ tag, tag ∈ tags' ↔ tag ∈ tags ∨ tag ∈ words) (fragments : List String) :
    classify? fragments tags' = (classify? fragments tags).map (tagged words) := by
  have hset : TagSet.ofList tags' = (TagSet.ofList tags).insertAll words := by
    refine TagSet.ext_of_mem fun tag => ?_
    rw [TagSet.mem_ofList, TagSet.insertAll, TagSet.mem_foldl_insert, TagSet.mem_ofList, h]
  simp only [classify?]
  split
  · rfl
  · rw [hset]
    rfl

namespace Declaration

open Segment (Run Ends Tagged TaggedAlike)

/-- A segment of a declaration. -/
inductive Place where
  | head
  /-- The slot of the parameter with the given index. -/
  | slot (index : Nat)
  deriving DecidableEq

/-- The part of a declaration that a place belongs to. -/
def Place.part : Place → Part
  | .head => .head
  | .slot _ => .parameters

/-- A declaration with more tags at the type of a place; a slot that gave no parameter has no type. -/
def tagged (words : List String) (declaration : Declaration) : Place → Declaration
  | .head => { declaration with returnType := declaration.returnType.tagged words }
  | .slot index =>
    { declaration with parameters := declaration.parameters.modify index (Parameter.tagged words) }

theorem tagged_nil (declaration : Declaration) (place : Place) :
    declaration.tagged [] place = declaration := by
  cases place with
  | head => rfl
  | slot index =>
      show { declaration with parameters := declaration.parameters.modify index id } = declaration
      rw [List.modify_id]

/-- Scanning a parameter list passes a point: behind `text` it stands in the slot with the given index,
of which `slot` has been read and which holds `s`. -/
inductive PassesSlot : (text : List Char) → (index : Nat) → (slot : List Char) → (s : Segment) → Prop
  | here {slot : List Char} {s : Segment} (hrun : Run .parameters .empty slot s) :
      PassesSlot slot 0 slot s
  | next {text more slot : List Char} {index : Nat} {s₀ s : Segment} {named : String × CType}
      (hends : Ends .parameters .empty text (.ok .comma) s₀)
      (hnamed : namedType .unnamedParameter s₀ = .ok named)
      (hlater : PassesSlot more index slot s) : PassesSlot (text ++ more) (index + 1) slot s

/-- Scanning a declaration passes a point: behind `text` it stands at the given place, in a segment of
which `segment` has been read and which holds `s`. -/
inductive Passes : (text : List Char) → (place : Place) → (segment : List Char) → (s : Segment) → Prop
  | head {segment : List Char} {s : Segment} (hrun : Run .head .empty segment s) :
      Passes segment .head segment s
  | slot {text more slot : List Char} {index : Nat} {s₀ s : Segment} {named : String × CType}
      (hends : Ends .head .empty text (.ok .opening) s₀)
      (hnamed : namedType .unnamedFunction s₀ = .ok named)
      (hlater : PassesSlot more index slot s) : Passes (text ++ more) (.slot index) slot s

theorem PassesSlot.run {text slot : List Char} {index : Nat} {s : Segment}
    (h : PassesSlot text index slot s) : Run .parameters .empty slot s := by
  induction h with
  | here hrun => exact hrun
  | next _ _ _ ih => exact ih

theorem Passes.run {text segment : List Char} {place : Place} {s : Segment}
    (h : Passes text place segment s) : Run place.part .empty segment s := by
  cases h with
  | head hrun => exact hrun
  | slot _ _ hlater => exact hlater.run

/-! ### From a segment to the declaration -/

/-- Two outcomes of which the second is made from the first; a success leaves the same text. -/
structure Maps {α : Type} (f : α → α) (x y : Except Halt α × Reader) : Prop where
  result : y.1 = x.1.map f
  rest {a : α} (h : x.1 = .ok a) : x.2.rest = y.2.rest

theorem maps_error {α : Type} (f : α → α) (halt : Halt) (r r' : Reader) :
    Maps f ((.error halt, r) : Except Halt α × Reader) (.error halt, r') where
  result := rfl
  rest hok := by simp at hok

/-- What is made of two outcomes, if it makes the same of both. -/
theorem Maps.map {α β : Type} {f : α → α} {x y : Except Halt α × Reader} (h : Maps f x y)
    {g g' : α → β} {f' : β → β} (hsame : ∀ a, g' (f a) = f' (g a)) :
    Maps f' (x.1.map g, x.2) (y.1.map g', y.2) where
  result := by
    rw [h.result]
    cases x.1 with
    | error => rfl
    | ok a => exact congrArg Except.ok (hsame a)
  rest hok := by
    cases hx : x.1 with
    | error => simp [hx, Except.map] at hok
    | ok a => exact h.rest hx

/-- What is found in a text is the same, whatever stands before it. -/
theorem maps_of_local {α : Type} {f : Reader → Except Halt α × Reader} (h : Reader.Local f)
    {r₁ r₂ : Reader} (hrest : r₁.rest = r₂.rest) : Maps id (f r₁) (f r₂) := by
  rcases h.same_rest hrest with ⟨h₁, h₂⟩ | ⟨text, rest, a, htext, -, hconsumes⟩
  · refine ⟨by rw [h₁, h₂]; rfl, fun hok => ?_⟩
    rw [h₁] at hok
    contradiction
  · obtain ⟨past₁, rest₁, undoable₁⟩ := r₁
    obtain ⟨past₂, rest₂, undoable₂⟩ := r₂
    obtain rfl : rest₁ = rest₂ := hrest
    obtain rfl : rest₁ = text ++ rest := htext
    rw [hconsumes, hconsumes]
    exact ⟨by rw [Except.map_id]; rfl, fun _ => rfl⟩

/-- A segment with more tags has the same name, and its type has the tags. -/
theorem namedType_tagged {words : List String} {s s' : Segment} (h : Tagged words s s')
    (unnamed : Flaw) :
    namedType unnamed s' =
      (namedType unnamed s).map fun (name, type) => (name, type.tagged words) := by
  rw [namedType, namedType, h.split?]
  cases s.split? with
  | none => rfl
  | some split =>
      obtain ⟨name, fragments⟩ := split
      simp only [CType.classify?_tagged h.tags fragments]
      cases CType.classify? fragments s.tags with
      | none => rfl
      | some type => rfl

/-- What a slot with more tags means. -/
def SlotVerdict.tagged (words : List String) : SlotVerdict → SlotVerdict
  | .done result => .done (result.map (·.modify 0 (Parameter.tagged words)))
  | .next parameter => .next (parameter.tagged words)

theorem slotVerdict_tagged {words : List String} {s s' : Segment} (h : Tagged words s s')
    (first : Bool) (result : Except Halt Delimiter) :
    slotVerdict first result s' = (slotVerdict first result s).tagged words := by
  cases result with
  | error halt => rfl
  | ok delimiter =>
      simp only [slotVerdict, h.isEmpty, namedType_tagged h]
      split
      · rfl
      · cases namedType .unnamedParameter s with
        | error flaw => rfl
        | ok named =>
            simp only [Except.map]
            split <;> rfl

/-- More tags in the first slot are more tags of its parameter. -/
theorem readParameters_tagged (first : Bool) {words : List String} {r r' : Reader}
    (h : TaggedAlike words (Segment.read .parameters .empty r) (Segment.read .parameters .empty r')) :
    Maps (·.modify 0 (Parameter.tagged words)) (readParameters first r) (readParameters first r') := by
  rw [readParameters_eq, readParameters_eq first r', ← h.result]
  cases hresult : (Segment.read .parameters .empty r).result with
  | error halt => exact maps_error _ halt _ _
  | ok delimiter =>
      have hrest := h.rest hresult
      rw [slotVerdict_tagged (h.segment hresult)]
      cases slotVerdict first (.ok delimiter) (Segment.read .parameters .empty r).segment with
      | done result => exact ⟨rfl, fun _ => hrest⟩
      | next parameter =>
          exact (maps_of_local (readParameters_local false) hrest).map fun _ => rfl

/-- More tags in the head are more tags of the return type. -/
theorem read_tagged (line : Nat) {words : List String} {r r' : Reader}
    (h : TaggedAlike words (Segment.read .head .empty r) (Segment.read .head .empty r')) :
    Maps (·.tagged words .head) (read line r) (read line r') := by
  rw [read_eq, read_eq line r', ← h.result]
  cases hresult : (Segment.read .head .empty r).result with
  | error halt => exact maps_error _ halt _ _
  | ok delimiter =>
      have hrest := h.rest hresult
      simp only [headVerdict, namedType_tagged (h.segment hresult)]
      cases namedType .unnamedFunction (Segment.read .head .empty r).segment with
      | error flaw => exact maps_error _ _ _ _
      | ok named =>
          exact (maps_of_local (readParameters_local true) hrest).map fun _ => rfl

theorem isVoidList_modify (words : List String) (index : Nat) (parameters : List Parameter) :
    Parameter.isVoidList (parameters.modify index (Parameter.tagged words)) =
      Parameter.isVoidList parameters := by
  rcases parameters with - | ⟨first, - | ⟨second, more⟩⟩
  · rw [List.modify_nil]
  · cases index with
    | zero => rfl
    | succ index => rw [List.modify_succ_cons, List.modify_nil]
  · rcases index with - | - | index <;> rfl

/-- What is behind a point of a slot matters to the parameter list only through that slot. -/
theorem maps_of_passesSlot {words : List String} {text slot rest rest' : List Char} {index : Nat}
    {s : Segment} (hpasses : PassesSlot text index slot s)
    (h : ∀ past undoable, TaggedAlike words
      (Segment.read .parameters .empty ⟨past, slot ++ rest, undoable⟩)
      (Segment.read .parameters .empty ⟨past, slot ++ rest', undoable⟩))
    (first : Bool) (past : List Char) (undoable : Bool) :
    Maps (·.modify index (Parameter.tagged words)) (readParameters first ⟨past, text ++ rest, undoable⟩)
      (readParameters first ⟨past, text ++ rest', undoable⟩) := by
  induction hpasses generalizing first past undoable with
  | here => exact readParameters_tagged first (h past undoable)
  | @next text more slot index s₀ s named hends hnamed _ ih =>
      have hverdict : slotVerdict first (.ok .comma) s₀ = .next ⟨named.1, named.2⟩ := by
        simp [slotVerdict, hnamed]
      rw [List.append_assoc, List.append_assoc, readParameters_of_next hends hverdict,
        readParameters_of_next hends hverdict]
      exact (ih h false (text.reverse ++ past) true).map fun _ => rfl

/-- What is behind a point of a declaration matters only through the segment the point lies in. -/
theorem maps_of_passes {words : List String} {text segment rest rest' : List Char} {place : Place}
    {s : Segment} (hpasses : Passes text place segment s)
    (h : ∀ past undoable, TaggedAlike words
      (Segment.read place.part .empty ⟨past, segment ++ rest, undoable⟩)
      (Segment.read place.part .empty ⟨past, segment ++ rest', undoable⟩))
    (line : Nat) (past : List Char) (undoable : Bool) :
    Maps (·.tagged words place) (read line ⟨past, text ++ rest, undoable⟩)
      (read line ⟨past, text ++ rest', undoable⟩) := by
  cases hpasses with
  | head => exact read_tagged line (h past undoable)
  | @slot text more slot index s₀ s named hends hnamed hlater =>
      have hverdict : headVerdict (.ok .opening) s₀ = .ok named := by
        rw [headVerdict, hnamed]
        rfl
      rw [List.append_assoc, List.append_assoc, read_of_head_ok hends hverdict,
        read_of_head_ok hends hverdict]
      refine (maps_of_passesSlot hlater h true (text.reverse ++ past) true).map fun parameters => ?_
      rw [isVoidList_modify, tagged]
      congr 1
      split
      · exact (List.modify_nil ..).symm
      · rfl

/-! ### Points of a text -/

/-- Behind `start`, a text can be changed without changing what is read from `start` up to there. -/
theorem startAt_insert {text : List Char} {start p : Nat} (hstart : start ≤ p)
    (hend : p ≤ text.length) (inserted : List Char) :
    Reader.startAt (text.take p ++ (inserted ++ text.drop p)) start =
      ⟨(text.take start).reverse, (text.take p).drop start ++ (inserted ++ text.drop p), false⟩ := by
  have hp : start ≤ (text.take p).length := by
    rw [List.length_take]
    omega
  rw [Reader.startAt, List.take_append_of_le_length hp, List.drop_append_of_le_length hp,
    List.take_take, Nat.min_eq_left hstart]

end Declaration
end ExportIndex
