import Mathlib.Data.List.Perm.Basic
import ExportIndex.Path

/-!
# The order of paths

Paths are ordered by their components, and two paths are in the same place of the order exactly when
they have the same components.

* `compare_eq_eq_iff` and the instances before it say that the components decide the order.
* `Distinct` says what is kept of a list in order; `pairwise_sortDistinct` and
  `exists_mem_sortDistinct_iff` draw the conclusions for any list: no place is taken twice, and none is
  lost.
* `components_eq_of_mem_iff` — lists in order that take the same places are equal up to the spelling.
-/

namespace ExportIndex
namespace Path

instance : Std.TransCmp Component.compare := by
  unfold Component.compare
  infer_instance

instance : Std.LawfulEqCmp Component.compare where
  compare_self := Std.ReflCmp.compare_self
  eq_of_compare {a b} h := by
    obtain ⟨hrank, htext⟩ := compareLex_eq_eq.1 h
    have hrank : a.rank = b.rank := Std.LawfulEqCmp.eq_of_compare hrank
    have htext : a.text = b.text := Std.LawfulEqCmp.eq_of_compare htext
    cases a <;> cases b <;> simp_all [Component.rank, Component.text]

instance : Std.TransCmp Path.compare where
  eq_swap := by
    intro a b
    unfold Path.compare
    exact Std.OrientedCmp.eq_swap
  isLE_trans := by
    intro a b c hab hbc
    unfold Path.compare at hab hbc ⊢
    exact Std.TransCmp.isLE_trans hab hbc

theorem same_iff {a b : String} : same a b = true ↔ components a = components b :=
  beq_iff_eq

theorem same_eq_false_iff {a b : String} : same a b = false ↔ components a ≠ components b :=
  beq_eq_false_iff_ne

/-- Only paths with the same components share a place in the order. -/
theorem compare_eq_eq_iff {a b : String} : compare a b = .eq ↔ components a = components b := by
  unfold compare
  exact Std.LawfulEqCmp.compare_eq_iff_eq

theorem compare_swap (a b : String) : compare a b = (compare b a).swap :=
  Std.OrientedCmp.eq_swap

theorem components_ne_of_lt {a b : String} (h : compare a b = .lt) :
    components a ≠ components b := by
  intro heq
  rw [compare_eq_eq_iff.2 heq] at h
  contradiction

/-! ### One of each run -/

theorem eraseRepsBy_loop {α : Type} (r : α → α → Bool) (a : α) (items before : List α) :
    List.eraseRepsBy.loop r a items before = before.reverse ++ (a :: items).eraseRepsBy r := by
  induction items generalizing a before with
  | nil => simp [List.eraseRepsBy, List.eraseRepsBy.loop]
  | cons b items ih =>
      rw [List.eraseRepsBy, List.eraseRepsBy.loop, List.eraseRepsBy.loop]
      split
      · rw [ih, ih]
        simp
      · rw [ih, ih]
        simp

theorem eraseRepsBy_cons_cons {α : Type} (r : α → α → Bool) (a b : α) (items : List α) :
    (a :: b :: items).eraseRepsBy r =
      if r a b then (a :: items).eraseRepsBy r else a :: (b :: items).eraseRepsBy r := by
  rw [List.eraseRepsBy, List.eraseRepsBy.loop]
  simp only [eraseRepsBy_loop]
  cases r a b <;> rfl

/-- Taking one of each run of equal paths leaves a list in order without repetitions, from which no
path is missing but for its spelling. -/
structure Distinct (paths kept : List String) : Prop where
  sublist : kept.Sublist paths
  increasing : kept.Pairwise fun a b => compare a b = .lt
  complete : ∀ path ∈ paths, ∃ member ∈ kept, components member = components path

/-- A path that comes right after an equal one can be left out. -/
theorem Distinct.skip {a b : String} {later kept : List String} (h : Distinct (a :: later) kept)
    (hab : components a = components b) : Distinct (a :: b :: later) kept where
  sublist := h.sublist.trans ((List.sublist_cons_self b later).cons_cons a)
  increasing := h.increasing
  complete path hpath := by
    rcases List.mem_cons.1 hpath with rfl | hpath
    · exact h.complete path List.mem_cons_self
    · rcases List.mem_cons.1 hpath with rfl | hpath
      · obtain ⟨member, hmember, heq⟩ := h.complete a List.mem_cons_self
        exact ⟨member, hmember, heq.trans hab⟩
      · exact h.complete path (List.mem_cons_of_mem a hpath)

/-- A path before all others is kept. -/
theorem Distinct.cons {a : String} {later kept : List String} (h : Distinct later kept)
    (ha : ∀ path ∈ later, compare a path = .lt) : Distinct (a :: later) (a :: kept) where
  sublist := h.sublist.cons_cons a
  increasing := List.pairwise_cons.2 ⟨fun path hpath => ha path (h.sublist.subset hpath), h.increasing⟩
  complete path hpath := by
    rcases List.mem_cons.1 hpath with rfl | hpath
    · exact ⟨path, List.mem_cons_self, rfl⟩
    · obtain ⟨member, hmember, heq⟩ := h.complete path hpath
      exact ⟨member, List.mem_cons_of_mem a hmember, heq⟩

theorem distinct_cons {a : String} {later : List String}
    (h : (a :: later).Pairwise fun a b => (compare a b).isLE = true) :
    Distinct (a :: later) ((a :: later).eraseRepsBy same) := by
  induction later generalizing a with
  | nil => exact ⟨.refl _, List.pairwise_singleton .., fun path hpath => ⟨path, hpath, rfl⟩⟩
  | cons b later ih =>
      obtain ⟨ha, hlater⟩ := List.pairwise_cons.1 h
      rw [eraseRepsBy_cons_cons]
      split
      · rename_i hsame
        have hskip := (List.sublist_cons_self b later).cons_cons a
        exact (ih (h.sublist hskip)).skip (same_iff.1 hsame)
      · rename_i hsame
        have hab : compare a b = .lt := by
          have hle := ha b List.mem_cons_self
          have hne : compare a b ≠ .eq := fun heq => hsame (same_iff.2 (compare_eq_eq_iff.1 heq))
          cases hcompare : compare a b <;> simp_all
        refine (ih hlater).cons fun path hpath => ?_
        rcases List.mem_cons.1 hpath with rfl | hpath
        · exact hab
        · exact Std.TransCmp.lt_of_lt_of_isLE hab ((List.pairwise_cons.1 hlater).1 path hpath)

/-! ### Lists in order -/

theorem pairwise_mergeSort (paths : List String) :
    (paths.mergeSort fun a b => (compare a b).isLE).Pairwise fun a b => (compare a b).isLE = true := by
  refine List.pairwise_mergeSort (fun a b c => Std.TransCmp.isLE_trans) (fun a b => ?_) paths
  rw [compare_swap a b, Bool.or_eq_true]
  cases compare b a <;> simp

theorem distinct_sortDistinct (paths : List String) :
    Distinct (paths.mergeSort fun a b => (compare a b).isLE) (sortDistinct paths) := by
  have hsorted := pairwise_mergeSort paths
  unfold sortDistinct
  cases h : paths.mergeSort fun a b => (compare a b).isLE with
  | nil => exact ⟨.slnil, .nil, fun path hpath => absurd hpath List.not_mem_nil⟩
  | cons first later => exact distinct_cons (h ▸ hsorted)

/-- A list that has been put in order is strictly increasing. -/
theorem pairwise_sortDistinct (paths : List String) :
    (sortDistinct paths).Pairwise fun a b => compare a b = .lt :=
  (distinct_sortDistinct paths).increasing

theorem mem_of_mem_sortDistinct {paths : List String} {path : String}
    (h : path ∈ sortDistinct paths) : path ∈ paths :=
  List.mem_mergeSort.1 ((distinct_sortDistinct paths).sublist.subset h)

/-- No path is lost, up to its spelling. -/
theorem exists_mem_sortDistinct_iff {paths : List String} {places : List Component} :
    (∃ member ∈ sortDistinct paths, components member = places) ↔
      ∃ path ∈ paths, components path = places := by
  constructor
  · rintro ⟨member, hmember, heq⟩
    exact ⟨member, mem_of_mem_sortDistinct hmember, heq⟩
  · rintro ⟨path, hpath, rfl⟩
    exact (distinct_sortDistinct paths).complete path (List.mem_mergeSort.2 hpath)

/-- Two lists in order that have the same paths up to their spelling differ in nothing else. -/
theorem components_eq_of_mem_iff {paths others : List String}
    (hpaths : paths.Pairwise fun a b => compare a b = .lt)
    (hothers : others.Pairwise fun a b => compare a b = .lt)
    (h : ∀ places, (∃ path ∈ paths, components path = places) ↔
      ∃ path ∈ others, components path = places) :
    paths.map components = others.map components := by
  have hsorted {l : List String} (hl : l.Pairwise fun a b => compare a b = .lt) :
      (l.map components).Pairwise fun a b => List.compareLex Component.compare a b = .lt :=
    List.pairwise_map.2 hl
  have hnodup {l : List String} (hl : l.Pairwise fun a b => compare a b = .lt) :
      (l.map components).Nodup :=
    List.pairwise_map.2 (hl.imp components_ne_of_lt)
  have hperm : (paths.map components).Perm (others.map components) :=
    (List.perm_ext_iff_of_nodup (hnodup hpaths) (hnodup hothers)).2 fun places => by
      rw [List.mem_map, List.mem_map, h]
  refine hperm.eq_of_pairwise (fun a b _ _ hab hba => ?_) (hsorted hpaths) (hsorted hothers)
  exact absurd hba (Std.OrientedCmp.not_lt_of_lt hab)

end Path
end ExportIndex
